/-
`LocalFileObjectStoreAdapter` as programs over the calls it makes to the file
system: how an object is put, read, looked for and deleted.

`Python` holds the hash, and how a JSON text is read.
-/
import ProjectAgent.Evidence.Rows
import ProjectAgent.Lib.Json
import ProjectAgent.ObjectStore.FileSystem

namespace ProjectAgent.ObjectStore

open Evidence (JsonValue intOfText)
open Interleave FileTree

abbrev Session := Prog FsOp FsOp.Res ObjectStoreError

def perform (op : FsOp) : Session op.Res := Prog.exec op

def ofExcept {α : Type} : Except ObjectStoreError α → Session α
  | .ok a => pure a
  | .error e => throw e

/-! ## Paths -/

def isSymlink (path : Path) : Session Bool := do pure ((← perform (.stat path)) == some .link)

def pathExists (path : Path) : Session Bool := do pure (← perform (.stat path)).isSome

def isDir (path : Path) : Session Bool := do pure ((← perform (.stat path)) == some .dir)

def isFile (path : Path) : Session Bool := do
  match ← perform (.stat path) with
  | some (.file _) => pure true
  | _ => pure false

def rejectSymlink (path : Path) : Session Unit := do
  if (← perform (.lstat path)) = some .link then throw (.security "symlink path is not allowed")
    else pure ()

def assertResolvesInsideRoot (path : Path) : Session Unit := do
  if ← perform (.resolvesInside path) then pure () else throw (.security "path escape detected")

/-- `_mkdir_safe`, below a path. -/
def mkdirSafe (current : Path) : List String → Session Path
  | [] => pure current
  | part :: parts => do
    let current := current ++ [part]
    if ← isSymlink current then throw (.security "symlink component is not allowed")
    else
      if ← pathExists current then
        if ← isDir current then pure () else throw (.security "path component is not a directory")
      else perform (.mkdir current)
      assertResolvesInsideRoot current
      mkdirSafe current parts

/-- `_assert_ancestors_safe` with `allow_missing`, below a path. -/
def assertAncestorsSafe (current : Path) : List String → Session Unit
  | [] => pure ()
  | part :: parts => do
    let current := current ++ [part]
    if ← isSymlink current then throw (.security "symlink component is not allowed")
    else if ← pathExists current then
      assertResolvesInsideRoot current
      assertAncestorsSafe current parts
    else pure ()

/-- The body, and then what is done however it ends. -/
def finally_ {α : Type} (body : Session α) (cleanup : Session Unit) : Session α := do
  let result ← body.attempt
  cleanup
  ofExcept result

def writeFileFsync (path : Path) (data : Bytes) : Session Unit := do
  perform (.openNew path)
  finally_ (do
    perform (.write path data)
    perform (.flush path)
    perform (.fsync path)) (perform (.close path))

def fsyncDirectory (path : Path) : Session Unit := do
  match ← (perform (.openDir path)).attempt with
  | .error e => if e.isOSError then pure () else throw e
  | .ok _ => finally_ (perform (.fsyncDir path)) (perform (.closeDir path))

/-! ## Requests -/

structure PutObjectRequest where
  projectId : String
  objectKey : String
  data : Bytes
  mimeType : String

structure StoredObject where
  projectId : String
  objectKey : String
  sizeBytes : Nat
  sha256 : String
  mimeType : String
deriving DecidableEq

structure ObjectPayload where
  objectKey : String
  data : Bytes
  mimeType : String
  sha256 : String
deriving DecidableEq

structure Metadata where
  projectId : String
  logicalObjectKey : String
  storageKey : String
  sizeBytes : Nat
  sha256 : String
  mimeType : String

/-- What the metadata is as a JSON object. -/
def Metadata.object (metadata : Metadata) : Dict JsonValue :=
  Dict.ofList [
    ("project_id", .str metadata.projectId),
    ("logical_object_key", .str metadata.logicalObjectKey),
    ("storage_key", .str metadata.storageKey),
    ("size_bytes", .int metadata.sizeBytes),
    ("sha256", .str metadata.sha256),
    ("mime_type", .str metadata.mimeType)]

/-- `json.dumps` of the metadata, with `ensure_ascii=False`, `sort_keys=True` and no blanks. -/
def Metadata.text (metadata : Metadata) : List Char :=
  '\x7b' :: Json.encodeMember ("logical_object_key", some metadata.logicalObjectKey)
    ++ ',' :: Json.encodeMember ("mime_type", some metadata.mimeType)
    ++ ',' :: Json.encodeMember ("project_id", some metadata.projectId)
    ++ ',' :: Json.encodeMember ("sha256", some metadata.sha256)
    ++ ',' :: Json.encodeString "size_bytes" ++ ':' :: Nat.toDigits 10 metadata.sizeBytes
    ++ ',' :: Json.encodeMember ("storage_key", some metadata.storageKey) ++ ['\x7d']

/-- `text.encode("utf-8")`. -/
def encodeUtf8 (text : String) : Bytes := text.toByteArray.data.toList

def Metadata.bytes (metadata : Metadata) : Bytes := encodeUtf8 (String.ofList metadata.text)

inductive LoadError where
  | jsonDecodeError | unicodeDecodeError | notAnObject

structure Python where
  sha256 : Bytes → String
  /-- `json.loads` of a file's text. -/
  loads : Bytes → Except LoadError (Dict JsonValue)
  loads_bytes : ∀ metadata : Metadata, loads metadata.bytes = .ok metadata.object

/-- A drive, as a Windows path would have it. -/
def hasDrive (key : String) : Bool := (key.toList.drop 1).head? == some ':'

def validateLogicalKey (key : String) : Except ObjectStoreError String :=
  if key.isEmpty || key.toList.contains '\x00' then
    .error (.security "object_key must be a non-empty relative key")
  else if key.toList.contains '\\' then .error (.security "backslash paths are not allowed")
  else if isAbsolute key || hasDrive key || (parts key).contains ['.', '.'] then
    .error (.security "object_key must stay inside its logical namespace")
  else .ok (if (parts key).isEmpty then "." else String.ofList (['/'].intercalate (parts key)))

def validateMimeType (mimeType : String) : Except ObjectStoreError String :=
  let normalized := strip mimeType
  if normalized.isEmpty || normalized.toList.contains '\x00' || normalized.toList.contains '\n' ||
    normalized.toList.contains '\r' then
    .error (.valueError "mime_type must be a non-empty single-line value")
  else .ok normalized

/-! ## The adapter -/

def objectsDir (projectId : String) : Path := ["projects", projectId, "objects"]

def objectDir (projectId : String) (objectId : UUID) : Path :=
  objectsDir projectId ++ [objectId.str]

def stagingDir (objectId : UUID) : Path := [".tmp", objectId.str ++ ".partial"]

def payloadFile (dir : Path) : Path := dir ++ ["payload.bin"]

def metadataFile (dir : Path) : Path := dir ++ ["metadata.json"]

variable (py : Python)

def fill (metadata : Metadata) (data : Bytes) (staging : Path) : Session Unit := do
  writeFileFsync (payloadFile staging) data
  writeFileFsync (metadataFile staging) metadata.bytes
  fsyncDirectory staging

/-- What is done while the staging directory is this call's: it is filled and renamed. -/
def stage (metadata : Metadata) (data : Bytes) (staging final : Path) : Session Unit := do
  fill metadata data staging
  perform (.replace staging final)

/-- The clean-up of the staging directory. -/
def removeStaging (staging : Path) : Session Unit := do
  if ← pathExists staging then
    if ← isSymlink staging then pure () else perform (.rmtree staging true)
  else pure ()

def putSync (objectId : UUID) (request : PutObjectRequest) : Session StoredObject := do
  let projectId ← ofExcept (validateProjectId request.projectId)
  let logicalKey ← ofExcept (validateLogicalKey request.objectKey)
  let mimeType ← ofExcept (validateMimeType request.mimeType)
  let finalParent ← mkdirSafe [] (objectsDir projectId)
  let final := finalParent ++ [objectId.str]
  rejectSymlink final
  if ← pathExists final then throw (.conflict "object UUID path already exists")
  else
    let tmpRoot ← mkdirSafe [] [".tmp"]
    let staging := tmpRoot ++ [objectId.str ++ ".partial"]
    rejectSymlink staging
    if ← pathExists staging then throw (.conflict "duplicate partial write exists for object UUID")
    else
      let digest := py.sha256 request.data
      let key := storageKey projectId objectId
      let metadata : Metadata := ⟨projectId, logicalKey, key, request.data.length, digest, mimeType⟩
      -- before this the staging directory is not this call's, and after the rename it is no more
      perform (.mkdir staging)
      Prog.tryCatch (stage metadata request.data staging final) fun e => do
        removeStaging staging
        throw e
      fsyncDirectory finalParent
      pure ⟨projectId, key, request.data.length, digest, mimeType⟩

def resolveExistingObjectDir (key : String) : Session Path := do
  let (projectId, objectId) ← ofExcept (parseStorageKey key)
  assertAncestorsSafe [] (objectDir projectId objectId)
  let dir := objectDir projectId objectId
  rejectSymlink dir
  if ← pathExists dir then
    if ← isDir dir then
      assertResolvesInsideRoot dir
      pure dir
    else throw (.security "object path is not a directory")
  else throw .fileNotFound

/-- `int(value)`. -/
def intOf : JsonValue → Option Int
  | .null => none
  | .bool b => some (if b then 1 else 0)
  | .int i => some i
  | .str text => intOfText text

/-- The digest, the size, the MIME type and the key that the metadata names. -/
def readMetadata (object : Dict JsonValue) : Option (String × Int × String × String) := do
  let digest ← object.lookup "sha256"
  let size ← (object.lookup "size_bytes").bind intOf
  let mimeType ← object.lookup "mime_type"
  let key ← object.lookup "storage_key"
  pure (digest.toStr, size, mimeType.toStr, key.toStr)

def loadMetadata (text : Bytes) : Except ObjectStoreError (Dict JsonValue) :=
  match py.loads text with
  | .error .unicodeDecodeError => .error .unicodeDecodeError
  | .error _ => .error (.corruption "invalid object metadata")
  | .ok object => .ok object

/-- What `_get_sync` makes of the metadata and the payload. -/
def readBundle (key : String) (object : Dict JsonValue) (data : Bytes) :
    Except ObjectStoreError ObjectPayload :=
  match readMetadata object with
  | none => .error (.corruption "incomplete object metadata")
  | some (digest, size, mimeType, metadataKey) =>
    if metadataKey ≠ key then .error (.corruption "storage key mismatch")
    else if py.sha256 data ≠ digest ∨ (data.length : Int) ≠ size then
      .error (.corruption "payload checksum mismatch")
    else .ok ⟨key, data, mimeType, py.sha256 data⟩

def getSync (key : String) : Session ObjectPayload := do
  let dir ← resolveExistingObjectDir key
  rejectSymlink (payloadFile dir)
  rejectSymlink (metadataFile dir)
  let complete ← do
    if ← isFile (payloadFile dir) then isFile (metadataFile dir) else pure false
  if complete then
    match ← (perform (.readBytes (metadataFile dir))).attempt with
    | .error _ => throw (.corruption "invalid object metadata")
    | .ok text => do
      let object ← ofExcept (loadMetadata py text)
      let data ← perform (.readBytes (payloadFile dir))
      ofExcept (readBundle py key object data)
  else throw (.corruption "object bundle is incomplete")

def existsSync (key : String) : Session Bool := do
  let (projectId, objectId) ← ofExcept (parseStorageKey key)
  assertAncestorsSafe [] (objectDir projectId objectId)
  rejectSymlink (objectDir projectId objectId)
  isDir (objectDir projectId objectId)

def deleteSync (key : String) : Session Unit := do
  match ← (resolveExistingObjectDir key).attempt with
  | .error .fileNotFound => pure ()
  | .error e => throw e
  | .ok dir => do
    rejectSymlink dir
    perform (.rmtree dir false)
    fsyncDirectory dir.dropLast

end ProjectAgent.ObjectStore
