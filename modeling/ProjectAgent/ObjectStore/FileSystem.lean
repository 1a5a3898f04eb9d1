/-
The file system below the root of the object store: the calls the adapter makes,
what they do when nothing fails, and what they can leave behind when they do.
Nothing here goes through a symbolic link: a path is looked at before it is used,
and one along a link does not resolve inside the root.
-/
import Mathlib.Data.List.Infix
import ProjectAgent.Lib.FileTree
import ProjectAgent.ObjectStore.Keys

namespace ProjectAgent.ObjectStore

open FileTree

/-- `except OSError`. -/
def ObjectStoreError.isOSError : ObjectStoreError → Bool
  | .osError | .notADirectory | .fileNotFound => true
  | _ => false

inductive FsOp where
  /-- What `is_symlink`, `exists`, `is_dir` and `is_file` look at. -/
  | stat (path : Path)
  | lstat (path : Path)
  /-- `resolve` and `relative_to` the root. -/
  | resolvesInside (path : Path)
  | mkdir (path : Path)
  /-- `open` with `"xb"`. -/
  | openNew (path : Path)
  | write (path : Path) (data : Bytes)
  | flush (path : Path)
  | fsync (path : Path)
  | close (path : Path)
  | openDir (path : Path)
  | fsyncDir (path : Path)
  | closeDir (path : Path)
  | replace (source target : Path)
  | rmtree (path : Path) (ignoreErrors : Bool)
  | readBytes (path : Path)
deriving DecidableEq

@[reducible] def FsOp.Res : FsOp → Type
  | .stat _ | .lstat _ => Option Entry
  | .resolvesInside _ => Bool
  | .readBytes _ => Bytes
  | _ => Unit

/-! ## When nothing fails -/

def isFileAt (files : Files) (path : Path) : Bool :=
  match files.entry path with
  | some (.file _) => true
  | _ => false

/-- What stands at a path can be created there. -/
def Vacant (files : Files) (path : Path) : Prop :=
  files.entry path = none ∧ files.entry path.dropLast = some .dir

instance (files : Files) (path : Path) : Decidable (Vacant files path) := instDecidableAnd

def quiet : (op : FsOp) → Files → Except ObjectStoreError op.Res × Files
  | .stat path, files => (.ok (files.entry path), files)
  | .lstat path, files =>
    (if path.dropLast.inits.any (isFileAt files) then .error .notADirectory
      else .ok (files.entry path), files)
  | .resolvesInside path, files =>
    (.ok !(path.inits.any fun above => files.entry above = some .link), files)
  | .mkdir path, files =>
    if Vacant files path then (.ok (), files.create path .dir) else (.error .osError, files)
  | .openNew path, files =>
    if Vacant files path then (.ok (), files.create path (.file [])) else (.error .osError, files)
  | .write path data, files =>
    match files.entry path with
    | some (.file old) => (.ok (), files.overwrite path (old ++ data))
    | _ => (.error .osError, files)
  | .flush _, files | .fsync _, files | .close _, files | .fsyncDir _, files | .closeDir _, files =>
    (.ok (), files)
  | .openDir path, files =>
    (if files.entry path = some .dir then .ok () else .error .osError, files)
  | .replace source target, files =>
    -- of a directory, and to where nothing is
    if files.entry source = some .dir ∧ source ≠ [] ∧ ¬ source <+: target ∧ Vacant files target then
      (.ok (), files.move source target)
    else (.error .osError, files)
  | .rmtree path ignoreErrors, files =>
    if files.entry path = some .dir then (.ok (), files.remove path)
    else (if ignoreErrors then .ok () else .error .osError, files)
  | .readBytes path, files =>
    match files.entry path with
    | some (.file data) => (.ok data, files)
    | _ => (.error .osError, files)

/-! ## When a call fails -/

/-- What a call that fails may have changed: a file may hold part of what was written, and only some
of a directory be removed. -/
def Spoils : FsOp → Path → Prop
  | .write path _, other | .flush path, other => other = path
  | .rmtree path _, other => path <+: other ∧ other ≠ path
  | _, _ => False

/-- A call that fails raises, unless its errors are ignored. -/
def failed : (op : FsOp) → Except ObjectStoreError op.Res → Prop
  | .rmtree _ true, result => result = .ok ()
  | _, result => ∃ e, result = .error e ∧ e.isOSError = true

/-- The files, and the calls that failed. -/
structure World where
  files : Files
  failures : List FsOp

def performs (op : FsOp) (world : World) (result : Except ObjectStoreError op.Res)
    (world' : World) : Prop :=
  (quiet op world.files = (result, world'.files) ∧ world'.failures = world.failures) ∨
    (failed op result ∧ (∀ path, world'.files.entry path = world.files.entry path ∨
      Spoils op path) ∧
      world'.failures = world.failures ++ [op])

end ProjectAgent.ObjectStore
