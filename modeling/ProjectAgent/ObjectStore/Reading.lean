/-
What is read where a bundle stands as `put` leaves it: a payload, and metadata
that name its digest, its size and the key of the object. Every spelling of the
key finds the bundle, and only the key itself reads it: for another spelling the
bundle is reported as damaged.
-/
import ProjectAgent.Lib.Evaluated
import ProjectAgent.ObjectStore.Adapter

namespace ProjectAgent.ObjectStore

open Evidence (JsonValue)
open Interleave Interleave.Prog FileTree

variable {py : Python} {files : Files} {path : Path} {key key' projectId : String} {objectId : UUID}
  {data : Bytes} {mimeType : String}

/-! ## Looking at a path -/

/-- The path of a directory, or of something in one, without a link along it. -/
theorem eval_resolves (h : files.entry path = some .dir) :
    eval quiet (assertResolvesInsideRoot path) files = (.ok (), files) := by
  have hinside : eval quiet (perform (.resolvesInside path)) files = (.ok true, files) := by
    refine (eval_exec _).trans ?_
    unfold quiet
    dsimp only
    have hno : (path.inits.any fun above => files.entry above = some .link) = false := by
      rw [List.any_eq_false]
      intro above habove
      obtain ⟨rest, rfl⟩ := List.mem_inits above path |>.mp habove
      by_cases hnil : rest = []
      · rw [hnil, List.append_nil] at h
        rw [h]
        exact of_decide_eq_true rfl
      · rw [files.above (Option.ne_none_iff_exists'.mpr ⟨_, h⟩) hnil]
        exact of_decide_eq_true rfl
    rw [hno]
    rfl
  exact eval_bind_ok hinside

/-- What is below a directory is looked at itself. -/
theorem eval_lstat {name : String} (h : files.entry path = some .dir) :
    eval quiet (perform (.lstat (path ++ [name]))) files =
      (.ok (files.entry (path ++ [name])), files) := by
  refine (eval_exec _).trans ?_
  unfold quiet
  dsimp only
  have hno : (path ++ [name]).dropLast.inits.any (isFileAt files) = false := by
    rw [List.dropLast_concat, List.any_eq_false]
    intro above habove
    obtain ⟨rest, rfl⟩ := List.mem_inits above path |>.mp habove
    have hdir : files.entry above = some .dir := by
      by_cases hnil : rest = []
      · rwa [hnil, List.append_nil] at h
      · exact files.above (Option.ne_none_iff_exists'.mpr ⟨_, h⟩) hnil
    unfold isFileAt
    rw [hdir]
    exact Bool.false_ne_true
  rw [hno]
  rfl

theorem eval_rejectSymlink {name : String} (h : files.entry path = some .dir)
    (hlink : files.entry (path ++ [name]) ≠ some .link) :
    eval quiet (rejectSymlink (path ++ [name])) files = (.ok (), files) := by
  refine (eval_bind_ok (eval_lstat h)).trans ?_
  rw [if_neg hlink]
  rfl

theorem eval_ancestors (current : Path) (names : List String)
    (h : files.entry (current ++ names) = some .dir) :
    eval quiet (assertAncestorsSafe current names) files = (.ok (), files) := by
  induction names generalizing current with
  | nil => rfl
  | cons name names ih =>
    rw [List.append_cons] at h
    have hdir : files.entry (current ++ [name]) = some .dir := by
      by_cases hnil : names = []
      · rwa [hnil, List.append_nil] at h
      · exact files.above (Option.ne_none_iff_exists'.mpr ⟨_, h⟩) hnil
    have hsymlink : eval quiet (isSymlink (current ++ [name])) files = (.ok false, files) := by
      show (Except.ok (files.entry (current ++ [name]) == some .link), files) = _
      rw [hdir]
      rfl
    have hexists : eval quiet (pathExists (current ++ [name])) files = (.ok true, files) := by
      show (Except.ok (files.entry (current ++ [name])).isSome, files) = _
      rw [hdir]
      rfl
    unfold assertAncestorsSafe
    refine (eval_bind_ok hsymlink).trans
      ((eval_bind_ok hexists).trans ((eval_bind_ok (eval_resolves hdir)).trans ?_))
    exact ih (current ++ [name]) h

/-! ## Reading an object -/

/-- What `put` leaves where the object is: its payload, and metadata that name its digest, its size
and its key. -/
structure Intact (py : Python) (files : Files) (projectId : String) (objectId : UUID) (data : Bytes)
    (mimeType : String) : Prop where
  payload : files.entry (payloadFile (objectDir projectId objectId)) = some (.file data)
  metadata : ∃ text object, files.entry (metadataFile (objectDir projectId objectId)) =
    some (.file text) ∧
    py.loads text = .ok object ∧ readMetadata object =
      some (py.sha256 data, (data.length : Int), mimeType, storageKey projectId objectId)

theorem Intact.dir (h : Intact py files projectId objectId data mimeType) :
    files.entry (objectDir projectId objectId) = some .dir := by
  have hpayload : files.entry (objectDir projectId objectId ++ ["payload.bin"]) ≠ none :=
    Option.ne_none_iff_exists'.mpr ⟨_, h.payload⟩
  exact files.above hpayload (List.cons_ne_nil _ _)

theorem Intact.parent (h : Intact py files projectId objectId data mimeType) :
    files.entry (objectsDir projectId) = some .dir := by
  have hdir : files.entry (objectsDir projectId ++ [objectId.str]) ≠ none :=
    Option.ne_none_iff_exists'.mpr ⟨_, h.dir⟩
  exact files.above hdir (List.cons_ne_nil _ _)

theorem eval_exists (hkey : parseStorageKey key = .ok (projectId, objectId))
    (h : Intact py files projectId objectId data mimeType) :
    eval quiet (existsSync key) files = (.ok true, files) := by
  have hparse : eval quiet (ofExcept (parseStorageKey key)) files =
      (.ok (projectId, objectId), files) := by
    rw [hkey]
    rfl
  have hreject : eval quiet (rejectSymlink (objectDir projectId objectId)) files =
      (.ok (), files) :=
    eval_rejectSymlink h.parent (fun hlink => by cases h.dir.symm.trans hlink)
  unfold existsSync
  refine (eval_bind_ok hparse).trans
    ((eval_bind_ok (eval_ancestors [] _ h.dir)).trans ((eval_bind_ok hreject).trans ?_))
  show (Except.ok (files.entry (objectDir projectId objectId) == some .dir), files) = _
  rw [h.dir]
  rfl

theorem eval_resolve (hkey : parseStorageKey key = .ok (projectId, objectId))
    (h : Intact py files projectId objectId data mimeType) :
    eval quiet (resolveExistingObjectDir key) files =
      (.ok (objectDir projectId objectId), files) := by
  have hparse : eval quiet (ofExcept (parseStorageKey key)) files =
      (.ok (projectId, objectId), files) := by
    rw [hkey]
    rfl
  have hreject : eval quiet (rejectSymlink (objectDir projectId objectId)) files =
      (.ok (), files) :=
    eval_rejectSymlink h.parent (fun hlink => by cases h.dir.symm.trans hlink)
  have hexists : eval quiet (pathExists (objectDir projectId objectId)) files =
      (.ok true, files) := by
    show (Except.ok (files.entry (objectDir projectId objectId)).isSome, files) = _
    rw [h.dir]
    rfl
  have hdir : eval quiet (isDir (objectDir projectId objectId)) files = (.ok true, files) := by
    show (Except.ok (files.entry (objectDir projectId objectId) == some .dir), files) = _
    rw [h.dir]
    rfl
  unfold resolveExistingObjectDir
  refine (eval_bind_ok hparse).trans
    ((eval_bind_ok (eval_ancestors [] _ h.dir)).trans ((eval_bind_ok hreject).trans ?_))
  exact (eval_bind_ok hexists).trans
    ((eval_bind_ok hdir).trans (eval_bind_ok (eval_resolves h.dir)))

/-- **An undamaged bundle is read by the key that its metadata names**. -/
theorem eval_get (hkey : parseStorageKey key = .ok (projectId, objectId))
    (h : Intact py files projectId objectId data mimeType) :
    eval quiet (getSync py key) files =
      (if storageKey projectId objectId ≠ key then .error (.corruption "storage key mismatch")
        else .ok ⟨key, data, mimeType, py.sha256 data⟩, files) := by
  obtain ⟨text, object, htext, hload, hread⟩ := h.metadata
  have hpayload : eval quiet (rejectSymlink (payloadFile (objectDir projectId objectId))) files =
      (.ok (), files) :=
    eval_rejectSymlink h.dir (fun hlink => by cases h.payload.symm.trans hlink)
  have hmetadata : eval quiet (rejectSymlink (metadataFile (objectDir projectId objectId))) files =
      (.ok (), files) :=
    eval_rejectSymlink h.dir (htext.symm ▸ nofun)
  have hfile {path : Path} {content : Bytes} (hcontent : files.entry path = some (.file content)) :
      eval quiet (isFile path) files = (.ok true, files) := by
    refine (eval_bind_ok (eval_exec (FsOp.stat path))).trans ?_
    rw [hcontent]
    rfl
  have hreadText : eval quiet
    (perform (.readBytes (metadataFile (objectDir projectId objectId)))).attempt files =
      (.ok (.ok text), files) := by
    show eval quiet _ files = _
    unfold perform exec attempt eval
    unfold quiet
    dsimp only
    rw [htext]
    rfl
  have hreadData : eval quiet (perform (.readBytes (payloadFile (objectDir projectId objectId))))
      files = (.ok data, files) := by
    refine (eval_exec _).trans ?_
    unfold quiet
    dsimp only
    rw [h.payload]
  unfold getSync
  refine (eval_bind_ok (eval_resolve hkey h)).trans
    ((eval_bind_ok hpayload).trans ((eval_bind_ok hmetadata).trans ?_))
  refine (eval_bind_ok (hfile h.payload)).trans ?_
  dsimp only
  rw [if_pos rfl]
  refine (eval_bind_ok (hfile htext)).trans ?_
  rw [if_pos rfl]
  have hobject : eval quiet (ofExcept (loadMetadata py text)) files = (.ok object, files) := by
    unfold loadMetadata
    rw [hload]
    rfl
  refine (eval_bind_ok hreadText).trans
    ((eval_bind_ok hobject).trans ((eval_bind_ok hreadData).trans ?_))
  unfold readBundle
  rw [hread]
  dsimp only
  split
  · rfl
  · rw [if_neg (by simp)]
    rfl

/-! ## The metadata that `put` writes -/

theorem readMetadata_object (metadata : Metadata) :
    readMetadata metadata.object = some (metadata.sha256, (metadata.sizeBytes : Int),
      metadata.mimeType, metadata.storageKey) := by
  have hdigest : metadata.object.lookup "sha256" = some (.str metadata.sha256) :=
    (Dict.lookup_ofList _ _).trans rfl
  have hsize : metadata.object.lookup "size_bytes" = some (.int metadata.sizeBytes) :=
    (Dict.lookup_ofList _ _).trans rfl
  have hmime : metadata.object.lookup "mime_type" = some (.str metadata.mimeType) :=
    (Dict.lookup_ofList _ _).trans rfl
  have hkey : metadata.object.lookup "storage_key" = some (.str metadata.storageKey) :=
    (Dict.lookup_ofList _ _).trans rfl
  unfold readMetadata
  rw [hdigest, hsize, hmime, hkey]
  rfl

theorem Intact.of_put {metadata : Metadata}
    (hpayload : files.entry (payloadFile (objectDir projectId objectId)) = some (.file data))
    (hmetadata : files.entry (metadataFile (objectDir projectId objectId)) =
      some (.file metadata.bytes))
    (hkey : metadata.storageKey = storageKey projectId objectId)
    (hdigest : metadata.sha256 = py.sha256 data) (hsize : metadata.sizeBytes = data.length) :
    Intact py files projectId objectId data metadata.mimeType where
  payload := hpayload
  metadata := by
    refine ⟨_, _, hmetadata, py.loads_bytes metadata, ?_⟩
    rw [readMetadata_object, hkey, hdigest, hsize]

/-- A text is of one object's metadata. -/
theorem Metadata.bytes_inj {metadata metadata' : Metadata} (h : metadata.bytes = metadata'.bytes) :
    metadata = metadata' := by
  have htext : metadata.text = metadata'.text := by
    unfold Metadata.bytes encodeUtf8 at h
    exact String.ofList_inj.mp (String.toByteArray_inj.mp (ByteArray.ext (Array.toList_inj.mp h)))
  have hdigits {n m : Nat} {r s : List Char}
    (heq : Nat.toDigits 10 n ++ ',' :: r = Nat.toDigits 10 m ++ ',' :: s) :
      n = m ∧ r = s := by
    have hcomma (n : Nat) : ∀ c ∈ Nat.toDigits 10 n, c ≠ ',' := by
      rintro c hc rfl
      exact absurd (Nat.isDigit_of_mem_toDigits (by decide) (by decide) hc) (by decide)
    have htake (n : Nat) (r : List Char) : (Nat.toDigits 10 n ++ ',' :: r).takeWhile (· ≠ ',') =
        Nat.toDigits 10 n := by
      rw [List.takeWhile_append_of_pos fun c hc => decide_eq_true (hcomma n c hc),
        List.takeWhile_cons, if_neg (by decide),
        List.append_nil]
    have hsame : Nat.toDigits 10 n = Nat.toDigits 10 m := by rw [← htake n r, ← htake m s, heq]
    refine ⟨?_, ?_⟩
    · rw [← Nat.ofDigitChars_ten_toDigits (n := n), hsame, Nat.ofDigitChars_ten_toDigits]
    · rw [hsame] at heq
      exact (List.cons.inj (List.append_cancel_left heq)).2
  unfold Metadata.text at htext
  simp only [List.cons_append, List.append_assoc, List.cons.injEq, true_and] at htext
  obtain ⟨hlogical, htext⟩ := Json.encodeMember_prefixCode htext
  obtain ⟨hmime, htext⟩ := Json.encodeMember_prefixCode (List.cons.inj htext).2
  obtain ⟨hproject, htext⟩ := Json.encodeMember_prefixCode (List.cons.inj htext).2
  obtain ⟨hdigest, htext⟩ := Json.encodeMember_prefixCode (List.cons.inj htext).2
  obtain ⟨-, htext⟩ := Json.encodeString_prefixCode (List.cons.inj htext).2
  obtain ⟨hsize, htext⟩ := hdigits (List.cons.inj htext).2
  obtain ⟨hkey, -⟩ := Json.encodeMember_prefixCode htext
  simp only [Prod.mk.injEq, true_and, Option.some.injEq] at hlogical hmime hproject hdigest hkey
  cases metadata
  cases metadata'
  dsimp only at hlogical hmime hproject hdigest hsize hkey
  rw [hlogical, hmime, hproject, hdigest, hsize, hkey]

/-! ## Keys as a code -/

/-- Where an object is found by the key, it is read by it unless its bundle is damaged. -/
def ReadsBack (py : Python) (key : String) : Prop :=
  ∀ files, eval quiet (existsSync key) files = (.ok true, files) →
    ∀ projectId objectId, parseStorageKey key = .ok (projectId, objectId) →
      ∀ data mimeType, Intact py files projectId objectId data mimeType →
        eval quiet (getSync py key) files = (.ok ⟨key, data, mimeType, py.sha256 data⟩, files)

/-- Keys are a code for objects: each is read as the object it is the key of, no two as one, and by
each its object is read. -/
structure Coded (py : Python) (key key' : String) : Prop where
  exact : Exact key ∧ Exact key'
  distinct : ∀ object, parseStorageKey key = .ok object →
    parseStorageKey key' = .ok object → key = key'
  readsBack : ReadsBack py key ∧ ReadsBack py key'

theorem Respelled.ne (h : Respelled key) (hmatches : matchesProjectId projectId = true) :
    storageKey projectId objectId ≠ key := by
  rintro rfl
  exact storageKey_not_respelled hmatches h

/-- The bundle that the metadata are of. -/
def bundleAt (metadata : Metadata) (objectId : UUID) (data : Bytes) : Files :=
  Files.holding (objectDir metadata.projectId objectId) fun name =>
    if name = "payload.bin" then some data else if name = "metadata.json" then
      some metadata.bytes else none

theorem intact_bundleAt (metadata : Metadata) (hproject : metadata.projectId = projectId)
    (hkey : metadata.storageKey = storageKey projectId objectId)
    (hdigest : metadata.sha256 = py.sha256 data) (hsize : metadata.sizeBytes = data.length) :
    Intact py (bundleAt metadata objectId data) projectId objectId data metadata.mimeType := by
  refine .of_put ?_ ?_ hkey hdigest hsize
  · rw [← hproject]
    exact Files.holding_file
  · rw [← hproject]
    exact Files.holding_file

/-- **By a key its object is read exactly if it is not another spelling**: of an undamaged bundle
the other spellings say it is. -/
theorem readsBack_iff : ReadsBack py key ↔ ¬ Respelled key := by
  constructor
  · rintro hreads hrespelled
    obtain ⟨projectId, objectId, text, hspells, hother⟩ := hrespelled
    have hkey := parseStorageKey_eq_ok.mpr ⟨text, hspells⟩
    have hbundle : Intact py (bundleAt ⟨projectId, "a", storageKey projectId objectId, 0,
      py.sha256 [], "text/plain"⟩ objectId [])
        projectId objectId [] "text/plain" := intact_bundleAt _ rfl rfl rfl rfl
    have hget := hreads _ (eval_exists hkey hbundle) _ _ hkey _ _ hbundle
    rw [eval_get hkey hbundle,
      if_pos (Respelled.ne ⟨projectId, objectId, text, hspells, hother⟩ hspells.project)] at hget
    cases hget
  · intro hnot files _ projectId objectId hkey data mimeType hbundle
    obtain ⟨-, rfl⟩ := ((exact_iff key).mpr hnot projectId objectId).mp hkey
    rw [eval_get hkey hbundle, if_neg (not_not.mpr rfl)]

/-- **Two keys are of a code exactly if neither is another spelling of a key**. -/
theorem coded_iff (py : Python) (key key' : String) :
    Coded py key key' ↔ ¬ Respelled key ∧ ¬ Respelled key' := by
  constructor
  · exact fun h => ⟨(exact_iff key).mp h.exact.1, (exact_iff key').mp h.exact.2⟩
  · rintro ⟨hkey, hkey'⟩
    refine ⟨⟨(exact_iff key).mpr hkey, (exact_iff key').mpr hkey'⟩, ?_, readsBack_iff.mpr hkey,
      readsBack_iff.mpr hkey'⟩
    rintro ⟨projectId, objectId⟩ h h'
    obtain ⟨-, rfl⟩ := ((exact_iff key).mpr hkey projectId objectId).mp h
    exact (((exact_iff key').mpr hkey' projectId objectId).mp h').2.symm

open Classical in
/-- Texts are read that some metadata are written as; the digest is that of no data. -/
noncomputable def samplePython : Python where
  sha256 _ := "e3b0c44298fc1c149afbf4c8996fb92427ae41e4649b934ca495991b7852b855"
  loads bytes := if h : ∃ metadata : Metadata, metadata.bytes = bytes then .ok h.choose.object
    else .error .jsonDecodeError
  loads_bytes metadata := by
    have h : ∃ metadata' : Metadata, metadata'.bytes = metadata.bytes := ⟨metadata, rfl⟩
    rw [dif_pos h, Metadata.bytes_inj h.choose_spec]

/-- Three keys of one object, two of which are other spellings. -/
theorem spellings_not_coded :
    ¬ Coded samplePython "projects//p/objects/00000000-0000-0000-0000-00000000000a"
        "projects/p/objects/00000000-0000-0000-0000-00000000000A" ∧
      ∀ key ∈ ["projects//p/objects/00000000-0000-0000-0000-00000000000a",
        "projects/p/objects/00000000-0000-0000-0000-00000000000A"],
        parseStorageKey key =
          parseStorageKey "projects/p/objects/00000000-0000-0000-0000-00000000000a" ∧
          ¬ Exact key ∧ ¬ ReadsBack samplePython key := by
  have hslashes : Spells "projects//p/objects/00000000-0000-0000-0000-00000000000a" "p" ⟨10⟩
      "00000000-0000-0000-0000-00000000000a".toList :=
    ⟨by decide +kernel, by decide +kernel, by decide +kernel, by decide +kernel, by decide +kernel⟩
  have hcapital : Spells "projects/p/objects/00000000-0000-0000-0000-00000000000A" "p" ⟨10⟩
      "00000000-0000-0000-0000-00000000000A".toList :=
    ⟨by decide +kernel, by decide +kernel, by decide +kernel, by decide +kernel, by decide +kernel⟩
  have hplain : Spells "projects/p/objects/00000000-0000-0000-0000-00000000000a" "p" ⟨10⟩
      "00000000-0000-0000-0000-00000000000a".toList :=
    ⟨by decide +kernel, by decide +kernel, by decide +kernel, by decide +kernel, by decide +kernel⟩
  have hrespelled : Respelled "projects//p/objects/00000000-0000-0000-0000-00000000000a" :=
    ⟨"p", ⟨10⟩, _, hslashes, .inl (by decide +kernel)⟩
  have hrespelled' : Respelled "projects/p/objects/00000000-0000-0000-0000-00000000000A" :=
    ⟨"p", ⟨10⟩, _, hcapital, .inr (.inr ⟨'A', by decide +kernel, by decide +kernel⟩)⟩
  have hread := parseStorageKey_eq_ok.mpr ⟨_, hplain⟩
  refine ⟨fun h => (exact_iff _).mp h.exact.1 hrespelled, ?_⟩
  refine List.forall_mem_cons.mpr ⟨⟨?_, ?_, ?_⟩,
    List.forall_mem_cons.mpr ⟨⟨?_, ?_, ?_⟩, fun _ hmem => nomatch hmem⟩⟩
  · exact (parseStorageKey_eq_ok.mpr ⟨_, hslashes⟩).trans hread.symm
  · exact fun h => (exact_iff _).mp h hrespelled
  · exact fun h => readsBack_iff.mp h hrespelled
  · exact (parseStorageKey_eq_ok.mpr ⟨_, hcapital⟩).trans hread.symm
  · exact fun h => (exact_iff _).mp h hrespelled'
  · exact fun h => readsBack_iff.mp h hrespelled'

end ProjectAgent.ObjectStore
