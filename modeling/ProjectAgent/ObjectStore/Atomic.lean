/-
What a `put` leaves, whichever of its calls fail. What was stored is as it was.
An object that is put is read as it was put. If `put` raises, under the key
nothing is seen, or, if it was the directory that could not be brought to the
disk after the rename, the whole object; and its staging directory is gone unless
the clean-up failed too.
-/
import ProjectAgent.ObjectStore.Reading
import ProjectAgent.ObjectStore.Staging

namespace ProjectAgent.ObjectStore

open Interleave Interleave.Prog FileTree

/-- After the rename the directory of the objects could not be brought to the disk. -/
def SyncFailed (projectId : String) (failures : List FsOp) : Prop :=
  ∃ op ∈ failures, Syncs (objectsDir projectId) op

/-- After something else the clean-up failed as well. -/
def CleanupFailed (objectId : UUID) (failures : List FsOp) : Prop :=
  ∃ op ∈ failures.tail, CleansUp (stagingDir objectId) op

/-- By the key of the object it is read as it was put. -/
def ReadAsPut (py : Python) (objectId : UUID) (request : PutObjectRequest) (files : Files) : Prop :=
  eval quiet (getSync py (storageKey request.projectId objectId)) files =
    (.ok ⟨storageKey request.projectId objectId, request.data, strip request.mimeType,
      py.sha256 request.data⟩, files)

structure Put (py : Python) (objectId : UUID) (request : PutObjectRequest) (before : Files)
    (result : Except ObjectStoreError StoredObject) (after : World) : Prop where
  kept : ∀ path, before.entry path ≠ none → after.files.entry path = before.entry path
  returned : ∀ stored, result = .ok stored → ReadAsPut py objectId request after.files ∧
    stored = ⟨request.projectId, storageKey request.projectId objectId, request.data.length,
      py.sha256 request.data, strip request.mimeType⟩
  whole : ∀ e, result = .error e → before.entry (objectDir request.projectId objectId) = none →
    after.files.entry (objectDir request.projectId objectId) = none ∨
      (SyncFailed request.projectId after.failures ∧ ReadAsPut py objectId request after.files)
  cleaned : before.entry (stagingDir objectId) = none → ¬ CleanupFailed objectId after.failures →
    after.files.entry (stagingDir objectId) = none

variable {β : Type} {py : Python} {objectId : UUID} {request : PutObjectRequest} {before : Files}
  {world : World} {e : ObjectStoreError}

theorem Prepared.put
    (h : Prepared (objectDir request.projectId objectId) (stagingDir objectId) ⟨before, []⟩
      (.error e : Except ObjectStoreError β) world) :
    Put py objectId request before (.error e) world where
  kept := h.kept
  returned := nofun
  whole _ _ hnone := .inl (h.object.trans hnone)
  cleaned hnone _ := h.staging.trans hnone

/-- So far nothing was written, and nothing failed. -/
def Ready (objectId : UUID) (request : PutObjectRequest) (before : Files) (world : World) : Prop :=
  Prepared (objectDir request.projectId objectId) (stagingDir objectId) ⟨before, []⟩
    (.ok () : Except ObjectStoreError Unit) world

theorem Ready.then {holds : β → Files → Prop} {x : Session β} {f : β → Session StoredObject}
    (h : Ready objectId request before world)
    (hx : Prepares (objectDir request.projectId objectId) (stagingDir objectId) holds x world)
    (hf : ∀ b world', Ready objectId request before world' →
      Prepared (objectDir request.projectId objectId)
      (stagingDir objectId) world (.ok b : Except ObjectStoreError β) world' →
      holds b world'.files → Ends performs (Put py objectId request before) (f b) world') :
    Ends performs (Put py objectId request before) (x >>= f) world := by
  refine Ends.bind hx ?_ ?_
  · rintro b world' ⟨hprepared, hholds⟩
    exact hf b world' (h.trans hprepared).ended hprepared (hholds b rfl)
  · rintro e world' ⟨hprepared, -⟩
    exact (h.trans hprepared).put

theorem Ready.throw (h : Ready objectId request before world) :
    Ends performs (Put py objectId request before) (throw e) world :=
  Prepared.put (β := Unit) h.ended

theorem staging_apart {projectId : String} :
    ¬ stagingDir objectId <+: objectDir projectId objectId := by
  intro hpre
  exact absurd (List.cons_prefix_cons.mp hpre).1 (by decide)

/-- What stood somewhere does not stand in a directory that is not there yet. -/
theorem Ready.outside {path : Path} (h : Ready objectId request before world)
    (hstaging : world.files.entry (stagingDir objectId) = none) (hpath : before.entry path ≠ none) :
    ¬ stagingDir objectId <+: path :=
  fun hpre => hpath (Files.eq_none_of_prefix (h.staging.symm.trans hstaging) hpre)

variable {metadata : Metadata}

/-- The metadata that `put` writes. -/
structure Names (py : Python) (objectId : UUID) (request : PutObjectRequest)
    (metadata : Metadata) : Prop where
  storageKey : metadata.storageKey = storageKey request.projectId objectId
  sha256 : metadata.sha256 = py.sha256 request.data
  sizeBytes : metadata.sizeBytes = request.data.length
  mimeType : metadata.mimeType = strip request.mimeType

theorem readAsPut {files : Files} (hproject : matchesProjectId request.projectId = true)
    (hnames : Names py objectId request metadata)
    (hpayload : files.entry (payloadFile (objectDir request.projectId objectId)) =
      some (.file request.data))
    (hmetadata : files.entry (metadataFile (objectDir request.projectId objectId)) =
      some (.file metadata.bytes)) :
    ReadAsPut py objectId request files := by
  have hintact : Intact py files request.projectId objectId request.data metadata.mimeType :=
    .of_put hpayload hmetadata hnames.storageKey hnames.sha256 hnames.sizeBytes
  unfold ReadAsPut
  rw [eval_get (parseStorageKey_eq_ok.mpr ⟨_, spells_storageKey hproject⟩) hintact,
    if_neg (not_not.mpr rfl), hnames.mimeType]

/-- **Something of the staging failed**: the clean-up leaves nothing unless something of it fails
too. -/
theorem ends_cleanUp {staged : World} {failures : List FsOp}
    (hready : Ready objectId request before world)
    (hstaging : world.files.entry (stagingDir objectId) = none)
    (hobject : world.files.entry (objectDir request.projectId objectId) = none)
    (hdir : staged.files.entry (stagingDir objectId) = some .dir)
    (hframe : ∀ path, ¬ stagingDir objectId <+: path →
      staged.files.entry path = world.files.entry path)
    (hfailures : staged.failures = failures) (hfailed : failures ≠ []) :
    Ends performs (fun result after => ∃ e, result = .error e ∧
      Put py objectId request before (.error e) after)
      (do
        removeStaging (stagingDir objectId)
        throw e : Session Unit) staged := by
  have hput (e : ObjectStoreError) (after : World)
    (hafter : ∀ path, ¬ stagingDir objectId <+: path →
      after.files.entry path = staged.files.entry path)
        (hcleaned : ∃ cleaning, after.failures = staged.failures ++ cleaning ∧
      (∀ op ∈ cleaning, CleansUp (stagingDir objectId) op) ∧
        (cleaning = [] → after.files.entry (stagingDir objectId) = none)) :
      Put py objectId request before (.error e) after := by
    have hsame (path : Path) (hpath : ¬ stagingDir objectId <+: path) : after.files.entry path =
        world.files.entry path :=
      (hafter path hpath).trans (hframe path hpath)
    refine ⟨fun path hpath => ?_, nofun, fun _ _ _ => .inl ((hsame _ staging_apart).trans hobject),
      fun _ hcleanup => ?_⟩
    · exact (hsame path (hready.outside hstaging hpath)).trans (hready.kept path hpath)
    · obtain ⟨cleaning, heq, hcleans, hnone⟩ := hcleaned
      refine hnone (List.eq_nil_iff_forall_not_mem.mpr fun op hop =>
        hcleanup ⟨op, ?_, hcleans op hop⟩)
      rw [heq, hfailures, List.tail_append_of_ne_nil hfailed]
      exact List.mem_append_right _ hop
  refine Ends.bind (ends_removeStaging hdir (List.cons_ne_nil _ _)) ?_ ?_
  · rintro ⟨⟩ after ⟨hafter, hcleaned⟩
    exact ⟨e, rfl, hput e after hafter hcleaned⟩
  · rintro e' after ⟨hafter, hcleaned⟩
    exact ⟨e', rfl, hput e' after hafter hcleaned⟩

/-- Once the staging directory is made. -/
theorem ends_made {stored : StoredObject} {made : World}
    (hready : Ready objectId request before world)
    (hproject : matchesProjectId request.projectId = true)
    (hnames : Names py objectId request metadata)
    (hstored : stored = ⟨request.projectId, storageKey request.projectId objectId,
      request.data.length, py.sha256 request.data,
      strip request.mimeType⟩)
    (hparent : world.files.entry (objectsDir request.projectId) = some .dir)
    (hobject : world.files.entry (objectDir request.projectId objectId) = none)
    (hstaging : world.files.entry (stagingDir objectId) = none)
    (hframe : ∀ path, path ≠ stagingDir objectId → made.files.entry path = world.files.entry path)
    (hdir : made.files.entry (stagingDir objectId) = some .dir)
    (hempty : ∀ name, made.files.entry (stagingDir objectId ++ [name]) = none)
    (hfailures : made.failures = world.failures) :
    Ends performs (Put py objectId request before)
      (do
        Prog.tryCatch (stage metadata request.data (stagingDir objectId)
          (objectDir request.projectId objectId)) fun e => do
          removeStaging (stagingDir objectId)
          throw e
        fsyncDirectory (objectsDir request.projectId)
        pure stored) made := by
  have hnothing : world.failures = [] := hready.ok () rfl
  have hout (path : Path) (hpath : ¬ stagingDir objectId <+: path) : made.files.entry path =
      world.files.entry path :=
    hframe path fun heq => hpath (heq ▸ List.prefix_rfl)
  have hapart : ¬ stagingDir objectId <+: objectsDir request.projectId := by
    intro hpre
    exact absurd (List.cons_prefix_cons.mp hpre).1 (by decide)
  have hstage := ends_stage request.data metadata hdir hempty (List.cons_ne_nil _ _) staging_apart
    ((hout _ staging_apart).trans hobject)
      ((congrArg _ List.dropLast_concat).trans ((hout _ hapart).trans hparent))
  have hstaged : Ends performs (fun result staged => (result = .ok () ∧
      (∀ path, ¬ stagingDir objectId <+: path → ¬ objectDir request.projectId objectId <+: path →
        staged.files.entry path = world.files.entry path) ∧
      staged.files.entry (stagingDir objectId) = none ∧
        ReadAsPut py objectId request staged.files) ∨
      ∃ e, result = .error e ∧ Put py objectId request before (.error e) staged)
      (Prog.tryCatch (stage metadata request.data (stagingDir objectId)
        (objectDir request.projectId objectId)) fun e => do
        removeStaging (stagingDir objectId)
        throw e) made := by
    refine Ends.tryCatch hstage ?_ ?_
    · rintro ⟨⟩ staged ⟨hworked, hdone, -⟩
      obtain ⟨hgone, hpayload, hmetadata⟩ := hdone rfl
      refine .inl ⟨rfl, fun path hpath hpath' =>
        (hworked.frame path ⟨hpath, hpath'⟩).trans (hout path hpath), hgone, ?_⟩
      exact readAsPut hproject hnames hpayload hmetadata
    · rintro e staged ⟨hworked, -, hraised⟩
      obtain ⟨hdir', hframe'⟩ := hraised e rfl
      obtain ⟨failures, heq, -, hne⟩ := hworked.failures
      refine Ends.mono (ends_cleanUp hready hstaging hobject hdir' (fun path hpath =>
        (hframe' path hpath).trans (hout path hpath))
        (by rw [heq, hfailures, hnothing, List.nil_append]) (hne e rfl))
          fun result after h => .inr h
  refine Ends.bind hstaged ?_ ?_
  · rintro ⟨⟩ staged (⟨-, hsame, hgone, hread⟩ | ⟨e, he, -⟩)
    · have hlonger : ¬ objectDir request.projectId objectId <+: objectsDir request.projectId :=
        fun hpre =>
        absurd hpre.length_le (Nat.not_succ_le_self 3)
      have hkept (path : Path) (hpath : before.entry path ≠ none) : staged.files.entry path =
          before.entry path := by
        refine (hsame path (hready.outside hstaging hpath) fun hpre => hpath ?_).trans
          (hready.kept path hpath)
        exact Files.eq_none_of_prefix (hready.object.symm.trans hobject) hpre
      refine Ends.bind (ends_fsyncDirectory ((hsame _ hapart hlonger).trans hparent)) ?_ ?_
      · rintro ⟨⟩ synced ⟨hsynced, -⟩
        show Put py objectId request before (.ok stored) synced
        refine ⟨fun path hpath => ?_, fun stored' heq => ?_, nofun, fun _ _ => ?_⟩
        · rw [hsynced]
          exact hkept path hpath
        · cases heq
          rw [hsynced]
          exact ⟨hread, hstored⟩
        · rw [hsynced]
          exact hgone
      · rintro e synced ⟨hsynced, failures, heq, -, hraised⟩
        obtain ⟨op, hop, hsyncs⟩ := hraised e rfl
        refine ⟨fun path hpath => ?_, nofun, fun _ _ _ => .inr ⟨⟨op, ?_, hsyncs⟩, ?_⟩,
          fun _ _ => ?_⟩
        · rw [hsynced]
          exact hkept path hpath
        · rw [heq]
          exact List.mem_append_right _ hop
        · rw [hsynced]
          exact hread
        · rw [hsynced]
          exact hgone
    · cases he
  · rintro e staged (⟨he, -⟩ | ⟨e', he, hput⟩)
    · cases he
    · cases he
      exact hput

/-- From the staging directory on. -/
theorem ends_commit {stored : StoredObject} (hready : Ready objectId request before world)
    (hproject : matchesProjectId request.projectId = true)
    (hnames : Names py objectId request metadata)
    (hstored : stored = ⟨request.projectId, storageKey request.projectId objectId,
      request.data.length, py.sha256 request.data,
      strip request.mimeType⟩)
    (hparent : world.files.entry (objectsDir request.projectId) = some .dir)
    (htmp : world.files.entry [".tmp"] = some .dir)
    (hobject : world.files.entry (objectDir request.projectId objectId) = none)
    (hstaging : world.files.entry (stagingDir objectId) = none) :
    Ends performs (Put py objectId request before)
      (do
        perform (.mkdir (stagingDir objectId))
        Prog.tryCatch (stage metadata request.data (stagingDir objectId)
          (objectDir request.projectId objectId)) fun e => do
          removeStaging (stagingDir objectId)
          throw e
        fsyncDirectory (objectsDir request.projectId)
        pure stored) world := by
  have hvacant : Vacant world.files (stagingDir objectId) := ⟨hstaging, htmp⟩
  have hmkdir : Ends performs (fun result made =>
      (result = .ok () ∧ made = ⟨world.files.create (stagingDir objectId) .dir, world.failures⟩) ∨
        ∃ e, result = .error e ∧ Put py objectId request before (.error e) made)
          (perform (.mkdir (stagingDir objectId))) world := by
    refine ends_perform ?_ ?_
    · intro result files hresult
      unfold quiet at hresult
      dsimp only at hresult
      rw [if_pos hvacant] at hresult
      cases hresult
      exact .inl ⟨rfl, rfl⟩
    · rintro result files ⟨e, he, -⟩ hframe
      obtain rfl : files = world.files :=
        Files.ext fun path => (hframe path).resolve_right fun h => h
      refine .inr ⟨e, he, Prepared.put (β := Unit)
        (hready.trans ⟨fun _ _ => rfl, rfl, rfl, nofun, .inr ⟨.mkdir _, trivial, rfl⟩⟩)⟩
  refine Ends.bind hmkdir ?_ ?_
  · rintro ⟨⟩ made (⟨-, rfl⟩ | ⟨e, he, -⟩)
    · have hframe (path : Path) (hpath : path ≠ stagingDir objectId) :
          (world.files.create (stagingDir objectId) .dir).entry path = world.files.entry path :=
            Files.create_ne hpath
      have hdir : (world.files.create (stagingDir objectId) .dir).entry (stagingDir objectId) =
          some .dir := by
        rw [Files.create_entry hvacant.1 hvacant.2, Function.update_self]
      have hempty (name : String) : (world.files.create (stagingDir objectId) .dir).entry
          (stagingDir objectId ++ [name]) = none :=
        (hframe _ below_ne).trans (Files.eq_none_of_prefix hstaging (List.prefix_append _ _))
      exact ends_made hready hproject hnames hstored hparent hobject hstaging hframe hdir hempty rfl
    · cases he
  · rintro e made (⟨he, -⟩ | ⟨e', he, hput⟩)
    · cases he
    · cases he
      exact hput

theorem validateMimeType_ok {mimeType normalized : String}
    (h : validateMimeType mimeType = .ok normalized) : normalized = strip mimeType := by
  unfold validateMimeType at h
  dsimp only at h
  split at h
  · cases h
  · cases h
    rfl

/-- **What a `put` leaves, whichever of its calls fail**. -/
theorem put_atomic (py : Python) (objectId : UUID) (request : PutObjectRequest) (before : Files) :
    Ends performs (Put py objectId request before) (putSync py objectId request) ⟨before, []⟩ := by
  have hready : Ready objectId request before ⟨before, []⟩ := Prepared.refl
  unfold putSync
  refine hready.then prepares_ofExcept fun projectId w₁ hready _ hproject => ?_
  obtain ⟨rfl, hmatches⟩ := validateProjectId_ok hproject.1
  refine hready.then prepares_ofExcept fun logicalKey w₂ hready _ hlogical => ?_
  refine hready.then prepares_ofExcept fun mimeType w₃ hready _ hmime => ?_
  have hparents : Prepares (objectDir request.projectId objectId) (stagingDir objectId)
      (fun path files => path = objectsDir request.projectId ∧ files.entry path = some .dir)
      (mkdirSafe [] (objectsDir request.projectId)) w₃ := by
    refine prepares_mkdirSafe _ w₃.files.root fun made hmade hpre => ⟨?_, ?_⟩
    · rintro rfl
      exact absurd hpre.length_le (Nat.not_succ_le_self 3)
    · rintro rfl
      exact absurd (List.cons_prefix_cons.mp hpre).1 (by decide)
  refine hready.then hparents fun finalParent w₄ hready _ hparent => ?_
  obtain ⟨rfl, hparent⟩ := hparent
  refine hready.then prepares_rejectSymlink fun _ w₅ hready _ hsame => ?_
  refine hready.then prepares_exists fun exists_ w₆ hready _ hexists => ?_
  split
  · exact hready.throw
  next hnone =>
  have hobject : w₅.files.entry (objectDir request.projectId objectId) = none :=
    not_not.mp fun hsome => hnone (hexists.1.mpr hsome)
  have htmp : Prepares (objectDir request.projectId objectId) (stagingDir objectId)
      (fun path files => path = [".tmp"] ∧ files.entry path = some .dir)
        (mkdirSafe [] [".tmp"]) w₆ := by
    refine prepares_mkdirSafe _ w₆.files.root fun made hmade hpre => ⟨?_, ?_⟩
    · rintro rfl
      exact absurd hpre.length_le (by decide : ¬ 4 ≤ 1)
    · rintro rfl
      exact absurd hpre.length_le (by decide : ¬ 2 ≤ 1)
  refine hready.then htmp fun tmpRoot w₇ hready hmade htmp => ?_
  obtain ⟨rfl, htmp⟩ := htmp
  refine hready.then prepares_rejectSymlink fun _ w₈ hready _ hsame' => ?_
  refine hready.then prepares_exists fun exists_' w₉ hready _ hexists' => ?_
  split
  · exact hready.throw
  next hnone' =>
  have hfiles : w₉.files = w₇.files := hexists'.2.trans hsame'
  have hfiles' : w₆.files = w₄.files := hexists.2.trans hsame
  have hstaging : w₈.files.entry (stagingDir objectId) = none :=
    not_not.mp fun hsome => hnone' (hexists'.1.mpr hsome)
  have hparent' : w₆.files.entry (objectsDir request.projectId) = some .dir := hfiles' ▸ hparent
  refine ends_commit hready hmatches ⟨rfl, rfl, rfl, validateMimeType_ok hmime.1⟩ ?_ ?_ ?_ ?_ ?_
  · rw [validateMimeType_ok hmime.1]
  · rw [hfiles, hmade.kept _ (Option.ne_none_iff_exists'.mpr ⟨_, hparent'⟩)]
    exact hparent'
  · rw [hfiles]
    exact htmp
  · rw [hfiles, hmade.object, hexists.2]
    exact hobject
  · rw [hexists'.2]
    exact hstaging

/-! ## A directory that cannot be brought to the disk -/

/-- Nothing fails but these calls. -/
def failing (fails : FsOp → Bool) (op : FsOp) (world : World) :
    Except ObjectStoreError op.Res × World :=
  if fails op then
    match op with
    | .rmtree path true => (.ok (), ⟨world.files, world.failures ++ [.rmtree path true]⟩)
    | op => (.error .osError, ⟨world.files, world.failures ++ [op]⟩)
  else ((quiet op world.files).1, ⟨(quiet op world.files).2, world.failures⟩)

theorem failing_performs (fails : FsOp → Bool) (op : FsOp) (world : World) :
    performs op world (failing fails op world).1 (failing fails op world).2 := by
  unfold failing
  split
  · refine .inr ⟨?_, ?_, ?_⟩
    · split
      · rfl
      · next op hop =>
        unfold failed
        split
        · exact absurd rfl (hop _)
        · exact ⟨.osError, rfl, rfl⟩
    · intro path
      split <;> exact .inl rfl
    · split <;> rfl
  · exact .inl ⟨rfl, rfl⟩

/-- What is claimed of a `put`. -/
def AllOrNothing (py : Python) (objectId : UUID) (request : PutObjectRequest) (before : Files)
    (result : Except ObjectStoreError StoredObject) (after : World) : Prop :=
  (∀ path, before.entry path ≠ none → after.files.entry path = before.entry path) ∧
    match result with
    | .ok _ => ReadAsPut py objectId request after.files
    | .error _ =>
      after.files.entry (objectDir request.projectId objectId) = none ∧
        after.files.entry (stagingDir objectId) = none

def sampleRequest : PutObjectRequest := ⟨"p", "a", [], "text/plain"⟩

def sampleFiles : Files := Files.holding [] fun _ => none

noncomputable def sampleRun (fails : FsOp → Bool) : Except ObjectStoreError StoredObject × World :=
  eval (failing fails) (putSync samplePython ⟨1⟩ sampleRequest) ⟨sampleFiles, []⟩

/-- The directory cannot be brought to the disk after the rename; the payload cannot be written, and
then not be removed. -/
theorem put_not_all_or_nothing :
    (∃ e after, Runs performs (putSync samplePython ⟨1⟩ sampleRequest) ⟨sampleFiles, []⟩
      (.error e) after ∧
        after.files.entry (objectDir "p" ⟨1⟩) = some .dir ∧
          ¬ AllOrNothing samplePython ⟨1⟩ sampleRequest sampleFiles (.error e) after) ∧
      ∃ e after, Runs performs (putSync samplePython ⟨1⟩ sampleRequest) ⟨sampleFiles, []⟩
        (.error e) after ∧
        after.files.entry (stagingDir ⟨1⟩) = some .dir ∧
          ¬ AllOrNothing samplePython ⟨1⟩ sampleRequest sampleFiles (.error e) after := by
  have hrun {fails : FsOp → Bool} (hraised : (sampleRun fails).1 = .error .osError) :
      Runs performs (putSync samplePython ⟨1⟩ sampleRequest) ⟨sampleFiles, []⟩ (.error .osError)
        (sampleRun fails).2 :=
    hraised ▸ runs_eval (failing_performs fails) _ _
  constructor
  · have hraised : (sampleRun (· == .fsyncDir (objectsDir "p"))).1 = .error .osError := by
      decide +kernel
    have hseen : (sampleRun (· == .fsyncDir (objectsDir "p"))).2.files.entry (objectDir "p" ⟨1⟩) =
        some .dir := by decide +kernel
    refine ⟨_, _, hrun hraised, hseen, fun h => ?_⟩
    cases hseen.symm.trans h.2.1
  · have hraised : (sampleRun fun op => op == .write (payloadFile (stagingDir ⟨1⟩)) [] || op ==
      .rmtree (stagingDir ⟨1⟩) true).1 =
        .error .osError := by decide +kernel
    have hleft : (sampleRun fun op => op == .write (payloadFile (stagingDir ⟨1⟩)) [] ||
        op == .rmtree (stagingDir ⟨1⟩) true).2.files.entry (stagingDir ⟨1⟩) =
          some .dir := by decide +kernel
    refine ⟨_, _, hrun hraised, hleft, fun h => ?_⟩
    cases hleft.symm.trans h.2.2

end ProjectAgent.ObjectStore
