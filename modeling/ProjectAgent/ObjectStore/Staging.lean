/-
How the parts of `put` go when any of their calls may fail. What is done before
anything is written fails once at most and then raises; what is staged is staged
whole, or something of it failed and it raises.
-/
import ProjectAgent.Lib.Calls
import ProjectAgent.ObjectStore.Adapter

namespace ProjectAgent.ObjectStore

open Interleave Interleave.Prog FileTree

variable {α β : Type} {world world' : World} {path other : Path} {data : Bytes}
  {e : ObjectStoreError}

/-! ## One call -/

theorem ends_perform {op : FsOp} {post : Except ObjectStoreError op.Res → World → Prop}
    (hquiet : ∀ result files, quiet op world.files = (result, files) →
      post result ⟨files, world.failures⟩)
    (hfailed : ∀ result files, failed op result →
      (∀ path, files.entry path = world.files.entry path ∨ Spoils op path) →
      post result ⟨files, world.failures ++ [op]⟩) :
    Ends performs post (perform op) world := by
  refine Ends.exec fun result world' h => ?_
  obtain ⟨files, failures⟩ := world'
  rcases h with ⟨hresult, rfl⟩ | ⟨hresult, hframe, rfl⟩
  · exact hquiet result files hresult
  · exact hfailed result files hresult hframe

/-! ## Before anything is written -/

def Checks : FsOp → Prop
  | .stat _ | .lstat _ | .resolvesInside _ | .mkdir _ => True
  | _ => False

/-- What was there is there, at these two paths nothing is new, and one call at most has failed. -/
structure Prepared (object staging : Path) (world : World) (result : Except ObjectStoreError α)
    (world' : World) : Prop where
  kept : ∀ path, world.files.entry path ≠ none → world'.files.entry path = world.files.entry path
  object : world'.files.entry object = world.files.entry object
  staging : world'.files.entry staging = world.files.entry staging
  ok : ∀ a, result = .ok a → world'.failures = world.failures
  failures : world'.failures = world.failures ∨ ∃ op, Checks op ∧
    world'.failures = world.failures ++ [op]

variable {object staging : Path} {result : Except ObjectStoreError α}

theorem Prepared.refl : Prepared object staging world result world :=
  ⟨fun _ _ => rfl, rfl, rfl, fun _ _ => rfl, .inl rfl⟩

theorem Prepared.trans {world₁ world₂ : World} {a : β}
    (h : Prepared object staging world (.ok a) world₁)
    (h' : Prepared object staging world₁ result world₂) :
    Prepared object staging world result world₂ where
  kept path hpath := (h'.kept path (h.kept path hpath ▸ hpath)).trans (h.kept path hpath)
  object := h'.object.trans h.object
  staging := h'.staging.trans h.staging
  ok a ha := (h'.ok a ha).trans (h.ok _ rfl)
  failures := by
    rw [← h.ok _ rfl]
    exact h'.failures

/-- Whatever is made of it without another call. -/
theorem Prepared.ended {a : β} (h : Prepared object staging world (.ok a) world') :
    Prepared object staging world result world' :=
  ⟨h.kept, h.object, h.staging, fun _ _ => h.ok a rfl, h.failures⟩

theorem Prepared.raised {e : ObjectStoreError}
    (h : Prepared object staging world (.error e : Except ObjectStoreError β) world') :
    Prepared object staging world (.error e : Except ObjectStoreError α) world' :=
  ⟨h.kept, h.object, h.staging, nofun, h.failures⟩

def Prepares (object staging : Path) (holds : α → Files → Prop) (x : Session α)
    (world : World) : Prop :=
  Ends performs (fun result world' => Prepared object staging world result world' ∧
    ∀ a, result = .ok a → holds a world'.files) x world

variable {holds : α → Files → Prop} {holds' : β → Files → Prop}

theorem prepares_pure {a : α} (h : holds a world.files) :
    Prepares object staging holds (pure a) world :=
  ⟨.refl, fun b hb => by
    cases hb
    exact h⟩

theorem prepares_throw : Prepares object staging holds (throw e) world := ⟨.refl, nofun⟩

theorem prepares_ofExcept {x : Except ObjectStoreError α} :
    Prepares object staging (fun a files => x = .ok a ∧ files = world.files)
      (ofExcept x) world := by
  cases x with
  | ok a => exact prepares_pure ⟨rfl, rfl⟩
  | error e => exact prepares_throw

theorem Prepares.bind {x : Session β} {f : β → Session α}
    (hx : Prepares object staging holds' x world)
    (hf : ∀ b world', Prepared object staging world (.ok b : Except ObjectStoreError β) world' →
      holds' b world'.files → Prepares object staging holds (f b) world') :
    Prepares object staging holds (x >>= f) world := by
  refine Ends.bind hx ?_ ?_
  · rintro b world' ⟨hprepared, hholds⟩
    exact (hf b world' hprepared (hholds b rfl)).mono fun result world'' h =>
      ⟨hprepared.trans h.1, h.2⟩
  · rintro e world' ⟨hprepared, -⟩
    exact ⟨hprepared.raised, nofun⟩

theorem Prepares.mono {holds'' : α → Files → Prop} {x : Session α}
    (hx : Prepares object staging holds x world) (h : ∀ a files, holds a files → holds'' a files) :
    Prepares object staging holds'' x world :=
  Ends.mono hx fun _ _ hend => ⟨hend.1, fun a ha => h a _ (hend.2 a ha)⟩

/-- A call that only looks. -/
theorem prepares_look (op : FsOp) (hchecks : Checks op) (hspoils : ∀ path, ¬ Spoils op path)
    (hraises : ∀ a, ¬ failed op (.ok a)) (hsame : (quiet op world.files).2 = world.files) :
    Prepares object staging (fun a files => (quiet op world.files).1 = .ok a ∧ files = world.files)
      (perform op) world := by
  refine ends_perform ?_ ?_
  · intro result files hresult
    obtain rfl : files = world.files := by rw [← hsame, hresult]
    refine ⟨.refl, fun a ha => ⟨?_, rfl⟩⟩
    rw [hresult, ← ha]
  · intro result files hfailed hframe
    obtain rfl : files = world.files :=
      Files.ext fun path => (hframe path).resolve_right (hspoils path)
    refine ⟨⟨fun _ _ => rfl, rfl, rfl, fun a ha => ?_, .inr ⟨op, hchecks, rfl⟩⟩, fun a ha => ?_⟩
    · exact absurd (ha ▸ hfailed) (hraises a)
    · exact absurd (ha ▸ hfailed) (hraises a)

/-- No call but a removal with its errors ignored returns something when it fails. -/
theorem not_failed_ok (op : FsOp) (h : ∀ path, op ≠ .rmtree path true) (a : op.Res) :
    ¬ failed op (.ok a) := by
  unfold failed
  split
  · exact absurd rfl (h _)
  · rintro ⟨e, he, -⟩
    cases he

theorem prepares_stat :
    Prepares object staging (fun e files => e = world.files.entry path ∧ files = world.files)
      (perform (.stat path)) world :=
  (prepares_look (.stat path) trivial (fun _ h => h) (not_failed_ok _ nofun) rfl).mono fun _ _ h =>
    ⟨(Except.ok.inj h.1).symm, h.2⟩

theorem prepares_isSymlink :
    Prepares object staging (fun b files => (b = true ↔ world.files.entry path = some .link) ∧
      files = world.files)
    (isSymlink path) world :=
  prepares_stat.bind fun e world' _ h => prepares_pure (by
    rw [h.1]
    exact ⟨beq_iff_eq, h.2⟩)

theorem prepares_exists :
    Prepares object staging (fun b files => (b = true ↔ world.files.entry path ≠ none) ∧
      files = world.files)
    (pathExists path) world :=
  prepares_stat.bind fun e world' _ h => prepares_pure (by
    rw [h.1]
    exact ⟨Option.isSome_iff_ne_none, h.2⟩)

theorem prepares_isDir :
    Prepares object staging (fun b files => (b = true ↔ world.files.entry path = some .dir) ∧
      files = world.files)
    (isDir path) world :=
  prepares_stat.bind fun e world' _ h => prepares_pure (by
    rw [h.1]
    exact ⟨beq_iff_eq, h.2⟩)

theorem prepares_rejectSymlink :
    Prepares object staging (fun _ files => files = world.files) (rejectSymlink path) world := by
  have hlstat : Prepares object staging (fun _ files => files = world.files)
      (perform (.lstat path)) world :=
    (prepares_look (.lstat path) trivial (fun _ h => h) (not_failed_ok _ nofun) rfl).mono
      fun _ _ h => h.2
  refine hlstat.bind fun e world' _ h => ?_
  split
  · exact prepares_throw
  · exact prepares_pure h

theorem prepares_resolves :
    Prepares object staging (fun _ files => files = world.files)
      (assertResolvesInsideRoot path) world := by
  have hinside : Prepares object staging (fun _ files => files = world.files)
      (perform (.resolvesInside path)) world :=
    (prepares_look (.resolvesInside path) trivial (fun _ h => h) (not_failed_ok _ nofun) rfl).mono
      fun _ _ h => h.2
  refine hinside.bind fun e world' _ h => ?_
  split
  · exact prepares_pure h
  · exact prepares_throw

/-- A directory made where it is neither of the two paths. -/
theorem prepares_mkdir (hobject : path ≠ object) (hstaging : path ≠ staging) :
    Prepares object staging (fun _ files => files.entry path = some .dir)
      (perform (.mkdir path)) world := by
  refine ends_perform ?_ ?_
  · intro result files hresult
    unfold quiet at hresult
    dsimp only at hresult
    split at hresult
    · next hvacant =>
      cases hresult
      refine ⟨⟨fun other hother => ?_, ?_, ?_, fun _ _ => rfl, .inl rfl⟩, fun _ _ => ?_⟩
      · refine Files.create_ne ?_
        rintro rfl
        exact hother hvacant.1
      · exact Files.create_ne hobject.symm
      · exact Files.create_ne hstaging.symm
      · show (world.files.create path .dir).entry path = some .dir
        rw [Files.create_entry hvacant.1 hvacant.2, Function.update_self]
    · cases hresult
      exact ⟨.refl, nofun⟩
  · intro result files hfailed hframe
    obtain rfl : files = world.files :=
      Files.ext fun other => (hframe other).resolve_right fun h => h
    have hnot (a : Unit) : result ≠ .ok a := by
      rintro rfl
      exact not_failed_ok (.mkdir path) nofun a hfailed
    exact ⟨⟨fun _ _ => rfl, rfl, rfl, fun a ha => absurd ha (hnot a),
      .inr ⟨.mkdir path, trivial, rfl⟩⟩, fun a ha => absurd ha (hnot a)⟩

/-- The directories of a path are there then, and nothing else is made. -/
theorem prepares_mkdirSafe (names : List String) :
    ∀ {world : World} {current : Path}, world.files.entry current = some .dir →
    (∀ made, made ≠ [] → made <+: names → current ++ made ≠ object ∧ current ++ made ≠ staging) →
      Prepares object staging (fun path files => path = current ++ names ∧
        files.entry path = some .dir) (mkdirSafe current names) world := by
  induction names with
  | nil => exact fun hcurrent _ => prepares_pure ⟨(List.append_nil _).symm, hcurrent⟩
  | cons name names ih =>
    intro world current _ happart
    have hhere := happart [name] (List.cons_ne_nil _ _)
      (List.cons_prefix_cons.mpr ⟨rfl, List.nil_prefix⟩)
    unfold mkdirSafe
    refine prepares_isSymlink.bind fun symlink world₁ _ hsymlink => ?_
    split
    · exact prepares_throw
    refine prepares_exists.bind fun exists_ world₂ _ hexists => ?_
    have hrest (world₃ : World) (hdir : world₃.files.entry (current ++ [name]) = some .dir) :
        Prepares object staging (fun path files => path = current ++ name :: names ∧
          files.entry path = some .dir)
          (do
            assertResolvesInsideRoot (current ++ [name])
            mkdirSafe (current ++ [name]) names) world₃ := by
      refine prepares_resolves.bind fun _ world₄ _ hsame => ?_
      have hnames : Prepares object staging (fun path files => path = current ++ [name] ++ names ∧
        files.entry path = some .dir)
          (mkdirSafe (current ++ [name]) names) world₄ := by
        refine ih (hsame ▸ hdir) fun made hmade hpre => ?_
        rw [← List.append_cons]
        exact happart (name :: made) (List.cons_ne_nil _ _) (List.cons_prefix_cons.mpr ⟨rfl, hpre⟩)
      refine hnames.mono fun path files h => ⟨?_, h.2⟩
      rw [h.1, ← List.append_cons]
    dsimp only
    -- however it comes to be, the path is of a directory
    split
    · refine prepares_isDir.bind fun dir world₃ _ hdir => ?_
      split
      · next htrue =>
        refine hrest world₃ ?_
        rw [hdir.2]
        exact hdir.1.mp htrue
      · exact prepares_throw
    · exact (prepares_mkdir hhere.1 hhere.2).bind fun _ world₃ _ hdir => hrest world₃ hdir

/-! ## What is staged -/

/-- Outside, nothing is changed; if it raises, some of these calls has failed. -/
structure Worked (calls : FsOp → Prop) (outside : Path → Prop) (world : World)
    (result : Except ObjectStoreError α) (world' : World) :
    Prop where
  frame : ∀ path, outside path → world'.files.entry path = world.files.entry path
  failures : ∃ failures, world'.failures = world.failures ++ failures ∧
    (∀ op ∈ failures, calls op) ∧
    ∀ e, result = .error e → failures ≠ []

variable {calls : FsOp → Prop} {outside : Path → Prop}

theorem Worked.refl {a : α} : Worked calls outside world (.ok a) world :=
  ⟨fun _ _ => rfl, [], (List.append_nil _).symm, fun _ h => (nomatch h), nofun⟩

theorem Worked.raised {e : ObjectStoreError}
    (h : Worked calls outside world (.error e : Except ObjectStoreError β) world') :
    Worked calls outside world result world' where
  frame := h.frame
  failures := by
    obtain ⟨failures, hfailures, hcalls, hraised⟩ := h.failures
    exact ⟨failures, hfailures, hcalls, fun _ _ => hraised e rfl⟩

theorem Worked.trans {world₁ world₂ : World} {before : Except ObjectStoreError β}
    (h : Worked calls outside world before world₁)
    (h' : Worked calls outside world₁ result world₂) :
    Worked calls outside world result world₂ where
  frame path hpath := (h'.frame path hpath).trans (h.frame path hpath)
  failures := by
    obtain ⟨first, hfirst, hcalls, -⟩ := h.failures
    obtain ⟨second, hsecond, hcalls', hraised⟩ := h'.failures
    refine ⟨first ++ second, ?_, ?_, ?_⟩
    · rw [hsecond, hfirst, List.append_assoc]
    · exact fun op hop => (List.mem_append.mp hop).elim (hcalls op) (hcalls' op)
    · intro e he hnil
      exact hraised e he (List.append_eq_nil_iff.mp hnil).2

/-- What comes after does not undo that something failed. -/
theorem Worked.after {world₁ world₂ : World} {a : β} (h : Worked calls outside world result world₁)
    (h' : Worked calls outside world₁ (.ok a) world₂) :
    Worked calls outside world result world₂ where
  frame path hpath := (h'.frame path hpath).trans (h.frame path hpath)
  failures := by
    obtain ⟨first, hfirst, hcalls, hraised⟩ := h.failures
    obtain ⟨second, hsecond, hcalls', -⟩ := h'.failures
    refine ⟨first ++ second, ?_, ?_, ?_⟩
    · rw [hsecond, hfirst, List.append_assoc]
    · exact fun op hop => (List.mem_append.mp hop).elim (hcalls op) (hcalls' op)
    · intro e he hnil
      exact hraised e he (List.append_eq_nil_iff.mp hnil).1

theorem Worked.mono {calls' : FsOp → Prop} {outside' : Path → Prop}
    (h : Worked calls outside world result world') (hcalls : ∀ op, calls op → calls' op)
    (hout : ∀ path, outside' path → outside path) : Worked calls' outside' world result world' where
  frame path hpath := h.frame path (hout path hpath)
  failures := by
    obtain ⟨failures, hfailures, hcalled, hraised⟩ := h.failures
    exact ⟨failures, hfailures, fun op hop => hcalls op (hcalled op hop), hraised⟩

def Works (calls : FsOp → Prop) (outside : Path → Prop) (done : Files → Prop) (x : Session α)
    (world : World) : Prop :=
  Ends performs (fun result world' => Worked calls outside world result world' ∧
    ∀ a, result = .ok a → done world'.files) x world

variable {done done' : Files → Prop} {x y : Session Unit}

theorem Works.mono {calls' : FsOp → Prop} {outside' : Path → Prop} {x : Session α}
    (h : Works calls outside done x world) (hcalls : ∀ op, calls op → calls' op)
    (hout : ∀ path, outside' path → outside path) : Works calls' outside' done x world :=
  Ends.mono h fun _ _ hend => ⟨hend.1.mono hcalls hout, hend.2⟩

theorem Works.then {x : Session β} {y : Session α} (hx : Works calls outside done x world)
    (hy : ∀ world', (∀ path, outside path → world'.files.entry path = world.files.entry path) →
      done world'.files → Works calls outside done' y world') :
    Works calls outside done' (x >>= fun _ => y) world := by
  refine Ends.bind hx ?_ ?_
  · rintro b world' ⟨hworked, hdone⟩
    exact Ends.mono (hy world' hworked.frame (hdone b rfl)) fun _ _ h => ⟨hworked.trans h.1, h.2⟩
  · rintro e world' ⟨hworked, -⟩
    exact ⟨hworked.raised, nofun⟩

/-- The clean-up does not change what is done, and if it fails that is raised. -/
theorem works_finally {x : Session α} {cleanup : Session Unit}
    (hx : Works calls outside done x world)
    (hcleanup : ∀ world', Works calls outside (fun files => files = world'.files) cleanup world') :
    Works calls outside done (finally_ x cleanup) world := by
  refine Ends.bind (Ends.attempt hx) ?_ ?_
  · rintro attempted world₁ ⟨result, hattempted, hworked, hdone⟩
    cases hattempted
    refine Ends.bind (hcleanup world₁) ?_ ?_
    · rintro ⟨⟩ world₂ ⟨hworked', hsame⟩
      cases attempted with
      | ok a =>
        refine ⟨hworked.after hworked', fun b hb => ?_⟩
        rw [hsame () rfl]
        exact hdone a rfl
      | error e => exact ⟨hworked.after hworked', nofun⟩
    · rintro e world₂ ⟨hworked', -⟩
      exact ⟨hworked.trans hworked'.raised, nofun⟩
  · rintro e world₁ ⟨_, hnone, -⟩
    cases hnone

/-- A call that does this when it does not fail. -/
theorem works_perform {op : FsOp} {a : op.Res} {files : Files}
    (hquiet : quiet op world.files = (.ok a, files)) (hcalls : calls op)
    (hframe : ∀ path, outside path → files.entry path = world.files.entry path)
    (hspoils : ∀ path, outside path → ¬ Spoils op path) (hraises : ∀ a, ¬ failed op (.ok a)) :
    Works calls outside (fun files' => files' = files) (perform op) world := by
  refine ends_perform ?_ ?_
  · intro result files' hresult
    rw [hquiet] at hresult
    cases hresult
    exact ⟨⟨hframe, [], (List.append_nil _).symm, fun _ h => (nomatch h), nofun⟩, fun _ _ => rfl⟩
  · intro result files' hfailed hspoiled
    refine ⟨⟨fun path hpath => (hspoiled path).resolve_right (hspoils path hpath), [op], rfl, ?_,
      fun _ _ => List.cons_ne_nil _ _⟩, ?_⟩
    · exact fun op' hop => List.mem_singleton.mp hop ▸ hcalls
    · rintro a rfl
      exact absurd hfailed (hraises a)

/-- The calls that fill a file, flush it and close it. -/
def Fills (path : Path) : FsOp → Prop
  | .openNew other | .write other _ | .flush other | .fsync other | .close other => other = path
  | _ => False

variable (data) in
theorem works_writeFile (habsent : world.files.entry path = none)
    (hparent : world.files.entry path.dropLast = some .dir) :
    Works (Fills path) (· ≠ path)
      (fun files => files.entry path = some (.file data) ∧ ∀ other, other ≠ path →
        files.entry other = world.files.entry other)
      (writeFileFsync path data) world := by
  have hopened : quiet (.openNew path) world.files = (.ok (), world.files.create path (.file [])) :=
    if_pos ⟨habsent, hparent⟩
  have hopen : Works (Fills path) (· ≠ path)
      (fun files => files = world.files.create path (.file [])) (perform (.openNew path)) world :=
    works_perform hopened rfl (fun other hother => Files.create_ne hother) (fun _ _ h => h)
      (not_failed_ok _ nofun)
  have hflush (world : World) : Works (Fills path) (· ≠ path) (fun files => files = world.files)
      (perform (.flush path)) world :=
    works_perform rfl rfl (fun _ _ => rfl) (fun _ hother h => hother h) (not_failed_ok _ nofun)
  have hfsync (world : World) : Works (Fills path) (· ≠ path) (fun files => files = world.files)
      (perform (.fsync path)) world :=
    works_perform rfl rfl (fun _ _ => rfl) (fun _ _ h => h) (not_failed_ok _ nofun)
  have hclose (world : World) : Works (Fills path) (· ≠ path) (fun files => files = world.files)
      (perform (.close path)) world :=
    works_perform rfl rfl (fun _ _ => rfl) (fun _ _ h => h) (not_failed_ok _ nofun)
  refine hopen.then fun world₁ hframe₁ hopened => works_finally ?_ hclose
  have hempty : world₁.files.entry path = some (.file []) := by
    rw [hopened, Files.create_entry habsent hparent, Function.update_self]
  have hwritten : quiet (.write path data) world₁.files =
      (.ok (), world₁.files.overwrite path data) := by
    unfold quiet
    dsimp only
    rw [hempty]
    rfl
  have hwrite : Works (Fills path) (· ≠ path)
      (fun files => files = world₁.files.overwrite path data) (perform (.write path data)) world₁ :=
    works_perform hwritten rfl (fun other hother => Files.overwrite_ne hother)
      (fun _ hother h => hother h) (not_failed_ok _ nofun)
  refine hwrite.then fun world₂ hframe₂ hwritten => (hflush world₂).then fun world₃ _ hflushed => ?_
  refine Ends.mono (hfsync world₃) fun result world₄ h => ⟨h.1, fun a ha => ?_⟩
  rw [h.2 a ha, hflushed]
  refine ⟨?_, fun other hother => (hframe₂ other hother).trans (hframe₁ other hother)⟩
  rw [hwritten, Files.overwrite_entry hempty, Function.update_self]

/-- The calls that bring a directory to the disk. -/
def Syncs (path : Path) (op : FsOp) : Prop := op = .fsyncDir path ∨ op = .closeDir path

/-- A directory that cannot be opened is not brought to the disk, and nothing is raised. -/
theorem ends_fsyncDirectory (hdir : world.files.entry path = some .dir) :
    Ends performs (fun result world' => world'.files = world.files ∧
      ∃ failures, world'.failures = world.failures ++ failures ∧
      (∀ op ∈ failures, op = .openDir path ∨ Syncs path op) ∧ ∀ e, result = .error e →
        ∃ op ∈ failures, Syncs path op)
      (fsyncDirectory path) world := by
  have hopen : Ends performs (fun result world' => (result = .ok () ∧ world' = world) ∨
      ∃ e, e.isOSError = true ∧ result = .error e ∧
        world' = ⟨world.files, world.failures ++ [.openDir path]⟩)
        (perform (.openDir path)) world := by
    refine ends_perform ?_ ?_
    · intro result files hresult
      unfold quiet at hresult
      dsimp only at hresult
      rw [if_pos hdir] at hresult
      cases hresult
      exact .inl ⟨rfl, rfl⟩
    · rintro result files ⟨e, he, hos⟩ hframe
      obtain rfl : files = world.files :=
        Files.ext fun other => (hframe other).resolve_right fun h => h
      exact .inr ⟨e, hos, he, rfl⟩
  have hsync : Works (Syncs path) (fun _ => True) (fun files => files = world.files)
      (finally_ (perform (.fsyncDir path)) (perform (.closeDir path))) world :=
    works_finally (works_perform rfl (.inl rfl) (fun _ _ => rfl) (fun _ _ h => h)
      (not_failed_ok _ nofun)) fun world' =>
      works_perform rfl (.inr rfl) (fun _ _ => rfl) (fun _ _ h => h) (not_failed_ok _ nofun)
  refine Ends.bind hopen.attempt ?_ ?_
  · rintro opened world' ⟨result, hresult, h⟩
    cases hresult
    rcases h with ⟨rfl, rfl⟩ | ⟨e, hos, rfl, rfl⟩
    · refine Ends.mono hsync fun result world'' ⟨hworked, _⟩ => ?_
      obtain ⟨failures, hfailures, hsyncs, hraised⟩ := hworked.failures
      refine ⟨Files.ext fun other => hworked.frame other trivial, failures, hfailures, fun op hop =>
        .inr (hsyncs op hop), ?_⟩
      intro e he
      obtain ⟨op, hop⟩ := List.exists_mem_of_ne_nil _ (hraised e he)
      exact ⟨op, hop, hsyncs op hop⟩
    · show Ends performs _ (if e.isOSError = true then pure () else throw e) _
      rw [if_pos hos]
      exact ⟨rfl, [.openDir path], rfl, fun op hop => .inl (List.mem_singleton.mp hop), nofun⟩
  · rintro e world' ⟨opened, hnone, -⟩
    cases hnone

theorem below_ne {name : String} : path ++ [name] ≠ path := by
  intro heq
  have hlength := congrArg List.length heq
  rw [List.length_append, List.length_singleton] at hlength
  omega

/-- The calls that fill the staging directory. -/
def FillsStaging (staging : Path) (op : FsOp) : Prop :=
  Fills (payloadFile staging) op ∨ Fills (metadataFile staging) op ∨ op = .openDir staging ∨
    Syncs staging op

variable {metadata : Metadata}

theorem works_fill (hdir : world.files.entry staging = some .dir)
    (hempty : ∀ name, world.files.entry (staging ++ [name]) = none) :
    Works (FillsStaging staging) (fun path => path = staging ∨ ¬ staging <+: path)
      (fun files => files.entry (payloadFile staging) = some (.file data) ∧
        files.entry (metadataFile staging) = some (.file metadata.bytes))
      (fill metadata data staging) world := by
  have hout {name : String} (path : Path) (h : path = staging ∨ ¬ staging <+: path) : path ≠
      staging ++ [name] := by
    rintro rfl
    rcases h with h | h
    · exact below_ne h
    · exact h (List.prefix_append _ _)
  have hpayload := (works_writeFile data (hempty "payload.bin")
    (by rw [List.dropLast_concat, hdir])).mono
    (fun _ h => (.inl h : FillsStaging staging _)) hout
  refine hpayload.then fun world₁ hframe ⟨hpayload, hothers⟩ => ?_
  have hdir₁ : world₁.files.entry staging = some .dir := (hframe staging (.inl rfl)).trans hdir
  have hne : metadataFile staging ≠ payloadFile staging := by
    intro heq
    exact absurd (List.append_cancel_left heq) (by decide)
  have hmetadata := (works_writeFile metadata.bytes ((hothers _ hne).trans (hempty "metadata.json"))
    ((congrArg _ List.dropLast_concat).trans hdir₁)).mono (fun _ h =>
      (.inr (.inl h) : FillsStaging staging _)) hout
  refine hmetadata.then fun world₂ hframe₂ ⟨hmetadata, hothers₂⟩ => ?_
  refine Ends.mono (ends_fsyncDirectory ((hframe₂ staging (.inl rfl)).trans hdir₁))
    fun result world₃ h => ?_
  obtain ⟨hsame, failures, hfailures, hsyncs, hraised⟩ := h
  refine
    ⟨⟨fun _ _ => by rw [hsame], failures, hfailures, fun op hop => .inr (.inr (hsyncs op hop)), ?_⟩,
    fun _ _ => ?_⟩
  · intro e he
    obtain ⟨op, hop, -⟩ := hraised e he
    exact List.ne_nil_of_mem hop
  · rw [hsame]
    exact ⟨(hothers₂ _ hne.symm).trans hpayload, hmetadata⟩

variable (data metadata) in
/-- **What is staged is moved whole**, or something failed and the staging directory is there. -/
theorem ends_stage {final : Path} (hdir : world.files.entry staging = some .dir)
    (hempty : ∀ name, world.files.entry (staging ++ [name]) = none) (hne : staging ≠ [])
    (hapart : ¬ staging <+: final) (habsent : world.files.entry final = none)
    (hparent : world.files.entry final.dropLast = some .dir) :
    Ends performs (fun result world' =>
      Worked (fun op => FillsStaging staging op ∨ op = .replace staging final)
        (fun path => ¬ staging <+: path ∧ ¬ final <+: path)
        world result world' ∧
      (result = .ok () → world'.files.entry staging = none ∧
        world'.files.entry (payloadFile final) = some (.file data) ∧
        world'.files.entry (metadataFile final) = some (.file metadata.bytes)) ∧
      ∀ e, result = .error e → world'.files.entry staging = some .dir ∧ ∀ path, ¬ staging <+: path →
        world'.files.entry path = world.files.entry path)
      (stage metadata data staging final) world := by
  have hfinal : ¬ final <+: staging := by
    intro hpre
    rw [Files.eq_none_of_prefix habsent hpre] at hdir
    cases hdir
  refine Ends.bind (works_fill hdir hempty) ?_ ?_
  · rintro ⟨⟩ world₁ ⟨hworked, hdone⟩
    obtain ⟨hpayload, hmetadata⟩ := hdone () rfl
    have hdir₁ : world₁.files.entry staging = some .dir := (hworked.frame _ (.inl rfl)).trans hdir
    have habsent₁ : world₁.files.entry final = none := (hworked.frame _ (.inr hapart)).trans habsent
    have hout : ¬ staging <+: final.dropLast :=
      fun hpre => hapart (hpre.trans (List.dropLast_prefix final))
    have hparent₁ : world₁.files.entry final.dropLast = some .dir :=
      (hworked.frame _ (.inr hout)).trans hparent
    have hworked₁ : Worked (fun op => FillsStaging staging op ∨ op = .replace staging final)
        (fun path => ¬ staging <+: path ∧ ¬ final <+: path) world
          (.ok () : Except ObjectStoreError Unit) world₁ :=
      hworked.mono (fun _ h => .inl h) fun _ h => .inr h.1
    refine ends_perform ?_ ?_
    · intro result files hresult
      unfold quiet at hresult
      dsimp only at hresult
      rw [if_pos ⟨hdir₁, hne, hapart, habsent₁, hparent₁⟩] at hresult
      cases hresult
      refine ⟨hworked₁.trans ⟨fun path h => Files.move_out h.2 h.1, [], (List.append_nil _).symm,
        fun _ h => (nomatch h), nofun⟩, ?_, nofun⟩
      have hmoved (name : String) : (world₁.files.move staging final).entry (final ++ [name]) =
          world₁.files.entry (staging ++ [name]) := by
        rw [Files.move_target hdir₁ hne hapart habsent₁ hparent₁ (List.prefix_append _ _),
          List.drop_left]
      refine fun _ => ⟨?_, (hmoved _).trans hpayload, (hmoved _).trans hmetadata⟩
      exact Files.move_source hdir₁ hne hapart habsent₁ hparent₁ hfinal List.prefix_rfl
    · rintro result files ⟨e, rfl, -⟩ hframe
      obtain rfl : files = world₁.files :=
        Files.ext fun other => (hframe other).resolve_right fun h => h
      refine ⟨hworked₁.trans ⟨fun _ _ => rfl, [_], rfl, ?_, fun _ _ => List.cons_ne_nil _ _⟩, nofun,
        fun _ _ => ⟨hdir₁, ?_⟩⟩
      · exact fun op hop => .inr (List.mem_singleton.mp hop)
      · exact fun path hpath => hworked.frame path (.inr hpath)
  · rintro e world₁ ⟨hworked, -⟩
    refine ⟨hworked.mono (fun _ h => .inl h) fun _ h => .inr h.1, nofun, fun _ _ =>
      ⟨(hworked.frame _ (.inl rfl)).trans hdir, ?_⟩⟩
    exact fun path hpath => hworked.frame path (.inr hpath)

/-- The calls of the clean-up. -/
def CleansUp (staging : Path) (op : FsOp) : Prop := op = .stat staging ∨ op = .rmtree staging true

/-- **The staging directory is removed**, unless something of the clean-up fails too. -/
theorem ends_removeStaging (hdir : world.files.entry staging = some .dir) (hne : staging ≠ []) :
    Ends performs (fun _ world' => (∀ path, ¬ staging <+: path →
      world'.files.entry path = world.files.entry path) ∧
      ∃ failures, world'.failures = world.failures ++ failures ∧
        (∀ op ∈ failures, CleansUp staging op) ∧
        (failures = [] → world'.files.entry staging = none))
      (removeStaging staging) world := by
  have hcall : Ends performs (fun result world' => (result = .ok (some .dir) ∧ world' = world) ∨
      ∃ e, result = .error e ∧ world' = ⟨world.files, world.failures ++ [.stat staging]⟩)
        (perform (.stat staging)) world := by
    refine ends_perform ?_ ?_
    · intro result files hresult
      cases hresult
      exact .inl ⟨congrArg Except.ok hdir, rfl⟩
    · rintro result files ⟨e, he, -⟩ hframe
      obtain rfl : files = world.files :=
        Files.ext fun other => (hframe other).resolve_right fun h => h
      exact .inr ⟨e, he, rfl⟩
  have hlook (look : Option Entry → Bool) : Ends performs (fun result world' =>
    (result = .ok (look (some .dir)) ∧ world' = world) ∨
      ∃ e, result = .error e ∧ world' = ⟨world.files, world.failures ++ [.stat staging]⟩)
      (do pure (look (← perform (.stat staging)))) world := by
    refine Ends.bind hcall ?_ ?_
    · rintro entry world' (⟨hentry, rfl⟩ | ⟨e, he, -⟩)
      · cases hentry
        exact .inl ⟨rfl, rfl⟩
      · cases he
    · rintro e world' (⟨he, -⟩ | ⟨e', -, rfl⟩)
      · cases he
      · exact .inr ⟨e, rfl, rfl⟩
  have hfail : ∃ failures, world.failures ++ [.stat staging] = world.failures ++ failures ∧
      (∀ op ∈ failures, CleansUp staging op) ∧ (failures = [] → world.files.entry staging = none) :=
    ⟨[.stat staging], rfl, fun op hop => .inl (List.mem_singleton.mp hop), fun h =>
      absurd h (List.cons_ne_nil _ _)⟩
  unfold removeStaging
  refine Ends.bind (hlook Option.isSome) ?_ ?_
  · rintro found world' (⟨hfound, rfl⟩ | ⟨e, he, -⟩)
    · cases hfound
      show Ends performs _ (isSymlink staging >>= _) _
      refine Ends.bind (hlook (· == some .link)) ?_ ?_
      · rintro symlink world'' (⟨hsymlink, rfl⟩ | ⟨e, he, -⟩)
        · cases hsymlink
          show Ends performs _ (perform (.rmtree staging true)) _
          refine ends_perform ?_ ?_
          · intro result files hresult
            unfold quiet at hresult
            dsimp only at hresult
            rw [if_pos hdir] at hresult
            cases hresult
            refine ⟨fun path hpath => Files.remove_out hpath, [], (List.append_nil _).symm,
              fun _ h => (nomatch h), fun _ => ?_⟩
            exact Files.remove_below hne List.prefix_rfl
          · intro result files _ hframe
            refine ⟨fun path hpath => (hframe path).resolve_right fun h => hpath h.1, [_], rfl,
              fun op hop => ?_, fun h => ?_⟩
            · exact .inr (List.mem_singleton.mp hop)
            · exact absurd h (List.cons_ne_nil _ _)
        · cases he
      · rintro e world'' (⟨he, -⟩ | ⟨e', -, rfl⟩)
        · cases he
        · exact ⟨fun _ _ => rfl, hfail⟩
    · cases he
  · rintro e world' (⟨he, -⟩ | ⟨e', -, rfl⟩)
    · cases he
    · exact ⟨fun _ _ => rfl, hfail⟩

end ProjectAgent.ObjectStore
