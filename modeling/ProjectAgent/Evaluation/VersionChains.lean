/-
The walks along `supersedes_doc_code`. The loader looks at no link: it refuses a
code that is there twice, and nothing else. Whether the walks end, and whether
their ends are the keys of different versions, is in the corpus alone.
-/
import ProjectAgent.Evaluation.Artifacts
import ProjectAgent.Evaluation.Prepare
import ProjectAgent.Lib.Chain

namespace ProjectAgent.Evaluation

abbrev Corpus := List (String × CorpusDocument)

/-- The rows that `_load_documents` reads, with the documents so far. -/
def loadRows (documents : Corpus) : Corpus → Except Error Corpus
  | [] => .ok documents
  | (docCode, document) :: rows =>
    if docCode ∈ documents.map Prod.fst then
      .error (.valueError s!"duplicate corpus doc_code: {docCode}")
    else loadRows (documents ++ [(docCode, document)]) rows

/-- `_load_documents`. -/
def loadDocuments (rows : Corpus) : Except Error Corpus := do
  let documents ← loadRows [] rows
  .ok (documents.insertionSort fun (left right : String × CorpusDocument) => left.1 ≤ right.1)

theorem loadRows_eq_ok {documents rows loaded : Corpus} (hnodup : (documents.map Prod.fst).Nodup) :
    loadRows documents rows = .ok loaded ↔ ((documents ++ rows).map Prod.fst).Nodup ∧
      loaded = documents ++ rows := by
  induction rows generalizing documents with
  | nil =>
    rw [List.append_nil, and_iff_right hnodup]
    exact ⟨fun h => (Except.ok.inj h).symm, fun h => congrArg Except.ok h.symm⟩
  | cons row rows ih =>
    obtain ⟨docCode, document⟩ := row
    unfold loadRows
    by_cases hthere : docCode ∈ documents.map Prod.fst
    · rw [if_pos hthere]
      refine ⟨fun h => (nomatch h), fun h => ?_⟩
      have hdisjoint := (List.nodup_append.mp (List.map_append ▸ h.1)).2.2
      exact absurd rfl (hdisjoint docCode hthere docCode List.mem_cons_self)
    · have hnodup' : ((documents ++ [(docCode, document)]).map Prod.fst).Nodup := by
        rw [List.map_append, List.map_singleton]
        exact List.Nodup.append hnodup (List.nodup_singleton docCode)
          (List.disjoint_singleton.mpr hthere)
      rw [if_neg hthere, ih hnodup', List.append_assoc, List.singleton_append]

/-- **What the loader accepts**: the rows no two of which have one code, and it puts them in the
order of their codes. -/
theorem loadDocuments_eq_ok {rows documents : Corpus} :
    loadDocuments rows = .ok documents ↔ (rows.map Prod.fst).Nodup ∧
    documents = rows.insertionSort fun (left right : String × CorpusDocument) =>
      left.1 ≤ right.1 := by
  have hrows (loaded : Corpus) : loadRows [] rows = .ok loaded ↔
      (rows.map Prod.fst).Nodup ∧ loaded = rows :=
    @loadRows_eq_ok [] rows loaded List.nodup_nil
  unfold loadDocuments
  rw [Fallible.bind_eq_ok]
  constructor
  · rintro ⟨loaded, hloaded, h⟩
    obtain ⟨hnodup, rfl⟩ := (hrows loaded).mp hloaded
    exact ⟨hnodup, (Except.ok.inj h).symm⟩
  · rintro ⟨hnodup, rfl⟩
    exact ⟨rows, (hrows rows).mpr ⟨hnodup, rfl⟩, rfl⟩

/-- `project_docs`, as `prepare_v0` and `verify_fixture_state` have it. -/
def projectDocs (documents : Corpus) : Corpus :=
  documents.filter fun item => projectCodes.contains item.2.projectCode

/-- `documents[code].supersedes_doc_code`, if the code is known. -/
def links (documents : Corpus) : Chain.Links String :=
  fun code => (documents.lookup code).map (·.supersedesDocCode)

/-- `_root_doc_code`, and the walk of `verify_fixture_state`, for so many turns of the loop. -/
def rootDocCode (documents : Corpus) (fuel : Nat) (code : String) : Option (Except Error String) :=
  match Chain.follow (links documents) fuel code 0 with
  | .running => none
  | .unknown at_ => some (.error (.keyError at_))
  | .ended root _ => some (.ok root)

/-- `_version_no`. -/
def versionNo (documents : Corpus) (fuel : Nat) (code : String) : Option (Except Error Nat) :=
  match Chain.follow (links documents) fuel code 1 with
  | .running => none
  | .unknown at_ => some (.error (.keyError at_))
  | .ended _ number => some (.ok number)

/-- The document and the number that a version gets. -/
def Version (documents : Corpus) (code root : String) (number : Nat) : Prop :=
  ∃ fuel, rootDocCode documents fuel code = some (.ok root) ∧
    versionNo documents fuel code = some (.ok number)

/-- Every walk ends, at a code that is known. -/
def WalksEnd (documents : Corpus) : Prop :=
  ∀ code ∈ documents.map Prod.fst, ∃ root number, Version documents code root number

/-- Different codes are different versions. -/
def VersionsDiffer (documents : Corpus) : Prop :=
  ∀ code code' root number, Version documents code root number →
    Version documents code' root number → code = code'

def Supersedes (documents : Corpus) (code parent : String) : Prop :=
  Chain.Next (links documents) code parent

variable {documents : Corpus} {code root : String} {number : Nat}

theorem version_iff :
    Version documents code root number ↔ ∃ n, number = n + 1 ∧
      Chain.Ends (links documents) code root n := by
  unfold Version rootDocCode versionNo
  constructor
  · rintro ⟨fuel, hroot, hnumber⟩
    split at hroot
    · cases hroot
    · cases hroot
    · next root' steps hfollow =>
      cases hroot
      split at hnumber
      · cases hnumber
      · cases hnumber
      · next root'' number' hfollow' =>
        cases hnumber
        obtain ⟨n, hends, -⟩ := Chain.follow_ends hfollow
        obtain ⟨m, hends', rfl⟩ := Chain.follow_ends hfollow'
        obtain ⟨-, rfl⟩ := hends.unique hends'
        exact ⟨n, Nat.add_comm 1 n, hends⟩
  · rintro ⟨n, rfl, hends⟩
    refine ⟨n + 1, ?_, ?_⟩
    · rw [hends.follow]
    · rw [hends.follow, Nat.add_comm]

theorem mem_codes : code ∈ documents.map Prod.fst ↔ (links documents code).isSome := by
  unfold links
  rw [Option.isSome_map]
  induction documents with
  | nil => exact ⟨nofun, nofun⟩
  | cons item documents ih =>
    obtain ⟨docCode, document⟩ := item
    rw [List.map_cons, List.mem_cons, ih, List.lookup_cons]
    by_cases hsame : code = docCode
    · subst hsame
      simp
    · have hbeq : (code == docCode) = false := by simpa using hsame
      rw [hbeq, or_iff_right hsame]

/-- **The walks and the versions of a corpus**: the loader refuses a code that is there twice, and
nothing else; every walk ends at a known code just where every link leads to one and none comes
back; and then the versions differ just where no document is superseded by two. -/
theorem version_chains :
    (∀ rows documents, loadDocuments rows = .ok documents ↔ (rows.map Prod.fst).Nodup ∧
      documents = rows.insertionSort fun (left right : String × CorpusDocument) =>
        left.1 ≤ right.1) ∧
    (WalksEnd documents ↔ (∀ code parent, Supersedes documents code parent →
      parent ∈ documents.map Prod.fst) ∧
      ∀ code, ¬ Relation.TransGen (Supersedes documents) code code) ∧
    (WalksEnd documents → (VersionsDiffer documents ↔
      ∀ code code' parent, Supersedes documents code parent → Supersedes documents code' parent →
        code = code')) := by
  have hwalks : WalksEnd documents ↔ ∀ code ∈ documents.map Prod.fst, ∃ root n,
      Chain.Ends (links documents) code root n := by
    refine forall₂_congr fun code _ => exists_congr fun root => ?_
    constructor
    · rintro ⟨number, hversion⟩
      obtain ⟨n, -, hends⟩ := version_iff.mp hversion
      exact ⟨n, hends⟩
    · rintro ⟨n, hends⟩
      exact ⟨n + 1, version_iff.mpr ⟨n, rfl, hends⟩⟩
  refine ⟨fun _ _ => loadDocuments_eq_ok, hwalks.trans (Chain.all_end fun code => mem_codes),
    fun hend => ?_⟩
  have hdiffer : VersionsDiffer documents ↔
    ∀ code code' root n, Chain.Ends (links documents) code root n →
      Chain.Ends (links documents) code' root n → code = code' := by
    constructor
    · intro hversions code code' root n hends hends'
      exact hversions code code' root (n + 1) (version_iff.mpr ⟨n, rfl, hends⟩)
        (version_iff.mpr ⟨n, rfl, hends'⟩)
    · intro hall code code' root number hversion hversion'
      obtain ⟨n, rfl, hends⟩ := version_iff.mp hversion
      obtain ⟨m, hm, hends'⟩ := version_iff.mp hversion'
      cases hm
      exact hall code code' root n hends hends'
  rw [hdiffer, Chain.ends_injective]
  constructor
  · intro hall code code' parent hcode hcode'
    obtain ⟨hclosed, -⟩ := (Chain.all_end fun code => mem_codes).mp (hwalks.mp hend)
    obtain ⟨root, n, hends⟩ := hwalks.mp hend parent (hclosed code parent hcode)
    exact hall code code' parent root n hcode hcode' hends
  · exact fun hall code code' parent _ _ hcode hcode' _ => hall code code' parent hcode hcode'

/-- A document that supersedes itself. -/
def loopRows : Corpus := [("A-REQ-001", ⟨"PRJ-RETAIL-ALPHA", some "A-REQ-001"⟩)]

/-- Two documents that supersede a third one. -/
def forkRows : Corpus :=
  [("A-REQ-001", ⟨"PRJ-RETAIL-ALPHA", none⟩), ("A-REQ-002", ⟨"PRJ-RETAIL-ALPHA", some "A-REQ-001"⟩),
  ("A-REQ-003", ⟨"PRJ-RETAIL-ALPHA", some "A-REQ-001"⟩)]

/-- **The loader accepts both**, a walk that does not end and a key that is there twice. -/
theorem loaded_chains_fail :
    (¬ ∀ rows documents, loadDocuments rows = .ok documents → WalksEnd (projectDocs documents)) ∧
    ¬ ∀ rows documents, loadDocuments rows = .ok documents →
      VersionsDiffer (projectDocs documents) := by
  constructor
  · intro hall
    obtain ⟨root, number, hversion⟩ := hall loopRows loopRows rfl "A-REQ-001" (by decide)
    obtain ⟨n, -, hends⟩ := version_iff.mp hversion
    exact hends.acyclic (.single rfl)
  · intro hall
    have hsame := hall forkRows forkRows rfl "A-REQ-002" "A-REQ-003" "A-REQ-001" 2
      ⟨2, by decide, by decide⟩ ⟨2, by decide, by decide⟩
    exact absurd hsame (by decide)

/-- A document and the one that supersedes it. -/
def chainRows : Corpus :=
  [("A-REQ-001", ⟨"PRJ-RETAIL-ALPHA", some "A-REQ-001-OLD"⟩),
    ("A-REQ-001-OLD", ⟨"PRJ-RETAIL-ALPHA", none⟩)]

theorem version_chains_sample : VersionsDiffer (projectDocs chainRows) := by
  have hend : WalksEnd (projectDocs chainRows) := by
    intro code hcode
    have hcode : code ∈ ["A-REQ-001", "A-REQ-001-OLD"] := hcode
    rcases List.mem_cons.mp hcode with rfl | hcode
    · exact ⟨"A-REQ-001-OLD", 2, 2, by decide, by decide⟩
    · cases List.mem_singleton.mp hcode
      exact ⟨"A-REQ-001-OLD", 1, 1, by decide, by decide⟩
  have honly : ∀ code parent, Supersedes (projectDocs chainRows) code parent →
      code = "A-REQ-001" := by
    intro code parent hlink
    have hcode : code ∈ ["A-REQ-001", "A-REQ-001-OLD"] := mem_codes.mpr (by rw [hlink]; rfl)
    rcases List.mem_cons.mp hcode with rfl | hcode
    · rfl
    · cases List.mem_singleton.mp hcode
      cases hlink
  exact (version_chains.2.2 hend).mpr fun code code' parent hlink hlink' =>
    (honly code parent hlink).trans (honly code' parent hlink').symm

end ProjectAgent.Evaluation
