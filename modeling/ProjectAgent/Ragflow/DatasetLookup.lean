/-
`_find_visible_dataset_by_name` against a provider that serves a list of
datasets page by page: when the lookup ends, and what the answer `None` says.

A page without any id is not seen to repeat. The lookup goes on for ever
exactly when the provider repeats such a last page, it is full, no page before
was refused and no dataset has the name.
-/
import Mathlib.Tactic.Linarith
import ProjectAgent.Lib.Evaluated
import ProjectAgent.Ragflow.Adapter

namespace ProjectAgent.Ragflow

open Interleave Interleave.Prog

variable (config : Config) (name : String)

/-! ## One page -/

def Named (item : Fields) : Prop :=
  config.py.casefold (fieldText config.py item "name") = config.py.casefold name

instance (item : Fields) : Decidable (Named config name item) :=
  inferInstanceAs (Decidable (config.py.casefold _ = config.py.casefold _))

/-- `str(item.get("id"))`, where there is one. -/
def idText (item : Fields) : Option String :=
  match item.lookup "id" with
  | none | some .null => none
  | some value => some (value.text config.py)

def idsOf (items : List Fields) : List String := items.filterMap (idText config)

/-- The page has ids, and each of them was seen. -/
def Repeats (items : List Fields) (seen : List String) : Prop :=
  idsOf config items ≠ [] ∧ ∀ id ∈ idsOf config items, id ∈ seen

instance (items : List Fields) (seen : List String) : Decidable (Repeats config items seen) :=
  inferInstanceAs (Decidable (_ ∧ _))

/-- The lookup asks for no page after this one. -/
def Stops (items : List Fields) (seen : List String) : Prop :=
  (∃ item ∈ items, Named config name item) ∨ items.length < 100 ∨ Repeats config items seen

/-! ## The pages one after another -/

/-- The lookup, each page asked for being the one given here. -/
def walk (served : Nat → List Fields) :
    (pages page : Nat) → List String → Except RagflowError (Option Fields)
  | 0, _, _ => .error .notReturned
  | pages + 1, page, seen =>
    match (served page).find? fun item => Named config name item with
    | some item => .ok (some item)
    | none =>
      if (served page).length < 100 then .ok none
      else if Repeats config (served page) seen then
        .error (.protocol "list datasets pagination did not advance")
      else walk served pages (page + 1) (seen ++ idsOf config (served page))

/-- The provider answers with these pages, whatever its state. -/
def Serves {σ : Type} (served : Nat → List Fields)
    (answer : (s : Stmt) → σ → Except RagflowError s.Answer × σ) : Prop :=
  ∀ page σ₀, (answer (.request (.listDatasets page)) σ₀).1 = .ok (.list ((served page).map .dict))

variable {config name} {served : Nat → List Fields}

theorem datasetList_dicts (items : List Fields) :
    datasetList (.list (items.map .dict)) = .ok items := by
  refine congrArg Except.ok ?_
  rw [List.filterMap_map]
  exact List.filterMap_some

theorem eval_find {σ : Type} {answer : (s : Stmt) → σ → Except RagflowError s.Answer × σ}
    (h : Serves served answer) (pages page : Nat) (seen : List String) (σ₀ : σ) :
    (eval answer (findVisibleDatasetByName config name pages page seen) σ₀).1 =
      walk config name served pages page seen := by
  induction pages generalizing page seen σ₀ with
  | zero => rfl
  | succ pages ih =>
    have hasked : eval answer (request (.listDatasets page)) σ₀ =
        (.ok (.list ((served page).map .dict)), (answer (.request (.listDatasets page)) σ₀).2) := by
      rw [request, eval_exec]
      exact Prod.ext (h page σ₀) rfl
    unfold findVisibleDatasetByName walk
    rw [bind_eq, eval_bind_ok hasked, datasetList_dicts]
    change (eval answer (match (served page).find? fun item => Named config name item with
      | some item => _
      | none => _) _).1 = _
    cases hfound : (served page).find? fun item => Named config name item with
    | some item => rfl
    | none =>
      dsimp only
      by_cases hshort : (served page).length < 100
      · rw [if_pos hshort, if_pos hshort]
        rfl
      · rw [if_neg hshort, if_neg hshort]
        have hrepeats : Repeats config (served page) seen ↔
            ¬ (idsOf config (served page)).isEmpty ∧
              (idsOf config (served page)).all (· ∈ seen) := by
          unfold Repeats
          simp
        by_cases hr : Repeats config (served page) seen
        · rw [if_pos hr]
          exact congrArg (fun p => (eval answer p _).1) (if_pos (hrepeats.mp hr))
        · rw [if_neg hr, ← ih]
          exact congrArg (fun p => (eval answer p _).1) (if_neg fun hc => hr (hrepeats.mpr hc))

/-! ## Where the lookup stops -/

/-- The ids seen before the page. -/
def seenBefore (config : Config) (served : Nat → List Fields) (page : Nat) : List String :=
  (List.range' 1 (page - 1)).flatMap fun earlier => idsOf config (served earlier)

theorem seenBefore_one : seenBefore config served 1 = [] := rfl

theorem seenBefore_next {page : Nat} (h : 1 ≤ page) :
    seenBefore config served (page + 1) = seenBefore config served page ++
      idsOf config (served page) := by
  obtain ⟨earlier, rfl⟩ := Nat.exists_eq_add_of_le' h
  unfold seenBefore
  rw [Nat.add_sub_cancel, Nat.add_sub_cancel, List.range'_concat, List.flatMap_append,
    List.flatMap_singleton, Nat.one_mul,
    Nat.add_comm 1 earlier]

theorem find_none (items : List Fields) (h : ¬ ∃ item ∈ items, Named config name item) :
    (items.find? fun item => Named config name item) = none := by
  rw [List.find?_eq_none]
  intro item hmem
  exact fun hnamed => h ⟨item, hmem, of_decide_eq_true hnamed⟩

/-- A page at which it does not stop is passed over. -/
theorem walk_passes {pages page : Nat} {seen : List String}
    (h : ¬ Stops config name (served page) seen) :
    walk config name served (pages + 1) page seen =
      walk config name served pages (page + 1) (seen ++ idsOf config (served page)) := by
  unfold Stops at h
  rw [not_or, not_or] at h
  obtain ⟨hnamed, hshort, hrepeats⟩ := h
  conv_lhs => unfold walk
  rw [find_none _ hnamed]
  dsimp only
  rw [if_neg hshort, if_neg hrepeats]

/-- At a page at which it stops it returns or raises, with any number of pages left. -/
theorem walk_stops {page : Nat} {seen : List String} (h : Stops config name (served page) seen) :
    ∃ r, r ≠ .error .notReturned ∧ ∀ pages, walk config name served (pages + 1) page seen = r := by
  unfold walk
  cases hnone : (served page).find? fun item => Named config name item with
  | some item => exact ⟨.ok (some item), nofun, fun pages => rfl⟩
  | none =>
    rw [List.find?_eq_none] at hnone
    by_cases hshort : (served page).length < 100
    · exact ⟨.ok none, nofun, fun pages => if_pos hshort⟩
    · obtain ⟨item, hmem, hnamed⟩ | h | hrepeats := h
      · exact absurd (decide_eq_true hnamed) (hnone item hmem)
      · exact absurd h hshort
      · refine ⟨.error (.protocol "list datasets pagination did not advance"), nofun,
          fun pages => ?_⟩
        exact (if_neg hshort).trans (if_pos hrepeats)

/-- `StopsAt` a page it comes to. -/
def StopsAt (config : Config) (name : String) (served : Nat → List Fields) (page : Nat) : Prop :=
  Stops config name (served page) (seenBefore config served page)

theorem walk_reaches {page : Nat} (hpage : 1 ≤ page) (passed pages : Nat)
    (h : ∀ earlier, page ≤ earlier → earlier < page + passed →
      ¬ StopsAt config name served earlier) :
    walk config name served (pages + passed) page (seenBefore config served page) =
      walk config name served pages (page + passed) (seenBefore config served (page + passed)) := by
  induction passed generalizing page with
  | zero => rfl
  | succ passed ih =>
    have hfirst := h page le_rfl (by omega)
    rw [← Nat.add_assoc, walk_passes hfirst, ← seenBefore_next hpage, ih (by omega)]
    · rw [show page + 1 + passed = page + (passed + 1) by omega]
    · intro earlier hle hlt
      exact h earlier (by omega) (by omega)

/-- **It returns or raises exactly if it comes to a page at which it stops.** -/
theorem walk_returns_iff :
    (∃ pages r, r ≠ .error .notReturned ∧ ∀ more, pages ≤ more →
      walk config name served more 1 [] = r) ↔
      ∃ page, 1 ≤ page ∧ StopsAt config name served page := by
  classical
  constructor
  · rintro ⟨pages, r, hr, hwalk⟩
    by_contra hnever
    rw [not_exists] at hnever
    have hpasses : walk config name served (0 + pages) 1 (seenBefore config served 1) =
        walk config name served 0 (1 + pages) _ :=
      walk_reaches le_rfl pages 0 fun earlier hle _ hstops => hnever earlier ⟨hle, hstops⟩
    rw [Nat.zero_add, seenBefore_one, hwalk pages le_rfl] at hpasses
    exact hr hpasses
  · intro hexists
    obtain ⟨hpage, hstops⟩ := Nat.find_spec hexists
    have hbefore := fun earlier (hle : 1 ≤ earlier) hlt hstops =>
      Nat.find_min hexists hlt ⟨hle, hstops⟩
    generalize Nat.find hexists = page at hpage hstops hbefore
    obtain ⟨passed, rfl⟩ := Nat.exists_eq_add_of_le hpage
    obtain ⟨r, hr, hwalk⟩ := walk_stops hstops
    refine ⟨passed + 1, r, hr, fun more hmore => ?_⟩
    obtain ⟨pages, rfl⟩ := Nat.exists_eq_add_of_le' hmore
    have hpasses : walk config name served (pages + 1 + passed) 1 (seenBefore config served 1) =
        walk config name served (pages + 1) (1 + passed) _ :=
          walk_reaches le_rfl passed (pages + 1) hbefore
    rw [seenBefore_one, hwalk pages] at hpasses
    rw [← hpasses, Nat.add_right_comm, Nat.add_assoc]

/-- Where `None` is returned a short page was served, and no page up to it has the name. -/
theorem walk_none {pages page : Nat} {seen : List String}
    (h : walk config name served pages page seen = .ok none) :
    ∃ last, page ≤ last ∧ (served last).length < 100 ∧
      ∀ asked, page ≤ asked → asked ≤ last → ∀ item ∈ served asked, ¬ Named config name item := by
  induction pages generalizing page seen with
  | zero => cases h
  | succ pages ih =>
    unfold walk at h
    split at h
    · cases h
    · next hfound =>
      rw [List.find?_eq_none] at hfound
      have hhere : ∀ item ∈ served page, ¬ Named config name item :=
        fun item hmem hnamed => hfound item hmem (decide_eq_true hnamed)
      split_ifs at h with hshort hrepeats
      · refine ⟨page, le_rfl, hshort, fun asked hle hge => ?_⟩
        rw [Nat.le_antisymm hge hle]
        exact hhere
      · obtain ⟨last, hle, hlast, hnames⟩ := ih h
        refine ⟨last, by omega, hlast, fun asked hasked hlastAsked => ?_⟩
        rcases Nat.eq_or_lt_of_le hasked with rfl | hlt
        · exact hhere
        · exact hnames asked hlt hlastAsked

/-! ## A list served in pages -/

structure Listing where
  items : List Fields
  /-- For a page number past the end: the last page is served again. -/
  again : Nat → Bool

namespace Listing

variable (listing : Listing)

def slice (number : Nat) : List Fields := (listing.items.drop ((number - 1) * 100)).take 100

def lastPage : Nat := max 1 ((listing.items.length + 99) / 100)

def page (number : Nat) : List Fields :=
  if listing.lastPage < number ∧ listing.again number then listing.slice listing.lastPage
    else listing.slice number

/-- The last page is full and without ids, it is served again for ever, and no page up to it ends
the lookup. -/
structure Endless (config : Config) (name : String) (listing : Listing) : Prop where
  unnamed : ∀ item ∈ listing.items, ¬ Named config name item
  full : 0 < listing.items.length ∧ 100 ∣ listing.items.length
  advances : ∀ number, 1 ≤ number → number ≤ listing.lastPage →
    ¬ Repeats config (listing.slice number) (idsOf config (listing.items.take ((number - 1) * 100)))
  withoutIds : idsOf config (listing.slice listing.lastPage) = []
  again : ∀ number, listing.lastPage < number → listing.again number

variable {listing}

theorem page_up_to_last {number : Nat} (h : number ≤ listing.lastPage) :
    listing.page number = listing.slice number :=
  if_neg fun hc => absurd hc.1 (Nat.not_lt.mpr h)

theorem page_again {number : Nat} (h : listing.lastPage < number) (hagain : listing.again number) :
    listing.page number = listing.slice listing.lastPage :=
  if_pos ⟨h, hagain⟩

theorem slice_past_last {number : Nat} (h : listing.lastPage < number) :
    listing.slice number = [] := by
  unfold slice
  unfold lastPage at h
  rw [List.drop_eq_nil_of_le (by omega), List.take_nil]

theorem mem_of_mem_slice {number : Nat} {item : Fields} (h : item ∈ listing.slice number) :
    item ∈ listing.items :=
  List.mem_of_mem_drop (List.mem_of_mem_take h)

theorem slice_length (number : Nat) :
    (listing.slice number).length = min 100 (listing.items.length - (number - 1) * 100) := by
  rw [slice, List.length_take, List.length_drop]

/-- An item of the list is on one of its pages, and the pages before that one are full. -/
theorem on_a_page {item : Fields} (h : item ∈ listing.items) :
    ∃ number, 1 ≤ number ∧ number ≤ listing.lastPage ∧
    item ∈ listing.slice number ∧ ∀ earlier, 1 ≤ earlier → earlier < number →
      (listing.slice earlier).length = 100 := by
  obtain ⟨i, hi, rfl⟩ := List.getElem_of_mem h
  refine ⟨i / 100 + 1, by omega, ?_, ?_, ?_⟩
  · unfold lastPage
    omega
  · unfold slice
    rw [Nat.add_sub_cancel]
    refine List.mem_of_getElem? (i := i % 100) ?_
    rw [List.getElem?_take, if_pos (Nat.mod_lt i (by omega)), List.getElem?_drop,
      Nat.div_add_mod' i 100,
      List.getElem?_eq_getElem hi]
  · intro earlier hone hearlier
    rw [slice_length]
    omega

theorem seenBefore_page {number : Nat} (hone : 1 ≤ number) (hlast : number ≤ listing.lastPage + 1) :
    seenBefore config listing.page number =
      idsOf config (listing.items.take ((number - 1) * 100)) := by
  induction number, hone using Nat.le_induction with
  | base => rfl
  | succ number hone ih =>
    rw [seenBefore_next hone, ih (by omega), page_up_to_last (by omega)]
    unfold idsOf slice
    rw [← List.filterMap_append, ← List.take_add]
    rw [show (number - 1) * 100 + 100 = (number + 1 - 1) * 100 by omega]

theorem stopsAt_iff {number : Nat} (hone : 1 ≤ number) (hlast : number ≤ listing.lastPage) :
    StopsAt config name listing.page number ↔
      Stops config name (listing.slice number)
        (idsOf config (listing.items.take ((number - 1) * 100))) := by
  unfold StopsAt
  rw [seenBefore_page hone (by omega), page_up_to_last hlast]

theorem Endless.never_stops (h : Endless config name listing) {number : Nat} (hone : 1 ≤ number) :
    ¬ StopsAt config name listing.page number := by
  obtain ⟨hpositive, hundreds⟩ := h.full
  have hcount : listing.lastPage * 100 = listing.items.length := by
    unfold lastPage
    omega
  by_cases hlast : number ≤ listing.lastPage
  · rw [stopsAt_iff hone hlast]
    rintro (⟨item, hmem, hnamed⟩ | hshort | hrepeats)
    · exact h.unnamed item (mem_of_mem_slice hmem) hnamed
    · rw [slice_length] at hshort
      omega
    · exact h.advances number hone hlast hrepeats
  · rw [not_le] at hlast
    unfold StopsAt
    rw [page_again hlast (h.again number hlast)]
    rintro (⟨item, hmem, hnamed⟩ | hshort | hrepeats)
    · exact h.unnamed item (mem_of_mem_slice hmem) hnamed
    · rw [slice_length] at hshort
      omega
    · exact hrepeats.1 h.withoutIds

theorem endless_of_never (h : ∀ number, 1 ≤ number → ¬ StopsAt config name listing.page number) :
    Endless config name listing := by
  have hup : ∀ number, 1 ≤ number → number ≤ listing.lastPage →
      ¬ Stops config name (listing.slice number)
        (idsOf config (listing.items.take ((number - 1) * 100))) :=
    fun number hone hlast hstops => h number hone ((stopsAt_iff hone hlast).mpr hstops)
  have hlastOne : 1 ≤ listing.lastPage := Nat.le_max_left _ _
  have hagain : ∀ number, listing.lastPage < number → listing.again number := by
    intro number hlt
    by_contra hnot
    refine h number (by omega) (.inr (.inl ?_))
    rw [page, if_neg fun hc => hnot hc.2, slice_past_last hlt]
    decide
  have hfull : 100 ≤ (listing.slice listing.lastPage).length :=
    Nat.not_lt.mp fun hshort => hup _ hlastOne le_rfl (.inr (.inl hshort))
  rw [slice_length] at hfull
  have hcount : listing.lastPage * 100 = listing.items.length := by
    unfold lastPage at hfull ⊢
    omega
  refine ⟨fun item hmem hnamed => ?_, by omega, fun number hone hlast hrepeats => ?_, ?_, hagain⟩
  · obtain ⟨number, hone, hlast, hslice, -⟩ := on_a_page hmem
    exact hup number hone hlast (.inl ⟨item, hslice, hnamed⟩)
  · exact hup number hone hlast (.inr (.inr hrepeats))
  · by_contra hids
    refine h (listing.lastPage + 1) (by omega) (.inr (.inr ?_))
    rw [seenBefore_page (by omega) le_rfl, page_again (by omega) (hagain _ (by omega)),
      Nat.add_sub_cancel, hcount,
      List.take_length]
    refine ⟨hids, fun id hid => ?_⟩
    obtain ⟨item, hmem, hitem⟩ := List.mem_filterMap.mp hid
    exact List.mem_filterMap.mpr ⟨item, mem_of_mem_slice hmem, hitem⟩

/-- Up to a short page every item of the list is served. -/
theorem covered {last : Nat} (hone : 1 ≤ last) (hshort : (listing.page last).length < 100)
    {item : Fields} (hmem : item ∈ listing.items) :
    ∃ asked, 1 ≤ asked ∧ asked ≤ last ∧ item ∈ listing.page asked := by
  obtain ⟨number, hnumber, hlast, hslice, hfull⟩ := on_a_page hmem
  by_cases hle : number ≤ last
  · refine ⟨number, hnumber, hle, ?_⟩
    rw [page_up_to_last hlast]
    exact hslice
  · rw [page_up_to_last (by omega), hfull last hone (by omega)] at hshort
    exact absurd hshort (lt_irrefl 100)

/-- `None` says that no dataset of the list has the name. -/
theorem none_complete {pages : Nat} (h : walk config name listing.page pages 1 [] = .ok none) :
    ∀ item ∈ listing.items, ¬ Named config name item := by
  obtain ⟨last, hone, hshort, hnames⟩ := walk_none h
  intro item hmem
  obtain ⟨asked, hasked, hle, hpage⟩ := covered hone hshort hmem
  exact hnames asked hasked hle item hpage

end Listing

/-! ## The lookup -/

section Lookup

variable {σ : Type} (config : Config) (name : String) (answer : (s : Stmt) → σ →
  Except RagflowError s.Answer × σ) (σ₀ : σ)

/-- The lookup with this many pages at most. -/
def lookup (pages : Nat) : Except RagflowError (Option Fields) :=
  (eval answer (findVisibleDatasetByName config name pages 1 []) σ₀).1

/-- Some number of pages is enough, and more of them change nothing. -/
def Returns : Prop :=
  ∃ pages r, r ≠ .error .notReturned ∧ ∀ more, pages ≤ more → lookup config name answer σ₀ more = r

/-- `None` is returned only if no dataset of the list has the name. -/
def NoneComplete (listing : Listing) : Prop :=
  ∀ pages, lookup config name answer σ₀ pages = .ok none →
    ∀ item ∈ listing.items, ¬ Named config name item

variable {config name answer σ₀} in
theorem returns_iff_stops {served : Nat → List Fields} (h : Serves served answer) :
    Returns config name answer σ₀ ↔ ∃ page, 1 ≤ page ∧ StopsAt config name served page := by
  rw [← walk_returns_iff]
  unfold Returns lookup
  simp only [eval_find h]

/-- **The lookup ends, and its `None` is right, exactly if the provider does not go on for ever with
full pages without ids.** -/
theorem dataset_lookup (listing : Listing) (h : Serves listing.page answer) :
    Returns config name answer σ₀ ∧ NoneComplete config name answer σ₀ listing ↔
      ¬ listing.Endless config name := by
  have hcomplete : NoneComplete config name answer σ₀ listing := by
    intro pages hnone
    rw [lookup, eval_find h] at hnone
    exact Listing.none_complete hnone
  rw [returns_iff_stops h, and_iff_left hcomplete]
  constructor
  · rintro ⟨page, hone, hstops⟩ hendless
    exact hendless.never_stops hone hstops
  · intro hends
    by_contra hnever
    rw [not_exists] at hnever
    exact hends (Listing.endless_of_never fun number hone hstops => hnever number ⟨hone, hstops⟩)

end Lookup

/-- The provider of the list; the pages it was asked for are its state. -/
def Listing.answer (listing : Listing) :
    (s : Stmt) → List Nat → Except RagflowError s.Answer × List Nat
  | .request (.listDatasets page), asked =>
    (.ok (.list ((listing.page page).map .dict)), asked ++ [page])
  | _, asked => (.error (.raised "not found"), asked)

theorem Listing.serves (listing : Listing) : Serves listing.page listing.answer := fun _ _ => rfl

/-- The language on ASCII texts. -/
def asciiConfig : Config where
  py := {
    repr := fun
      | .null => "None"
      | .bool value => if value then "True" else "False"
      | .int value => toString value
      | _ => ""
    float := fun _ => none
    casefold := fun text => String.ofList (text.toList.map Char.toLower)
    isPlainName := fun _ => true }
  objectStore := true
  embeddingModel := none
  chunkMethod := "naive"
  pages := 1000

def twoDatasets : Listing where
  items := [[("id", .str "a"), ("name", .str "Alpha")], [("id", .str "b"), ("name", .str "Beta")]]
  again := fun _ => true

theorem dataset_lookup_sample : Returns asciiConfig "gamma" twoDatasets.answer [] ∧
    NoneComplete asciiConfig "gamma" twoDatasets.answer [] twoDatasets :=
  (dataset_lookup asciiConfig "gamma" twoDatasets.answer [] twoDatasets twoDatasets.serves).mpr
    fun h => absurd h.full.2 (by decide)

/-- A hundred datasets without ids, served again whatever page is asked for. -/
def hundredDatasets : Listing where
  items := List.replicate 100 [("name", .str "Alpha")]
  again := fun _ => true

theorem hundredDatasets_endless : hundredDatasets.Endless asciiConfig "gamma" := by
  have hids : ∀ items : List Fields, (∀ item ∈ items, item ∈ hundredDatasets.items) →
      idsOf asciiConfig items = [] := by
    intro items hitems
    refine List.filterMap_eq_nil_iff.mpr fun item hmem => ?_
    rw [List.eq_of_mem_replicate (hitems item hmem)]
    rfl
  refine ⟨fun item hmem => ?_, by decide, fun number _ _ hrepeats => ?_, ?_, fun _ _ => rfl⟩
  · rw [List.eq_of_mem_replicate hmem]
    decide
  · exact hrepeats.1 (hids _ fun item hmem => Listing.mem_of_mem_slice hmem)
  · exact hids _ fun item hmem => Listing.mem_of_mem_slice hmem

theorem hundred_without_ids_go_on : ¬ (Returns asciiConfig "gamma" hundredDatasets.answer [] ∧
    NoneComplete asciiConfig "gamma" hundredDatasets.answer [] hundredDatasets) := by
  rintro ⟨hreturns, -⟩
  obtain ⟨page, hone, hstops⟩ := (returns_iff_stops hundredDatasets.serves).mp hreturns
  exact hundredDatasets_endless.never_stops hone hstops

end ProjectAgent.Ragflow
