/-
Following links from one element to the next until one has none. An element may
be unknown, and then there is nowhere to go.
-/
import Mathlib.Data.Fintype.EquivFin
import Mathlib.Data.Set.Finite.List
import Mathlib.Logic.Relation
import Mathlib.Order.WellFounded

namespace Chain

variable {α : Type}

/-- The link of an element that is known. -/
abbrev Links (α : Type) := α → Option (Option α)

inductive Outcome (α : Type) where
  | running
  | unknown (at_ : α)
  | ended (last : α) (steps : Nat)

/-- The walk, for so many turns of the loop. -/
def follow (links : Links α) : Nat → α → Nat → Outcome α
  | 0, _, _ => .running
  | fuel + 1, a, steps =>
    match links a with
    | none => .unknown a
    | some none => .ended a steps
    | some (some next) => follow links fuel next (steps + 1)

def Next (links : Links α) (a b : α) : Prop := links a = some (some b)

/-- The walk ends there, after so many links. -/
inductive Ends (links : Links α) : α → α → Nat → Prop where
  | last {a} : links a = some none → Ends links a a 0
  | next {a b c n} : links a = some (some b) → Ends links b c n → Ends links a c (n + 1)

variable {links : Links α} {a b c d : α} {n m fuel steps : Nat}

theorem Ends.follow (h : Ends links a c n) :
    follow links (n + 1) a steps = .ended c (steps + n) := by
  induction h generalizing steps with
  | last hlast =>
    unfold Chain.follow
    rw [hlast]
    rfl
  | next hnext _ ih =>
    unfold Chain.follow
    rw [hnext]
    dsimp only
    rw [ih, Nat.add_assoc, Nat.add_comm 1]

theorem follow_ends (h : follow links fuel a steps = .ended c m) :
    ∃ n, Ends links a c n ∧ m = steps + n := by
  induction fuel generalizing a steps with
  | zero => cases h
  | succ fuel ih =>
    unfold follow at h
    split at h
    · cases h
    · next hlast =>
      cases h
      exact ⟨0, .last hlast, rfl⟩
    · next next hnext =>
      obtain ⟨n, hends, rfl⟩ := ih h
      exact ⟨n + 1, .next hnext hends, by omega⟩

theorem Ends.unique (h : Ends links a c n) (h' : Ends links a d m) : c = d ∧ n = m := by
  induction h generalizing m with
  | last hlast =>
    cases h' with
    | last => exact ⟨rfl, rfl⟩
    | next hnext => cases hlast.symm.trans hnext
  | next hnext _ ih =>
    cases h' with
    | last hlast => cases hlast.symm.trans hnext
    | next hnext' hends =>
      cases hnext.symm.trans hnext'
      obtain ⟨rfl, rfl⟩ := ih hends
      exact ⟨rfl, rfl⟩

/-- **No two ends alike**: walks that end in the same place after as many links are the same walk,
just where no two elements have the same link. -/
theorem ends_injective : (∀ a b c n, Ends links a c n → Ends links b c n → a = b) ↔
    ∀ a b p c n, Next links a p → Next links b p → Ends links p c n → a = b := by
  constructor
  · exact fun hinj a b p c n ha hb hends => hinj a b c (n + 1) (.next ha hends) (.next hb hends)
  · intro hbranch a b c n ha
    induction ha generalizing b with
    | last _ =>
      intro hb
      cases hb
      rfl
    | next hnext hends ih =>
      intro hb
      cases hb with
      | next hnext' hends' =>
        cases ih _ hends'
        exact hbranch _ _ _ _ _ hnext hnext' hends

/-- A walk that ends never comes back. -/
theorem Ends.acyclic (h : Ends links a c n) : ¬ Relation.TransGen (Next links) a a := by
  have hless : ∀ {b : α}, Relation.TransGen (Next links) a b → ∃ k < n, Ends links b c k := by
    intro b hb
    induction hb with
    | single hnext =>
      cases h with
      | last hlast => cases hlast.symm.trans hnext
      | next hnext' hends =>
        cases hnext.symm.trans hnext'
        exact ⟨_, Nat.lt_succ_self _, hends⟩
    | tail _ hnext ih =>
      obtain ⟨k, hk, hends⟩ := ih
      cases hends with
      | last hlast => cases hlast.symm.trans hnext
      | next hnext' hends =>
        cases hnext.symm.trans hnext'
        exact ⟨_, (Nat.lt_succ_self _).trans hk, hends⟩
  intro hcycle
  obtain ⟨k, hk, hends⟩ := hless hcycle
  exact absurd (hends.unique h).2 hk.ne

/-- **Every walk ends**, of finitely many known elements, just where every link leads to a known one
and none comes back. -/
theorem all_end {known : List α} (hknown : ∀ a, a ∈ known ↔ (links a).isSome) :
    (∀ a ∈ known, ∃ c n, Ends links a c n) ↔
      (∀ a b, Next links a b → b ∈ known) ∧ ∀ a, ¬ Relation.TransGen (Next links) a a := by
  constructor
  · intro hall
    refine ⟨fun a b hnext => ?_, fun a hcycle => ?_⟩
    · obtain ⟨c, n, hends⟩ := hall a ((hknown a).mpr (by rw [hnext]; rfl))
      cases hends with
      | last hlast => cases hlast.symm.trans hnext
      | next hnext' hends =>
        cases hnext.symm.trans hnext'
        rw [hknown]
        cases hends with
        | last hlast => rw [hlast]; rfl
        | next hnext _ => rw [hnext]; rfl
    · obtain ⟨b, hnext, -⟩ := Relation.TransGen.head'_iff.mp hcycle
      obtain ⟨c, n, hends⟩ := hall a ((hknown a).mpr (by rw [hnext]; rfl))
      exact hends.acyclic hcycle
  · rintro ⟨hclosed, hacyclic⟩
    have hfinite : Finite { a // a ∈ known } := (List.finite_toSet known).to_subtype
    let Later (x y : { a // a ∈ known }) : Prop := Relation.TransGen (Next links) y.val x.val
    have htrans : IsTrans _ Later := ⟨fun _ _ _ hxy hyz => hyz.trans hxy⟩
    have hirrefl : Std.Irrefl Later := ⟨fun x => hacyclic x.val⟩
    have hall : ∀ x : { a // a ∈ known }, ∃ c n, Ends links x.val c n := by
      intro x
      induction x using (Finite.wellFounded_of_trans_of_irrefl Later).induction with
      | h x ih =>
        obtain ⟨link, hlink⟩ := Option.isSome_iff_exists.mp ((hknown x.val).mp x.property)
        cases link with
        | none => exact ⟨x.val, 0, .last hlink⟩
        | some next =>
          obtain ⟨c, n, hends⟩ := ih ⟨next, hclosed x.val next hlink⟩ (.single hlink)
          exact ⟨c, n + 1, .next hlink hends⟩
    exact fun a ha => hall ⟨a, ha⟩

end Chain
