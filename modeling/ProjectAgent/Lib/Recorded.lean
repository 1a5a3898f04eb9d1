/-
A machine whose statements are put on record, with what they were answered and
the newest first. Nothing the machine does depends on the record: a run is the
machine's own, with a record kept beside it. What a program is answered stays
on record for ever, so a specification over a recorded machine may rely on no
more than that the record grows.
-/
import ProjectAgent.Lib.Machine

namespace Interleave

variable {S : Type} {R : S → Type} {ε σ K C E α : Type}

/-- A statement and what it was answered. -/
abbrev Answered (S : Type) (R : S → Type) (ε : Type) := (s : S) × Except ε (R s)

def Machine.recorded (M : Machine S R ε σ K C E) :
    Machine S R ε (σ × List (Answered S R ε)) K C E where
  start k pid x := (M.start k pid x.1).map fun (p, σ₁) => (p, σ₁, x.2)
  exec pid s c x := (M.exec pid s c x.1).map fun (r, σ₁) => (r, σ₁, ⟨s, r⟩ :: x.2)
  finish pid r x := (M.finish pid r x.1, x.2)
  kill pid x := (M.kill pid x.1, x.2)
  env e x := (M.env e x.1).map fun σ₁ => (σ₁, x.2)

namespace World

/-- The world with nothing on record. -/
def recording (w : World S R ε σ) : World S R ε (σ × List (Answered S R ε)) :=
  ⟨(w.shared, []), w.procs⟩

/-- The world without the record. -/
def bare (w : World S R ε (σ × List (Answered S R ε))) : World S R ε σ := ⟨w.shared.1, w.procs⟩

end World

namespace Machine

variable {M : Machine S R ε σ K C E} {pid : Nat} {x x' : σ × List (Answered S R ε)}

theorem recorded_exec {s : S} {c : C} {r : Except ε (R s)}
    (h : M.recorded.exec pid s c x = some (r, x')) :
    M.exec pid s c x.1 = some (r, x'.1) ∧ x'.2 = ⟨s, r⟩ :: x.2 := by
  obtain ⟨⟨r', σ₁⟩, hx, heq⟩ := Option.map_eq_some_iff.mp h
  cases heq
  exact ⟨hx, rfl⟩

theorem recorded_step (a : Action K C E) (w : World S R ε (σ × List (Answered S R ε))) :
    (M.recorded.step a w).map World.bare = M.step a w.bare := by
  cases a with
  | start k pid =>
    simp only [step, World.bare]
    cases w.procs pid with
    | some p => rfl
    | none =>
      show ((Option.map _ (M.start k pid w.shared.1)).map _).map _ =
        Option.map _ (M.start k pid w.shared.1)
      rw [Option.map_map, Option.map_map]
      rfl
  | exec pid c =>
    simp only [step, World.bare]
    cases w.procs pid with
    | none => rfl
    | some p =>
      cases p with
      | ret | raise => rfl
      | stmt s k =>
        show ((Option.map _ (M.exec pid s c w.shared.1)).map _).map _ =
          Option.map _ (M.exec pid s c w.shared.1)
        rw [Option.map_map, Option.map_map]
        rfl
  | finish pid =>
    simp only [step, World.bare]
    cases w.procs pid with
    | none => rfl
    | some p => cases p <;> rfl
  | kill pid =>
    simp only [step, World.bare]
    cases w.procs pid <;> rfl
  | env e =>
    show ((Option.map _ (M.env e w.shared.1)).map _).map _ = Option.map _ (M.env e w.shared.1)
    rw [Option.map_map, Option.map_map]
    rfl

/-- A run is what it is without the record. -/
theorem recorded_run (as : List (Action K C E)) (w : World S R ε (σ × List (Answered S R ε))) :
    (M.recorded.run as w).map World.bare = M.run as w.bare := by
  induction as generalizing w with
  | nil => rfl
  | cons a as ih =>
    rw [run_cons, run_cons, ← recorded_step, Option.map_bind, Option.bind_map]
    exact congrArg _ (funext ih)

end Machine

/-- What relies on the record alone. -/
def Spec.OnRecord (I : Spec S (σ × List (Answered S R ε))) : Prop :=
  ∀ pid x x', I.rely pid x x' ↔ x.2 <:+ x'.2

namespace Spec.OnRecord

variable {M : Machine S R ε σ K C E} {I : Spec S (σ × List (Answered S R ε))} {pid : Nat}
  {x₀ : σ × List (Answered S R ε)}

theorem exec (hI : I.OnRecord) {s : S} {c : C} {r : Except ε (R s)}
    {x x' : σ × List (Answered S R ε)} (h : M.recorded.exec pid s c x = some (r, x')) (q : Nat) :
    I.rely q x x' := by
  rw [hI, (Machine.recorded_exec h).2]
  exact List.suffix_cons ..

/-- One statement: it is permitted, and `Q` is said of what it answers and of the record it is put
on. -/
theorem stmt (hI : I.OnRecord) {s : S} {Q : R s → σ × List (Answered S R ε) → Prop}
    (hp : ∀ x, x₀.2 <:+ x.2 → I.inv x → I.permit pid s x)
    (hq : ∀ x c a σ₁, x₀.2 <:+ x.2 → I.inv x → M.exec pid s c x.1 = some (.ok a, σ₁) →
      Q a (σ₁, ⟨s, .ok a⟩ :: x.2)) : Keeps M.recorded I pid x₀ (.exec s) Q := by
  refine Keeps.stmt (fun x c r x' _ hx => hI.exec hx pid) fun x hr hi => ?_
  have hgrown := (hI pid x₀ x).mp hr
  refine ⟨hp x hgrown hi, fun c a x' hx _ => ?_⟩
  obtain ⟨hx, hrecord⟩ := Machine.recorded_exec hx
  have hanswer := hq x c a x'.1 hgrown hi hx
  rw [← hrecord] at hanswer
  exact hanswer

/-- A program that issues only what is always permitted. -/
theorem only (hI : I.OnRecord) {P : S → Prop} {p : Prog S R ε α} (h : p.Only P)
    (hp : ∀ s x, P s → I.permit pid s x) : Keeps M.recorded I pid x₀ p fun _ _ => True := by
  refine (Safe.only (J := I.rely pid x₀) (fun x x' hr hr' => I.trans _ _ _ _ hr hr')
    (fun s x hs hr _ => ?_) h
    (I.refl pid x₀)).mono fun r x hr => ⟨hr, ?_⟩
  · exact ⟨hp s x hs, fun c r x' hx => I.trans _ _ _ _ hr (hI.exec hx pid)⟩
  · cases r <;> trivial

end Spec.OnRecord

end Interleave
