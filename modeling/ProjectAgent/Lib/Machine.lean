/-
A machine runs programs side by side over one shared state. Each step of it
starts a process, executes one statement of one process, ends a process that
has returned or raised, loses a process (a crash), or is a step of the
environment; the scheduler is free to take any step that is enabled. A
statement that must wait (for a row lock, say) is one that `exec` does not
enable.

Two ways of speaking about runs: `Always P as w` says `P` of every world the
actions `as` reach from `w`, `EachStep C as w` says `C` of every step they
take.

`Spec` is a rely/guarantee specification of a machine: what a process may
rely on while it waits (`rely`), what it may issue when (`permit`), and what
all of it keeps (`inv`). `Safe` is the obligation of one program, and
`Spec.keeps` the reason for all of it: in every world a machine reaches, every
process is about to issue a permitted statement.
-/
import Mathlib.Data.List.Induction
import Mathlib.Data.List.Infix
import ProjectAgent.Lib.Prog

namespace Interleave

variable {S : Type} {R : S → Type} {ε σ K C E : Type}

/-- What the steps do to the shared state: starting a process from a script
`K`, executing a statement under a choice `C` of the environment's, ending a
process, losing it, and the environment's own steps `E`. -/
structure Machine (S : Type) (R : S → Type) (ε σ K C E : Type) where
  start : K → Nat → σ → Option (Prog S R ε Unit × σ)
  exec : Nat → (s : S) → C → σ → Option (Except ε (R s) × σ)
  finish : Nat → Except ε Unit → σ → σ
  kill : Nat → σ → σ
  env : E → σ → Option σ

structure World (S : Type) (R : S → Type) (ε σ : Type) where
  shared : σ
  procs : Nat → Option (Prog S R ε Unit)

inductive Action (K C E : Type) where
  | start (k : K) (pid : Nat)
  | exec (pid : Nat) (c : C)
  | finish (pid : Nat)
  | kill (pid : Nat)
  | env (e : E)

namespace Machine

variable (M : Machine S R ε σ K C E)

def step : Action K C E → World S R ε σ → Option (World S R ε σ)
  | .start k pid, w =>
    match w.procs pid with
    | some _ => none
    | none => (M.start k pid w.shared).map fun (p, σ₁) => ⟨σ₁, Function.update w.procs pid (some p)⟩
  | .exec pid c, w =>
    match w.procs pid with
    | some (.stmt s k) =>
      (M.exec pid s c w.shared).map fun (r, σ₁) => ⟨σ₁, Function.update w.procs pid (some (k r))⟩
    | _ => none
  | .finish pid, w =>
    match w.procs pid with
    | some (.ret _) => some ⟨M.finish pid (.ok ()) w.shared, Function.update w.procs pid none⟩
    | some (.raise e) => some ⟨M.finish pid (.error e) w.shared, Function.update w.procs pid none⟩
    | _ => none
  | .kill pid, w =>
    match w.procs pid with
    | some _ => some ⟨M.kill pid w.shared, Function.update w.procs pid none⟩
    | none => none
  | .env e, w => (M.env e w.shared).map fun σ₁ => ⟨σ₁, w.procs⟩

def run : List (Action K C E) → World S R ε σ → Option (World S R ε σ)
  | [], w => some w
  | a :: as, w => (M.step a w).bind (run as)

/-- `P` holds in every world the actions reach, the first included. -/
def Always (P : World S R ε σ → Prop) (as : List (Action K C E)) (w : World S R ε σ) : Prop :=
  ∀ pre, pre <+: as → ∀ w', M.run pre w = some w' → P w'

/-- `cond` holds of every step the actions take, in the world it is taken in. -/
def EachStep (cond : Action K C E → World S R ε σ → Prop) (as : List (Action K C E))
    (w : World S R ε σ) : Prop :=
  ∀ pre a, pre ++ [a] <+: as → ∀ w' w'', M.run pre w = some w' → M.step a w' = some w'' → cond a w'

/-- What a step can be, and what it does. -/
theorem step_cases {M : Machine S R ε σ K C E} {a : Action K C E} {w w' : World S R ε σ}
    (h : M.step a w = some w') :
    (∃ k pid p, a = .start k pid ∧ w.procs pid = none ∧
      M.start k pid w.shared = some (p, w'.shared) ∧
      w'.procs = Function.update w.procs pid (some p)) ∨
    (∃ pid c s k r, a = .exec pid c ∧ w.procs pid = some (.stmt s k) ∧
      M.exec pid s c w.shared = some (r, w'.shared) ∧
      w'.procs = Function.update w.procs pid (some (k r))) ∨
    (∃ pid r, a = .finish pid ∧ (w.procs pid = some (.ret ()) ∧ r = .ok () ∨
        ∃ e, w.procs pid = some (.raise e) ∧ r = .error e) ∧
      w'.shared = M.finish pid r w.shared ∧ w'.procs = Function.update w.procs pid none) ∨
    (∃ pid p, a = .kill pid ∧ w.procs pid = some p ∧ w'.shared = M.kill pid w.shared ∧
      w'.procs = Function.update w.procs pid none) ∨
    ∃ e, a = .env e ∧ M.env e w.shared = some w'.shared ∧ w'.procs = w.procs := by
  cases a with
  | start k pid =>
    simp only [step] at h
    split at h
    · cases h
    · next hn =>
      obtain ⟨⟨p, σ₁⟩, hs, rfl⟩ := Option.map_eq_some_iff.mp h
      exact .inl ⟨k, pid, p, rfl, hn, hs, rfl⟩
  | exec pid c =>
    simp only [step] at h
    split at h
    · next s k hp =>
      obtain ⟨⟨r, σ₁⟩, hs, rfl⟩ := Option.map_eq_some_iff.mp h
      exact .inr (.inl ⟨pid, c, s, k, r, rfl, hp, hs, rfl⟩)
    · cases h
  | finish pid =>
    simp only [step] at h
    split at h
    · next hp => cases h; exact .inr (.inr (.inl ⟨pid, .ok (), rfl, .inl ⟨hp, rfl⟩, rfl, rfl⟩))
    · next e hp =>
        cases h; exact .inr (.inr (.inl ⟨pid, .error e, rfl, .inr ⟨e, hp, rfl⟩, rfl, rfl⟩))
    · cases h
  | kill pid =>
    simp only [step] at h
    split at h
    · next p hp => cases h; exact .inr (.inr (.inr (.inl ⟨pid, p, rfl, hp, rfl, rfl⟩)))
    · cases h
  | env e =>
    obtain ⟨σ₁, hs, rfl⟩ := Option.map_eq_some_iff.mp h
    exact .inr (.inr (.inr (.inr ⟨e, rfl, hs, rfl⟩)))

/-- A process is at work because it was, or because it is started. -/
theorem procs_of_step {M : Machine S R ε σ K C E} {a : Action K C E} {w w' : World S R ε σ}
    (h : M.step a w = some w') {q : Nat} (hq : (w'.procs q).isSome) :
    (w.procs q).isSome ∨ ∃ k, a = .start k q := by
  have hother : ∀ {pid p?}, w'.procs = Function.update w.procs pid p? → q ≠ pid →
      (w.procs q).isSome := by
    intro pid p? hp hne
    rw [hp, Function.update_of_ne hne] at hq
    exact hq
  rcases step_cases h with ⟨k, pid, p, rfl, -, -, hp⟩ | ⟨pid, c, s, k, r, rfl, hwas, -, hp⟩ |
    ⟨pid, r, rfl, hwas, -, hp⟩ | ⟨pid, p, rfl, hwas, -, hp⟩ | ⟨e, rfl, -, hp⟩
  · by_cases hne : q = pid
    · exact .inr ⟨k, by rw [hne]⟩
    · exact .inl (hother hp hne)
  · by_cases hne : q = pid
    · exact .inl (by rw [hne, hwas]; rfl)
    · exact .inl (hother hp hne)
  · by_cases hne : q = pid
    · rw [hne]
      rcases hwas with ⟨hwas, -⟩ | ⟨e, hwas, -⟩ <;> exact .inl (by rw [hwas]; rfl)
    · exact .inl (hother hp hne)
  · by_cases hne : q = pid
    · exact .inl (by rw [hne, hwas]; rfl)
    · exact .inl (hother hp hne)
  · rw [hp] at hq
    exact .inl hq

@[simp] theorem run_nil (w : World S R ε σ) : M.run [] w = some w := rfl

theorem run_cons (a : Action K C E) (as : List (Action K C E)) (w : World S R ε σ) :
    M.run (a :: as) w = (M.step a w).bind (M.run as) := rfl

theorem run_append (as bs : List (Action K C E)) (w : World S R ε σ) :
    M.run (as ++ bs) w = (M.run as w).bind (M.run bs) := by
  induction as generalizing w with
  | nil => rfl
  | cons a as ih =>
    rw [List.cons_append, run_cons, run_cons, Option.bind_assoc]
    exact congrArg _ (funext ih)

theorem procs_of_run {M : Machine S R ε σ K C E} {as : List (Action K C E)} {w w' : World S R ε σ}
    (h : M.run as w = some w') {q : Nat} (hq : (w'.procs q).isSome) :
    (w.procs q).isSome ∨ ∃ k, .start k q ∈ as := by
  induction as generalizing w with
  | nil =>
    cases h
    exact .inl hq
  | cons a as ih =>
    obtain ⟨w₁, hs, hr⟩ := Option.bind_eq_some_iff.mp h
    rcases ih hr with hq₁ | ⟨k, hk⟩
    · rcases procs_of_step hs hq₁ with hq₀ | ⟨k, rfl⟩
      · exact .inl hq₀
      · exact .inr ⟨k, List.mem_cons_self⟩
    · exact .inr ⟨k, List.mem_cons_of_mem _ hk⟩

def started (as : List (Action K C E)) : List Nat :=
  as.filterMap fun
    | .start _ pid => some pid
    | _ => none

theorem mem_started {as : List (Action K C E)} {k : K} {pid : Nat} (h : .start k pid ∈ as) :
    pid ∈ started as :=
  List.mem_filterMap.mpr ⟨_, h, rfl⟩

/-- At the end of a run nobody is at work if all who were started have ended. -/
theorem idle_of_run {M : Machine S R ε σ K C E} {as : List (Action K C E)} {w w' : World S R ε σ}
    (h : M.run as w = some w') (hidle : ∀ q, w.procs q = none)
    (hended : ((started as).all fun q => (w'.procs q).isNone) = true) (q : Nat) :
    w'.procs q = none := by
  rw [← Option.not_isSome_iff_eq_none]
  intro hq
  rcases procs_of_run h hq with hwas | ⟨k, hk⟩
  · rw [hidle q] at hwas
    cases hwas
  · have hnone := List.all_eq_true.mp hended q (mem_started hk)
    rw [Option.isNone_iff_eq_none.mp hnone] at hq
    cases hq

variable {M} {P : World S R ε σ → Prop} {cond : Action K C E → World S R ε σ → Prop}
  {as : List (Action K C E)} {w w' : World S R ε σ}

theorem Always.last (h : M.Always P as w) (hr : M.run as w = some w') : P w' :=
  h as (List.prefix_refl as) w' hr

theorem Always.first (h : M.Always P as w) : P w :=
  h [] (List.nil_prefix) w rfl

theorem Always.mono {Q : World S R ε σ → Prop} (h : M.Always P as w) (hpq : ∀ w, P w → Q w) :
    M.Always Q as w :=
  fun pre hpre w' hr => hpq w' (h pre hpre w' hr)

theorem Always.prefix {bs : List (Action K C E)} (h : M.Always P as w) (hbs : bs <+: as) :
    M.Always P bs w :=
  fun pre hpre w' hr => h pre (hpre.trans hbs) w' hr

theorem EachStep.prefix {bs : List (Action K C E)} (h : M.EachStep cond as w) (hbs : bs <+: as) :
    M.EachStep cond bs w :=
  fun pre a hpre w' w'' hr hs => h pre a (hpre.trans hbs) w' w'' hr hs

/-- A step taken along a run leads from one reached world to another. -/
theorem Always.step (h : M.Always P as w) {pre : List (Action K C E)} {a : Action K C E}
    (hpre : pre ++ [a] <+: as) {w₁ w₂ : World S R ε σ} (hr : M.run pre w = some w₁)
    (hs : M.step a w₁ = some w₂) : P w₁ ∧ P w₂ := by
  refine ⟨h pre ((List.prefix_append pre [a]).trans hpre) w₁ hr, h (pre ++ [a]) hpre w₂ ?_⟩
  rw [run_append, hr, Option.bind_some, run_cons, hs]
  rfl

/-- A property the first world has and every step of the run keeps holds all along. -/
theorem always_of_step (h₀ : P w) (hc : M.EachStep cond as w)
    (hstep : ∀ a w₁ w₂, P w₁ → cond a w₁ → M.step a w₁ = some w₂ → P w₂) : M.Always P as w := by
  intro pre
  induction pre using List.reverseRecOn with
  | nil =>
    intro _ w' hr
    cases hr
    exact h₀
  | append_singleton pre a ih =>
    intro hpre w' hr
    rw [run_append, Option.bind_eq_some_iff] at hr
    obtain ⟨w₁, hr₁, hs⟩ := hr
    rw [run_cons, Option.bind_eq_some_iff] at hs
    obtain ⟨w₂, hs, hw⟩ := hs
    cases hw
    exact hstep a w₁ w' (ih ((List.prefix_append pre [a]).trans hpre) w₁ hr₁)
      (hc pre a hpre w₁ w' hr₁ hs) hs

theorem eachStep_true : M.EachStep (fun _ _ => True) as w :=
  fun _ _ _ _ _ _ _ => trivial

/-- Every action is enabled and passes the test; a condition on steps is
decided this way on a given run. -/
def checks (M : Machine S R ε σ K C E) (check : Action K C E → World S R ε σ → Bool) :
    List (Action K C E) → World S R ε σ → Bool
  | [], _ => true
  | a :: as, w =>
    match M.step a w with
    | some w' => check a w && M.checks check as w'
    | none => false

theorem run_isSome_of_checks {check : Action K C E → World S R ε σ → Bool}
    (h : M.checks check as w = true) :
    (M.run as w).isSome := by
  induction as generalizing w with
  | nil => rfl
  | cons a as ih =>
    simp only [checks] at h
    split at h
    · next w' hs =>
      rw [run_cons, hs]
      exact ih (Bool.and_eq_true_iff.mp h).2
    · cases h

theorem eachStep_of_checks {check : Action K C E → World S R ε σ → Bool}
    (hcheck : ∀ a w, check a w = true → cond a w) (h : M.checks check as w = true) :
    M.EachStep cond as w := by
  induction as generalizing w with
  | nil => exact fun pre a hpre => by simp at hpre
  | cons b as ih =>
    intro pre a hpre w₁ w₂ hr hs
    cases pre with
    | nil =>
      obtain rfl : a = b := by simpa using hpre
      cases hr
      simp only [checks, hs, Bool.and_eq_true] at h
      exact hcheck _ _ h.1
    | cons b' pre =>
      obtain ⟨rfl, hrest⟩ := List.cons_prefix_cons.mp hpre
      obtain ⟨w', hb, hr⟩ := Option.bind_eq_some_iff.mp hr
      simp only [checks, hb, Bool.and_eq_true] at h
      exact ih h.2 pre a hrest w₁ w₂ hr hs

/-- Every world a given run reaches is looked at. -/
theorem always_of_inits {check : World S R ε σ → Bool} (hcheck : ∀ w, check w = true → P w)
    (h : (as.inits.all fun pre => (M.run pre w).all check) = true) : M.Always P as w := by
  intro pre hpre w' hr
  have hall := List.all_eq_true.mp h pre (List.mem_inits pre as |>.mpr hpre)
  rw [hr] at hall
  exact hcheck w' hall

/-- The program's next statements, under these choices, while nothing else moves. -/
def alone {α : Type} (M : Machine S R ε σ K C E) (pid : Nat) :
    List C → Prog S R ε α → σ → Option (Prog S R ε α × σ)
  | [], p, σ₀ => some (p, σ₀)
  | c :: cs, .stmt s k, σ₀ => (M.exec pid s c σ₀).bind fun (r, σ₁) => M.alone pid cs (k r) σ₁
  | _ :: _, _, _ => none

theorem run_alone {pid : Nat} {p : Prog S R ε Unit} (cs : List C) (hp : w.procs pid = some p) :
    M.run (cs.map (.exec pid)) w = (M.alone pid cs p w.shared).map fun (p', σ') =>
      ⟨σ', Function.update w.procs pid (some p')⟩ := by
  induction cs generalizing w p with
  | nil =>
    show some w = some ⟨w.shared, Function.update w.procs pid (some p)⟩
    rw [← hp, Function.update_eq_self]
  | cons c cs ih =>
    rw [List.map_cons, run_cons]
    cases p with
    | ret | raise => simp only [step, hp, alone, Option.bind_none, Option.map_none]
    | stmt s k =>
      simp only [step, hp, alone]
      cases hx : M.exec pid s c w.shared with
      | none => rfl
      | some answer =>
        obtain ⟨r, σ₁⟩ := answer
        have hself : (⟨σ₁, Function.update w.procs pid (some (k r))⟩ : World S R ε σ).procs pid =
            some (k r) :=
          Function.update_self ..
        simp only [Option.map_some, Option.bind_some, ih hself, Function.update_idem]

section
variable {α β : Type} {pid : Nat} {cs cs' : List C} {σ₀ σ₁ : σ}

theorem alone_append (p : Prog S R ε α) :
    M.alone pid (cs ++ cs') p σ₀ = (M.alone pid cs p σ₀).bind fun (p', σ') =>
      M.alone pid cs' p' σ' := by
  induction cs generalizing p σ₀ with
  | nil => rfl
  | cons c cs ih =>
    cases p with
    | ret | raise => rfl
    | stmt s k =>
      simp only [List.cons_append, alone]
      cases M.exec pid s c σ₀ with
      | none => rfl
      | some answer => exact ih (answer.1 |> k)

theorem alone_bind {x x' : Prog S R ε β} {f : β → Prog S R ε α}
    (h : M.alone pid cs x σ₀ = some (x', σ₁)) :
    M.alone pid cs (x.bind f) σ₀ = some (x'.bind f, σ₁) := by
  induction cs generalizing x σ₀ with
  | nil =>
    cases h
    rfl
  | cons c cs ih =>
    cases x with
    | ret | raise => cases h
    | stmt s k =>
      obtain ⟨⟨r, σ₂⟩, hx, h⟩ := Option.bind_eq_some_iff.mp h
      simp only [Prog.bind, alone, hx, Option.bind_some]
      exact ih h

theorem alone_tryCatch {x x' : Prog S R ε α} {f : ε → Prog S R ε α}
    (h : M.alone pid cs x σ₀ = some (x', σ₁)) :
    M.alone pid cs (x.tryCatch f) σ₀ = some (x'.tryCatch f, σ₁) := by
  induction cs generalizing x σ₀ with
  | nil =>
    cases h
    rfl
  | cons c cs ih =>
    cases x with
    | ret | raise => cases h
    | stmt s k =>
      obtain ⟨⟨r, σ₂⟩, hx, h⟩ := Option.bind_eq_some_iff.mp h
      simp only [Prog.tryCatch, alone, hx, Option.bind_some]
      exact ih h

/-- One statement, and then what follows. -/
theorem alone_exec {s : S} {f : R s → Prog S R ε α} {c : C} {a : R s}
    (h : M.exec pid s c σ₀ = some (.ok a, σ₁)) :
    M.alone pid (c :: cs) ((Prog.exec s).bind f) σ₀ = M.alone pid cs (f a) σ₁ := by
  show (M.exec pid s c σ₀).bind _ = _
  rw [h]
  rfl

end

end Machine

/-! ## Rely and guarantee -/

/-- What is asked of a machine's processes. `rely pid` is what may happen to
the shared state around `pid`; `permit pid s` is what must be known when `pid`
issues `s`. -/
structure Spec (S σ : Type) where
  inv : σ → Prop
  rely : Nat → σ → σ → Prop
  permit : Nat → S → σ → Prop
  refl : ∀ pid a, rely pid a a
  trans : ∀ pid a b c, rely pid a b → rely pid b c → rely pid a c

variable {α β : Type}

/-- Started in this state, the program issues only permitted statements,
whatever the others do meanwhile, and ends in `post`. -/
def Safe (M : Machine S R ε σ K C E) (I : Spec S σ) (pid : Nat) (post : Except ε α → σ → Prop) :
    Prog S R ε α → σ → Prop
  | .ret a, σ₀ => post (.ok a) σ₀
  | .raise e, σ₀ => post (.error e) σ₀
  | .stmt s k, σ₀ => ∀ σ₁, I.rely pid σ₀ σ₁ → I.inv σ₁ → I.permit pid s σ₁ ∧
      ∀ c r σ₂, M.exec pid s c σ₁ = some (r, σ₂) → I.inv σ₂ → Safe M I pid post (k r) σ₂

/-- The postcondition of a program of which only the returns matter. -/
def Returns (Q : α → σ → Prop) : Except ε α → σ → Prop
  | .ok a, σ₁ => Q a σ₁
  | .error _, _ => True

namespace Safe

variable {M : Machine S R ε σ K C E} {I : Spec S σ} {pid : Nat} {post : Except ε α → σ → Prop}

theorem mono {post' : Except ε α → σ → Prop} {p : Prog S R ε α} {σ₀ : σ}
    (h : Safe M I pid post p σ₀) (hp : ∀ r σ₁, post r σ₁ → post' r σ₁) :
    Safe M I pid post' p σ₀ := by
  induction p generalizing σ₀ with
  | ret a => exact hp _ _ h
  | raise e => exact hp _ _ h
  | stmt s k ih =>
    intro σ₁ hr hi
    obtain ⟨hpm, hk⟩ := h σ₁ hr hi
    exact ⟨hpm, fun c r σ₂ hx hi₂ => ih r (hk c r σ₂ hx hi₂)⟩

/-- The others may move first. -/
theorem rely {p : Prog S R ε Unit} {σ₀ σ₁ : σ} (h : Safe M I pid (fun _ _ => True) p σ₀)
    (hr : I.rely pid σ₀ σ₁) : Safe M I pid (fun _ _ => True) p σ₁ := by
  cases p with
  | ret a => trivial
  | raise e => trivial
  | stmt s k => exact fun σ₂ hr₂ hi => h σ₂ (I.trans _ _ _ _ hr hr₂) hi

/-- Sequencing: the second program starts where the first returns. -/
theorem bind {x : Prog S R ε β} {f : β → Prog S R ε α} {σ₀ : σ}
    (h : Safe M I pid (fun r σ₁ => match r with
      | .ok b => Safe M I pid post (f b) σ₁
      | .error e => post (.error e) σ₁) x σ₀) : Safe M I pid post (x.bind f) σ₀ := by
  induction x generalizing σ₀ with
  | ret b => exact h
  | raise e => exact h
  | stmt s k ih =>
    intro σ₁ hr hi
    obtain ⟨hpm, hk⟩ := h σ₁ hr hi
    exact ⟨hpm, fun c r σ₂ hx hi₂ => ih r (hk c r σ₂ hx hi₂)⟩

/-- Sequencing, with what is known in between. -/
theorem andThen {x : Prog S R ε β} {f : β → Prog S R ε α} {σ₀ : σ} {mid : Except ε β → σ → Prop}
    (hx : Safe M I pid mid x σ₀) (hok : ∀ b σ₁, mid (.ok b) σ₁ → Safe M I pid post (f b) σ₁)
    (herror : ∀ e σ₁, mid (.error e) σ₁ → post (.error e) σ₁) :
    Safe M I pid post (x.bind f) σ₀ := by
  refine Safe.bind (hx.mono fun r σ₁ hr => ?_)
  cases r with
  | ok b => exact hok b σ₁ hr
  | error e => exact herror e σ₁ hr

/-- The handler starts where the body raises. -/
theorem tryCatch {x : Prog S R ε α} {f : ε → Prog S R ε α} {σ₀ : σ}
    (h : Safe M I pid (fun r σ₁ => match r with
      | .ok a => post (.ok a) σ₁
      | .error e => Safe M I pid post (f e) σ₁) x σ₀) : Safe M I pid post (x.tryCatch f) σ₀ := by
  induction x generalizing σ₀ with
  | ret b => exact h
  | raise e => exact h
  | stmt s k ih =>
    intro σ₁ hr hi
    obtain ⟨hpm, hk⟩ := h σ₁ hr hi
    exact ⟨hpm, fun c r σ₂ hx hi₂ => ih r (hk c r σ₂ hx hi₂)⟩

/-- Where nothing is carried from one program to the next, each is safe by itself. -/
theorem seq {x : Prog S R ε β} {f : β → Prog S R ε α} {σ₀ : σ}
    (hx : Safe M I pid (fun _ _ => True) x σ₀)
    (hf : ∀ b σ₁, Safe M I pid (fun _ _ => True) (f b) σ₁) :
    Safe M I pid (fun _ _ => True) (x.bind f) σ₀ := by
  refine Safe.bind (hx.mono fun r σ₁ _ => ?_)
  cases r with
  | ok b => exact hf b σ₁
  | error e => trivial

theorem each {γ : Type} {f : γ → Prog S R ε Unit} {as : List γ}
    (hf : ∀ a ∈ as, ∀ σ₁, Safe M I pid (fun _ _ => True) (f a) σ₁) (σ₀ : σ) :
    Safe M I pid (fun _ _ => True) (Prog.each f as) σ₀ := by
  induction as generalizing σ₀ with
  | nil => trivial
  | cons a as ih => exact (hf a (by simp) σ₀).seq fun _ => ih fun b hb => hf b (by simp [hb])

/-- One statement: it is permitted, and what it answers is what `post` says. -/
theorem stmt {s : S} {post : Except ε (R s) → σ → Prop} {σ₀ : σ}
    (h : ∀ σ₁, I.rely pid σ₀ σ₁ → I.inv σ₁ → I.permit pid s σ₁ ∧
      ∀ c r σ₂, M.exec pid s c σ₁ = some (r, σ₂) → I.inv σ₂ → post r σ₂) :
    Safe M I pid post (.exec s) σ₀ := by
  intro σ₁ hr hi
  obtain ⟨hp, hx⟩ := h σ₁ hr hi
  refine ⟨hp, fun c r σ₂ hx₂ hi₂ => ?_⟩
  cases r with
  | ok a => exact hx c (.ok a) σ₂ hx₂ hi₂
  | error e => exact hx c (.error e) σ₂ hx₂ hi₂

theorem attempt {p : Prog S R ε α} {σ₀ : σ} (h : Safe M I pid (fun _ _ => True) p σ₀) :
    Safe M I pid (fun _ _ => True) p.attempt σ₀ := by
  induction p generalizing σ₀ with
  | ret a => trivial
  | raise e => trivial
  | stmt s k ih =>
    intro σ₁ hr hi
    obtain ⟨hpm, hk⟩ := h σ₁ hr hi
    exact ⟨hpm, fun c r σ₂ hx hi₂ => ih r (hk c r σ₂ hx hi₂)⟩

/-- A program of calls is safe where every call is. -/
theorem translate {S' : Type} {R' : S' → Type} {f : (s : S') → Prog S R ε (R' s)}
    (hf : ∀ s σ₁, Safe M I pid (fun _ _ => True) (f s) σ₁) (p : Prog S' R' ε α) (σ₀ : σ) :
    Safe M I pid (fun _ _ => True) (p.translate f) σ₀ := by
  induction p generalizing σ₀ with
  | ret a => trivial
  | raise e => trivial
  | stmt s k ih => exact (hf s σ₀).attempt.seq fun r => ih r

/-- A program whose statements keep what the others keep, and are permitted where it holds. -/
theorem only {J : σ → Prop} {P : S → Prop} {p : Prog S R ε α} {σ₀ : σ}
    (hrely : ∀ σ₁ σ₂, J σ₁ → I.rely pid σ₁ σ₂ → J σ₂)
    (hexec : ∀ s σ₁, P s → J σ₁ → I.inv σ₁ → I.permit pid s σ₁ ∧
      ∀ c r σ₂, M.exec pid s c σ₁ = some (r, σ₂) → J σ₂)
    (h : p.Only P) (h₀ : J σ₀) : Safe M I pid (fun _ σ₁ => J σ₁) p σ₀ := by
  induction p generalizing σ₀ with
  | ret a => exact h₀
  | raise e => exact h₀
  | stmt s k ih =>
    intro σ₁ hr hi
    obtain ⟨hp, hx⟩ := hexec s σ₁ h.1 (hrely σ₀ σ₁ h₀ hr) hi
    exact ⟨hp, fun c r σ₂ hx₂ _ => ih r (h.2 r) (hx c r σ₂ hx₂)⟩

/-- The frame rule: what the others and the program's own statements keep stays beside what the
program does. -/
theorem frame {J : σ → Prop} {P : S → Prop} {p : Prog S R ε α} {σ₀ : σ} (h : Safe M I pid post p σ₀)
    (hrely : ∀ σ₁ σ₂, J σ₁ → I.rely pid σ₁ σ₂ → J σ₂)
    (hexec : ∀ s c r σ₁ σ₂, P s → J σ₁ → M.exec pid s c σ₁ = some (r, σ₂) → J σ₂)
    (hp : p.Only P) (h₀ : J σ₀) : Safe M I pid (fun r σ₁ => post r σ₁ ∧ J σ₁) p σ₀ := by
  induction p generalizing σ₀ with
  | ret a => exact ⟨h, h₀⟩
  | raise e => exact ⟨h, h₀⟩
  | stmt s k ih =>
    intro σ₁ hr hi
    obtain ⟨hpm, hx⟩ := h σ₁ hr hi
    exact ⟨hpm, fun c r σ₂ hx₂ hi₂ =>
      ih r (hx c r σ₂ hx₂ hi₂) (hp.2 r) (hexec s c r σ₁ σ₂ hp.1 (hrely σ₀ σ₁ h₀ hr) hx₂)⟩

/-- A program that issues only what is always permitted. -/
theorem of_only {P : S → Prop} {p : Prog S R ε α} (h : p.Only P)
    (hp : ∀ s σ₁, P s → I.permit pid s σ₁) (σ₀ : σ) :
    Safe M I pid (fun _ _ => True) p σ₀ :=
  only (fun _ _ _ _ => trivial) (fun s σ₁ hs _ _ => ⟨hp s σ₁ hs, fun _ _ _ _ => trivial⟩) h trivial

end Safe

/-- A program whose own statements keep `rely` too, as a program that only
adds to the state does: run from `σ₀` it issues only what is permitted, and
where it returns `Q` holds. -/
def Keeps (M : Machine S R ε σ K C E) (I : Spec S σ) (pid : Nat) (σ₀ : σ) (p : Prog S R ε α)
    (Q : α → σ → Prop) : Prop :=
  Safe M I pid (fun r σ₁ => I.rely pid σ₀ σ₁ ∧ Returns Q r σ₁) p σ₀

namespace Keeps

variable {M : Machine S R ε σ K C E} {I : Spec S σ} {pid : Nat} {σ₀ : σ}
  {Q : α → σ → Prop} {Q' : β → σ → Prop}

theorem ret {a : α} (h : Q a σ₀) : Keeps M I pid σ₀ (.ret a) Q := ⟨I.refl _ _, h⟩

theorem raise (e : ε) : Keeps M I pid σ₀ (.raise e) Q := ⟨I.refl _ _, trivial⟩

theorem bind {x : Prog S R ε α} {f : α → Prog S R ε β} (hx : Keeps M I pid σ₀ x Q)
    (hf : ∀ a σ₁, I.rely pid σ₀ σ₁ → Q a σ₁ → Keeps M I pid σ₁ (f a) Q') :
    Keeps M I pid σ₀ (x.bind f) Q' := by
  refine Safe.bind (hx.mono fun r σ₁ ⟨hr, hq⟩ => ?_)
  cases r with
  | ok a => exact (hf a σ₁ hr hq).mono fun r' σ₂ ⟨hr₂, hq₂⟩ => ⟨I.trans _ _ _ _ hr hr₂, hq₂⟩
  | error e => exact ⟨hr, trivial⟩

theorem handle {x : Prog S R ε α} {f : ε → Prog S R ε α} (hx : Keeps M I pid σ₀ x Q)
    (hf : ∀ e σ₁, I.rely pid σ₀ σ₁ → Keeps M I pid σ₁ (f e) Q) :
    Keeps M I pid σ₀ (x.tryCatch f) Q := by
  refine Safe.tryCatch (hx.mono fun r σ₁ ⟨hr, hq⟩ => ?_)
  cases r with
  | ok a => exact ⟨hr, hq⟩
  | error e => exact (hf e σ₁ hr).mono fun r' σ₂ ⟨hr₂, hq₂⟩ => ⟨I.trans _ _ _ _ hr hr₂, hq₂⟩

theorem weaken {x : Prog S R ε α} {Q₁ : α → σ → Prop} (hx : Keeps M I pid σ₀ x Q)
    (h : ∀ a σ₁, I.rely pid σ₀ σ₁ → Q a σ₁ → Q₁ a σ₁) : Keeps M I pid σ₀ x Q₁ := by
  refine hx.mono fun r σ₁ ⟨hr, hq⟩ => ⟨hr, ?_⟩
  cases r with
  | ok a => exact h a σ₁ hr hq
  | error e => trivial

/-- One statement: it keeps `rely`, is permitted, and what it answers is `Q`'s. -/
theorem stmt {s : S} {Q : R s → σ → Prop}
    (hs : ∀ σ₁ c r σ₂, I.inv σ₁ → M.exec pid s c σ₁ = some (r, σ₂) → I.rely pid σ₁ σ₂)
    (h : ∀ σ₁, I.rely pid σ₀ σ₁ → I.inv σ₁ → I.permit pid s σ₁ ∧
      ∀ c a σ₂, M.exec pid s c σ₁ = some (.ok a, σ₂) → I.inv σ₂ → Q a σ₂) :
    Keeps M I pid σ₀ (.exec s) Q := by
  intro σ₁ hr hi
  refine ⟨(h σ₁ hr hi).1, fun c r σ₂ hx hi₂ => ?_⟩
  have hr₂ := I.trans _ _ _ _ hr (hs σ₁ c r σ₂ hi hx)
  cases r with
  | ok a => exact ⟨hr₂, (h σ₁ hr hi).2 c a σ₂ hx hi₂⟩
  | error e => exact ⟨hr₂, trivial⟩

end Keeps

/-- The specification fits the machine run on these scripts: `inv` and every
other process's `rely` survive each kind of step, permitted statements
included that pass the gate, and every script starts a safe program. -/
structure Spec.Fits (I : Spec S σ) (M : Machine S R ε σ K C E) (scripts : K → Prop)
    (gate : Nat → S → σ → Prop) : Prop where
  start : ∀ k pid σ₀ p σ₁, scripts k → I.inv σ₀ → M.start k pid σ₀ = some (p, σ₁) →
    I.inv σ₁ ∧ (∀ q, q ≠ pid → I.rely q σ₀ σ₁) ∧ Safe M I pid (fun _ _ => True) p σ₁
  exec : ∀ pid s c σ₀ r σ₁, I.inv σ₀ → I.permit pid s σ₀ → gate pid s σ₀ →
    M.exec pid s c σ₀ = some (r, σ₁) → I.inv σ₁ ∧ ∀ q, q ≠ pid → I.rely q σ₀ σ₁
  finish : ∀ pid r σ₀, I.inv σ₀ → I.inv (M.finish pid r σ₀) ∧ ∀ q, q ≠ pid →
    I.rely q σ₀ (M.finish pid r σ₀)
  kill : ∀ pid σ₀, I.inv σ₀ → I.inv (M.kill pid σ₀) ∧ ∀ q, q ≠ pid → I.rely q σ₀ (M.kill pid σ₀)
  env : ∀ e σ₀ σ₁, I.inv σ₀ → M.env e σ₀ = some σ₁ → I.inv σ₁ ∧ ∀ q, I.rely q σ₀ σ₁

/-- The invariant holds and every process of the world is safe. -/
structure Spec.Good (I : Spec S σ) (M : Machine S R ε σ K C E) (w : World S R ε σ) : Prop where
  inv : I.inv w.shared
  safe : ∀ pid p, w.procs pid = some p → Safe M I pid (fun _ _ => True) p w.shared

/-- The action starts no script but these, and what it executes passes the gate. -/
def Action.Allowed (scripts : K → Prop) (gate : Nat → S → σ → Prop) :
    Action K C E → World S R ε σ → Prop
  | .start k _, _ => scripts k
  | .exec pid _, w => ∀ s k, w.procs pid = some (.stmt s k) → gate pid s w.shared
  | _, _ => True

theorem Action.allowed_all (a : Action K C E) (w : World S R ε σ) :
    a.Allowed (fun _ => True) (fun _ _ _ => True) w := by
  cases a with
  | exec pid c => exact fun _ _ _ => trivial
  | start | finish | kill | env => trivial

namespace Spec

variable {M : Machine S R ε σ K C E} {I : Spec S σ} {scripts : K → Prop} {gate : Nat → S → σ → Prop}
  {w w' : World S R ε σ}

theorem Good.of_idle (hi : I.inv w.shared) (hp : ∀ pid, w.procs pid = none) : I.Good M w :=
  ⟨hi, fun pid p h => by rw [hp] at h; cases h⟩

/-- The others' processes stay safe over a step that keeps their `rely`. -/
theorem Good.others (hg : I.Good M w) {pid : Nat} {p? : Option (Prog S R ε Unit)}
    (hi : I.inv w'.shared) (hr : ∀ q, q ≠ pid → I.rely q w.shared w'.shared)
    (hp : w'.procs = Function.update w.procs pid p?)
    (hs : ∀ p, p? = some p → Safe M I pid (fun _ _ => True) p w'.shared) : I.Good M w' := by
  refine ⟨hi, fun q p hq => ?_⟩
  rw [hp] at hq
  by_cases hqp : q = pid
  · subst hqp
    rw [Function.update_self] at hq
    exact hs p hq
  · rw [Function.update_of_ne hqp] at hq
    exact (hg.safe q p hq).rely (hr q hqp)

/-- A statement a process of a good world is about to issue is permitted, and
what it goes on with is safe. -/
theorem Good.exec (hf : I.Fits M scripts gate) (hg : I.Good M w) {pid : Nat} {s : S}
    {k : Except ε (R s) → Prog S R ε Unit} (hp : w.procs pid = some (.stmt s k)) :
    I.permit pid s w.shared ∧ ∀ c r σ₁, gate pid s w.shared →
      M.exec pid s c w.shared = some (r, σ₁) →
      I.inv σ₁ ∧ (∀ q, q ≠ pid → I.rely q w.shared σ₁) ∧
        Safe M I pid (fun _ _ => True) (k r) σ₁ := by
  obtain ⟨hpm, hk⟩ := hg.safe pid _ hp w.shared (I.refl _ _) hg.inv
  refine ⟨hpm, fun c r σ₁ hgate hx => ?_⟩
  obtain ⟨hi, hr⟩ := hf.exec pid s c _ r σ₁ hg.inv hpm hgate hx
  exact ⟨hi, hr, hk c r σ₁ hx hi⟩

/-- **Soundness.** A fitting specification is kept by every allowed step. -/
theorem Good.step (hf : I.Fits M scripts gate) (hg : I.Good M w) {a : Action K C E}
    (ha : a.Allowed scripts gate w) (h : M.step a w = some w') : I.Good M w' := by
  rcases Machine.step_cases h with ⟨k, pid, p, rfl, -, hs, hp⟩ |
    ⟨pid, c, s, k, r, rfl, hq, hx, hp⟩ |
    ⟨pid, r, -, -, hs, hp⟩ | ⟨pid, p, -, -, hs, hp⟩ | ⟨e, -, hs, hp⟩
  · obtain ⟨hi, hr, hsafe⟩ := hf.start k pid _ p _ ha hg.inv hs
    exact hg.others hi hr hp fun p' hp' => by cases hp'; exact hsafe
  · obtain ⟨hi, hr, hsafe⟩ := (hg.exec hf hq).2 c r _ (ha s k hq) hx
    exact hg.others hi hr hp fun p' hp' => by cases hp'; exact hsafe
  · obtain ⟨hi, hr⟩ := hf.finish pid r _ hg.inv
    exact hg.others (hs ▸ hi) (hs ▸ hr) hp fun p' hp' => by cases hp'
  · obtain ⟨hi, hr⟩ := hf.kill pid _ hg.inv
    exact hg.others (hs ▸ hi) (hs ▸ hr) hp fun p' hp' => by cases hp'
  · obtain ⟨hi, hr⟩ := hf.env e _ _ hg.inv hs
    refine ⟨hi, fun q p hq => ?_⟩
    rw [hp] at hq
    exact (hg.safe q p hq).rely (hr q)

/-- A property that holds at first and that every step of a good world keeps
holds in every world a run reaches: what each step's condition, the permit of
the statement it executes and the specification's invariant give. -/
theorem Good.always (hf : I.Fits M scripts gate) {P : World S R ε σ → Prop}
    {cond : Action K C E → World S R ε σ → Prop} {as : List (Action K C E)} (hg : I.Good M w)
    (h₀ : P w) (hc : M.EachStep (fun a w => a.Allowed scripts gate w ∧ cond a w) as w)
    (hstep : ∀ a w₁ w₂, I.Good M w₁ → I.Good M w₂ → P w₁ → cond a w₁ →
      M.step a w₁ = some w₂ → P w₂) :
    M.Always (fun w => I.Good M w ∧ P w) as w :=
  Machine.always_of_step ⟨hg, h₀⟩ hc fun a w₁ w₂ ⟨hg₁, hp₁⟩ ⟨ha, hca⟩ hs =>
    have hg₂ := hg₁.step hf ha hs
    ⟨hg₂, hstep a w₁ w₂ hg₁ hg₂ hp₁ hca hs⟩

/-- Where nothing is asked of the steps, every reached world is good. -/
theorem Good.all (hf : I.Fits M (fun _ => True) fun _ _ _ => True) {as : List (Action K C E)}
    (hg : I.Good M w) :
    M.Always (I.Good M) as w :=
  Machine.always_of_step hg Machine.eachStep_true fun a w₁ _ hg₁ _ hs =>
    hg₁.step hf (a.allowed_all w₁) hs

end Spec

end Interleave
