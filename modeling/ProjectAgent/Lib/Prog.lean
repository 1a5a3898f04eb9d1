/-
Programs of atomic statements, with exceptions: what a coroutine is to the
scheduler. A program issues a statement, waits for its answer (a value, or
the exception the statement raised) and goes on with what it made of it.
Nothing here says what a statement does; `Interleave.Machine` does, and runs
many programs side by side over one shared state.

`S` is the type of statements, `R s` the type of the answer to `s`, `ε` the
type of exceptions.
-/
import Mathlib.Logic.Function.Basic

namespace Interleave

inductive Prog (S : Type) (R : S → Type) (ε α : Type) where
  | ret (a : α)
  | raise (e : ε)
  | stmt (s : S) (k : Except ε (R s) → Prog S R ε α)

namespace Prog

variable {S : Type} {R : S → Type} {ε α β γ : Type}

def bind : Prog S R ε α → (α → Prog S R ε β) → Prog S R ε β
  | .ret a, f => f a
  | .raise e, _ => .raise e
  | .stmt s k, f => .stmt s fun r => (k r).bind f

/-- `try x except e: h e`. -/
def tryCatch : Prog S R ε α → (ε → Prog S R ε α) → Prog S R ε α
  | .ret a, _ => .ret a
  | .raise e, h => h e
  | .stmt s k, h => .stmt s fun r => (k r).tryCatch h

/-- A statement alone: its value is returned, its exception raised. -/
def exec (s : S) : Prog S R ε (R s) :=
  .stmt s fun
    | .ok r => .ret r
    | .error e => .raise e

instance : Monad (Prog S R ε) where
  pure := .ret
  bind := bind

instance : MonadExceptOf ε (Prog S R ε) where
  throw := .raise
  tryCatch := tryCatch

@[simp] theorem pure_eq (a : α) : (pure a : Prog S R ε α) = .ret a := rfl
@[simp] theorem throw_eq (e : ε) : (throw e : Prog S R ε α) = .raise e := rfl
@[simp] theorem bind_eq (x : Prog S R ε α) (f : α → Prog S R ε β) : x >>= f = x.bind f := rfl

@[simp] theorem ret_bind (a : α) (f : α → Prog S R ε β) : (ret a : Prog S R ε α).bind f = f a := rfl
@[simp] theorem raise_bind (e : ε) (f : α → Prog S R ε β) :
    (raise e : Prog S R ε α).bind f = .raise e := rfl

theorem bind_assoc (x : Prog S R ε α) (f : α → Prog S R ε β) (g : β → Prog S R ε γ) :
    (x.bind f).bind g = x.bind fun a => (f a).bind g := by
  induction x with
  | ret a => rfl
  | raise e => rfl
  | stmt s k ih => simp only [bind, ih]

theorem bind_ret (x : Prog S R ε α) : x.bind .ret = x := by
  induction x with
  | ret a => rfl
  | raise e => rfl
  | stmt s k ih => simp only [bind, ih]

/-- Runs `f` on each element in turn, as a `for` loop over a list does. -/
def each (f : α → Prog S R ε Unit) : List α → Prog S R ε Unit
  | [] => .ret ()
  | a :: as => (f a).bind fun _ => each f as

/-- The program's end as a value: what it returns, or what it raises. -/
def attempt : Prog S R ε α → Prog S R ε (Except ε α)
  | .ret a => .ret (.ok a)
  | .raise e => .ret (.error e)
  | .stmt s k => .stmt s fun r => (k r).attempt

/-- A program of calls, each of which is itself a program. -/
def translate {S' : Type} {R' : S' → Type} (f : (s : S) → Prog S' R' ε (R s)) :
    Prog S R ε α → Prog S' R' ε α
  | .ret a => .ret a
  | .raise e => .raise e
  | .stmt s k => (f s).attempt.bind fun r => (k r).translate f

/-- Whatever it is answered, the program issues only statements of this kind. -/
def Only (P : S → Prop) : Prog S R ε α → Prop
  | .ret _ | .raise _ => True
  | .stmt s k => P s ∧ ∀ r, Only P (k r)

namespace Only

variable {P : S → Prop}

theorem exec {s : S} (h : P s) : Only P (.exec s : Prog S R ε (R s)) :=
  ⟨h, fun r => by cases r <;> trivial⟩

theorem bind {x : Prog S R ε α} {f : α → Prog S R ε β} (hx : Only P x) (hf : ∀ a, Only P (f a)) :
    Only P (x.bind f) := by
  induction x with
  | ret a => exact hf a
  | raise e => trivial
  | stmt s k ih => exact ⟨hx.1, fun r => ih r (hx.2 r)⟩

theorem tryCatch {x : Prog S R ε α} {f : ε → Prog S R ε α} (hx : Only P x)
    (hf : ∀ e, Only P (f e)) :
    Only P (x.tryCatch f) := by
  induction x with
  | ret a => trivial
  | raise e => exact hf e
  | stmt s k ih => exact ⟨hx.1, fun r => ih r (hx.2 r)⟩

theorem each {f : α → Prog S R ε Unit} {as : List α} (h : ∀ a ∈ as, Only P (f a)) :
    Only P (Prog.each f as) := by
  induction as with
  | nil => trivial
  | cons a as ih =>
    exact bind (h a List.mem_cons_self) fun _ => ih fun b hb => h b (List.mem_cons_of_mem a hb)

theorem all (x : Prog S R ε α) : Only (fun _ => True) x := by
  induction x with
  | ret a => trivial
  | raise e => trivial
  | stmt s k ih => exact ⟨trivial, ih⟩

end Only

end Prog

end Interleave
