/-
Graphs of nodes over a state. A node is a program that makes the next state of
the one it is given; the edges out of a node choose the next one from the state
it made. A graph that is invoked runs node after node until an edge leads to
the end, or until it has taken as many steps as it may.
-/
import ProjectAgent.Lib.Calls

namespace Interleave

structure StateGraph (N St S : Type) (R : S → Type) (ε : Type) where
  node : N → St → Prog S R ε St
  /-- `none` is the end. -/
  next : N → St → Option N

namespace StateGraph

variable {N St S : Type} {R : S → Type} {ε σ : Type}

def invoke (G : StateGraph N St S R ε) (limitReached : ε) : Nat → N → St → Prog S R ε St
  | 0, _, _ => .raise limitReached
  | limit + 1, n, st => (G.node n st).bind fun st' =>
    match G.next n st' with
    | none => .ret st'
    | some n' => G.invoke limitReached limit n' st'

variable {G : StateGraph N St S R ε} {limitReached : ε} {limit : Nat} {n : N} {st : St}

/-- What a node leaves is known at the next one, which is ranked lower, or is what the graph ends
with. -/
def Leaves (G : StateGraph N St S R ε) (At : N → St → σ → Prop) (rank : N → St → Nat)
    (post : Except ε St → σ → Prop) (n : N) (st : St) : Except ε St → σ → Prop
  | .ok st', σ => match G.next n st' with
    | none => post (.ok st') σ
    | some n' => At n' st' σ ∧ rank n' st' < rank n st
  | .error e, σ => post (.error e) σ

/-- The rule of an invocation that ends: no node is reached that has not been ranked lower than the
one before, so that a limit greater than the first one's rank is not reached. -/
theorem invoke_ends_of_rank {answers : (s : S) → σ → Except ε (R s) → σ → Prop}
    {At : N → St → σ → Prop} {rank : N → St → Nat} {post : Except ε St → σ → Prop}
    (hnode : ∀ n st σ, At n st σ → Prog.Ends answers (G.Leaves At rank post n st) (G.node n st) σ)
    {σ₀ : σ} (h : At n st σ₀) (hlimit : rank n st < limit) :
    Prog.Ends answers post (G.invoke limitReached limit n st) σ₀ := by
  induction limit generalizing n st σ₀ with
  | zero => exact absurd hlimit (Nat.not_lt_zero _)
  | succ limit ih =>
    refine (hnode n st σ₀ h).bind (fun st' σ' hleft => ?_) fun e σ' hleft => hleft
    simp only [Leaves] at hleft
    split at hleft
    · exact hleft
    · exact ih hleft.1 (by omega)

end StateGraph

end Interleave
