import StackEffect.CompileError

/-! Computations that change a state, also when they fail. -/
namespace StackEffect

/-- A failing action answers the state at its failure beside the error. -/
abbrev Action (σ α : Type) := EStateM CompileError σ α

namespace Action
variable {σ τ α : Type}

def ofExcept : Except CompileError α → Action σ α
  | .ok a => pure a
  | .error e => throw e

/-- Runs an action on a part of the state. -/
def within (get : σ → τ) (set : τ → σ → σ) (action : Action τ α) : Action σ α := fun s =>
  match action (get s) with
  | .ok a t => .ok a (set t s)
  | .error e t => .error e (set t s)

/-- Runs an action and answers its result, or its error, as a value. -/
def attempt (action : Action σ α) (s : σ) : Except CompileError α × σ :=
  match action s with
  | .ok a t => (.ok a, t)
  | .error e t => (.error e, t)

@[simp] theorem ofExcept_ok (a : α) (s : σ) : (ofExcept (.ok a) : Action σ α) s = .ok a s := rfl

@[simp] theorem ofExcept_error (e : CompileError) (s : σ) :
    (ofExcept (.error e) : Action σ α) s = .error e s := rfl

end Action
end StackEffect
