import KernelIR.Failure

/-!
Steps of building. A step takes a state and ends with a value, with an error, or with a fault.
After an error the state is still there, as far as the step got; after a fault it is not.
-/

set_option autoImplicit false

namespace KernelIR

inductive Outcome (σ α : Type) where
  | ok (value : α) (state : σ)
  | error (cause : BuildError) (state : σ)
  | fault (cause : Fault)

def Build (σ α : Type) : Type := σ → Outcome σ α

namespace Build

variable {σ τ α β : Type}

def andThen (first : Build σ α) (next : α → Build σ β) : Build σ β := fun state =>
  match first state with
  | .ok value later => next value later
  | .error cause later => .error cause later
  | .fault cause => .fault cause

instance : Monad (Build σ) where
  pure value := fun state => .ok value state
  bind := andThen

@[simp]
theorem pure_apply (value : α) (state : σ) :
    (pure value : Build σ α) state = .ok value state := rfl

theorem bind_apply (first : Build σ α) (next : α → Build σ β) (state : σ) :
    (first >>= next) state =
      match first state with
      | .ok value later => next value later
      | .error cause later => .error cause later
      | .fault cause => .fault cause := rfl

def error (cause : BuildError) : Build σ α := fun state => .error cause state

def fault (cause : Fault) : Build σ α := fun _ => .fault cause

/-- A question to the state, which leaves it as it is. -/
def ask (question : σ → Except Failure α) : Build σ α := fun state =>
  match question state with
  | .ok value => .ok value state
  | .error (.error cause) => .error cause state
  | .error (.fault cause) => .fault cause

def onSecond (step : Build σ α) : Build (τ × σ) α := fun (left, state) =>
  match step state with
  | .ok value later => .ok value (left, later)
  | .error cause later => .error cause (left, later)
  | .fault cause => .fault cause

end Build

end KernelIR
