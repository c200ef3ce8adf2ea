import KernelIR.Results
import KernelIR.Signed
import KernelIR.Path
import KernelIR.Host.Kind

/-!
What can go wrong while values are built. An error is reported by the call that meets it and leaves
a usable state. A fault is a broken contract of the caller, such as a handle from another graph;
nothing can be built after it.
-/

set_option autoImplicit false

namespace KernelIR

inductive BuildError where
  /-- Types by their text: the pool may have forgotten them when the error is read. -/
  | typeMismatch (expected found : String)
  | outOfRange (path : Path) (index fieldCount : Nat)
  | unsupportedHost (typeName : String) (kind : HostKind)
  | emptyPath
  | noOperands
  | nullInstance
  | missingField
  | rejected (reason : String)
deriving DecidableEq, Repr

def BuildError.message : BuildError → String
  | .typeMismatch expected found => "type mismatch: expected " ++ expected ++ ", found " ++ found
  | .outOfRange path index fieldCount =>
      "field access " ++ path.text ++
        s!" out of range: index {index} into a structure with {fieldCount} fields"
  | .unsupportedHost typeName kind =>
      "unsupported host type `" ++ typeName ++ "`: " ++ kind.name ++
        " instances cannot be mirrored as structure values"
  | .emptyPath => "invalid argument: empty field access chain"
  | .noOperands => "invalid argument: structure value needs at least one operand"
  | .nullInstance => "invalid argument: null host instance"
  | .missingField => "invalid argument: host descriptor is missing a declared field"
  | .rejected reason => "invalid argument: " ++ reason

inductive Fault where
  | overflow (operation : Overflow)
  | outOfBounds (length index : Nat)
  | unknownBlock (block blocks : Nat)
  | fieldOutsidePool
  /-- More fields were declared than any list of handles can hold. -/
  | capacity
  /-- A walk along operands or field types that returns to where it was. -/
  | endless
deriving DecidableEq, Repr

def Fault.message : Fault → String
  | .overflow operation => operation.message
  | .outOfBounds length index =>
      s!"index out of bounds: the len is {length} but the index is {index}"
  | .unknownBlock block blocks => s!"BlockId {block} out of bounds (have {blocks} blocks)"
  | .fieldOutsidePool => "structure field references a type outside the pool"
  | .capacity => "capacity overflow"
  | .endless => "the walk along a cycle does not end"

inductive Failure where
  | error (cause : BuildError)
  | fault (cause : Fault)
deriving DecidableEq, Repr

instance : MonadLift (Except BuildError) (Except Failure) where
  monadLift action := action.mapError .error

instance : MonadLift (Except Fault) (Except Failure) where
  monadLift action := action.mapError .fault

namespace Failure

variable {α : Type}

@[simp]
theorem lift_ok (value : α) :
    (liftM (.ok value : Except Fault α) : Except Failure α) = .ok value := rfl

@[simp]
theorem lift_build_ok (value : α) :
    (liftM (.ok value : Except BuildError α) : Except Failure α) = .ok value := rfl

@[simp]
theorem lift_error (cause : BuildError) :
    (liftM (.error cause : Except BuildError α) : Except Failure α) = .error (.error cause) := rfl

theorem lift_ne_error (action : Except Fault α) (cause : BuildError) :
    (liftM action : Except Failure α) ≠ .error (.error cause) := by
  cases action with
  | ok value => exact nofun
  | error fault => exact nofun

theorem lift_eq_ok_iff (action : Except Fault α) (value : α) :
    (liftM action : Except Failure α) = .ok value ↔ action = .ok value :=
  mapError_eq_ok_iff Failure.fault action value

end Failure

end KernelIR
