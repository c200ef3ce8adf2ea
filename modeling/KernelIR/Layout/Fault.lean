import KernelIR.Results
import KernelIR.Signed

/-!
What can go wrong with memory layouts. A refusal is an argument that cannot be served, and callers
are expected to handle it. A fault is a broken contract of the caller, or an address that does not
fit its width; nothing can be computed after it.
-/

set_option autoImplicit false

namespace KernelIR.Layout

inductive Axis where
  | x
  | y
  | z
deriving DecidableEq, Repr

def Axis.letter : Axis → String
  | .x => "x"
  | .y => "y"
  | .z => "z"

def tupleText (components : List Int) : String :=
  "(" ++ ", ".intercalate (components.map toString) ++ ")"

inductive Refusal where
  | unsupportedAlignment (alignment elementSize : Int)
  | lengthOutOfRange (length : Int)
  | elementSizeOutOfRange (size : Int)
  | indexOverflow (value : Int)
deriving DecidableEq, Repr

def Refusal.message : Refusal → String
  | .unsupportedAlignment alignment elementSize =>
      s!"unsupported alignment {alignment} bytes for {elementSize}-byte elements: " ++
        "alignment must be a positive power of two and a multiple of the element size"
  | .lengthOutOfRange length => s!"leading dimension length out of range: {length}"
  | .elementSizeOutOfRange size => s!"element size out of range: {size}"
  | .indexOverflow value => s!"value {value} does not fit a 32-bit index"

inductive Fault where
  | overflow (operation : Overflow)
  | pitchNotPositive (family : String) (axis : Axis) (pitch : Int)
  | planeBelowRow (family : String) (planeAxis : Axis) (plane : Int) (rowAxis : Axis) (row : Int)
  | stridesNotPositive (strides : List Int)
  | rowExceedsPitch (extent : List Int) (axis : Axis) (length : Int) (pitchAxis : Axis)
      (pitch : Int)
  | planeExceedsPitch (extent : List Int) (plane : Int) (axis : Axis) (stride : Int)
deriving DecidableEq, Repr

def Fault.message : Fault → String
  | .overflow operation => operation.message
  | .pitchNotPositive family axis pitch =>
      family ++ " " ++ axis.letter ++ s!" stride must be positive, got {pitch}"
  | .planeBelowRow family planeAxis plane rowAxis row =>
      family ++ " " ++ planeAxis.letter ++ s!" stride {plane} must be at least the " ++
        rowAxis.letter ++ s!" stride {row}"
  | .stridesNotPositive strides => "strides must be positive, got " ++ tupleText strides
  | .rowExceedsPitch extent axis length pitchAxis pitch =>
      "extent " ++ tupleText extent ++ " exceeds pitch: " ++ axis.letter ++
        s!" extent {length} > " ++ pitchAxis.letter ++ s!" stride {pitch}"
  | .planeExceedsPitch extent plane axis stride =>
      "extent " ++ tupleText extent ++ s!" exceeds pitch: plane of {plane} elements > " ++
        axis.letter ++ s!" stride {stride}"

inductive Failure where
  | refused (cause : Refusal)
  | fault (cause : Fault)
deriving DecidableEq, Repr

instance : MonadLift (Except Overflow) (Except Fault) where
  monadLift action := action.mapError .overflow

instance : MonadLift (Except Refusal) (Except Failure) where
  monadLift action := action.mapError .refused

instance : MonadLift (Except Fault) (Except Failure) where
  monadLift action := action.mapError .fault

variable {α : Type}

theorem lift_overflow_eq_ok_iff (action : Except Overflow α) (value : α) :
    (liftM action : Except Fault α) = .ok value ↔ action = .ok value :=
  mapError_eq_ok_iff Fault.overflow action value

theorem lift_fault_eq_ok_iff (action : Except Fault α) (value : α) :
    (liftM action : Except Failure α) = .ok value ↔ action = .ok value :=
  mapError_eq_ok_iff Failure.fault action value

end KernelIR.Layout
