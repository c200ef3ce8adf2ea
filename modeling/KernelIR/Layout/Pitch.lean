import KernelIR.Layout.Fault

/-!
Pitched lengths. A row is padded to the next length whose size in bytes is a multiple of the
alignment, so that every row begins on an aligned byte if the first one does.
-/

set_option autoImplicit false

namespace KernelIR.Layout

-- Powers are those of the core library, whatever else is in scope.
attribute [local instance (2000)] instPowNat

def isPowerOfTwo (value : Nat) : Bool := value ≠ 0 && 2 ^ value.log2 == value

/-- A whole number of elements fits between two aligned bytes. -/
def Alignable (alignment elementSize : Int) : Prop :=
  0 < alignment ∧ isPowerOfTwo alignment.toNat ∧ alignment % elementSize = 0

instance (alignment elementSize : Int) : Decidable (Alignable alignment elementSize) :=
  inferInstanceAs (Decidable (_ ∧ _ ∧ _))

/-- Rounds up to whole chunks of `alignment / elementSize` elements. The sum before the division is
the only step that can leave 64 bits. -/
def pitchedLength (length alignment elementSize : Signed 64) : Except Refusal (Signed 64) :=
  if length.val < 0 then
    .error (.lengthOutOfRange length.val)
  else if elementSize.val ≤ 0 then
    .error (.elementSizeOutOfRange elementSize.val)
  else if ¬ Alignable alignment.val elementSize.val then
    .error (.unsupportedAlignment alignment.val elementSize.val)
  else
    let chunk := alignment.val / elementSize.val
    let padded? := Signed.ofInt? 64 (length.val + (chunk - 1))
    match padded?.bind fun padded => Signed.ofInt? 64 (padded.val / chunk * chunk) with
    | some rounded => .ok rounded
    | none => .error (.lengthOutOfRange length.val)

end KernelIR.Layout
