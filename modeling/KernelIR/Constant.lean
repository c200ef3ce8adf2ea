import KernelIR.Signed
import KernelIR.Scalar
import KernelIR.Decimal.Text

/-!
Constants of scalar type. Floating-point constants are kept as the bits of their format, so that
equality of constants is equality of bits.
-/

set_option autoImplicit false

namespace KernelIR

inductive Constant where
  | int1 (value : Bool)
  | int8 (value : Signed 8)
  | int16 (value : Signed 16)
  | int32 (value : Signed 32)
  | int64 (value : Signed 64)
  | float16 (bits : BitVec 16)
  | float32 (bits : BitVec 32)
  | float64 (bits : BitVec 64)
deriving DecidableEq

namespace Constant

def type : Constant → ScalarType
  | .int1 _ => .i1
  | .int8 _ => .i8
  | .int16 _ => .i16
  | .int32 _ => .i32
  | .int64 _ => .i64
  | .float16 _ => .f16
  | .float32 _ => .f32
  | .float64 _ => .f64

def hex16 (bits : BitVec 16) : String :=
  let digits := Nat.toDigits 16 bits.toNat
  String.ofList ('0' :: 'x' :: List.replicate (4 - digits.length) '0' ++ digits)

/-- Half-precision constants are shown by their bits, the wider ones as decimals. -/
def text : Constant → String
  | .int1 true => "true"
  | .int1 false => "false"
  | .int8 value => toString value.val
  | .int16 value => toString value.val
  | .int32 value => toString value.val
  | .int64 value => toString value.val
  | .float16 bits => hex16 bits
  | .float32 bits => Decimal.binary32.text bits.toNat
  | .float64 bits => Decimal.binary64.text bits.toNat

end Constant

end KernelIR
