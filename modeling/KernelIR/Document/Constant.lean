import KernelIR.Constant
import KernelIR.Document.Basic

/-!
Stored form of scalar types and constants.
-/

set_option autoImplicit false

namespace KernelIR

namespace ScalarType

def storedName : ScalarType → String
  | .void => "Void"
  | .i1 => "Int1"
  | .i8 => "Int8"
  | .i16 => "Int16"
  | .i32 => "Int32"
  | .i64 => "Int64"
  | .f16 => "Float16"
  | .f32 => "Float32"
  | .f64 => "Float64"

def ofStoredName? (name : String) : Option ScalarType :=
  all.find? fun type => type.storedName == name

def encode (type : ScalarType) : Document := .text type.storedName

def decode? (document : Document) : Option ScalarType := do
  let choice ← document.choice?
  if choice.isBare then ofStoredName? choice.name else none

end ScalarType

def Signed.encode {bits : Nat} (value : Signed bits) : Document := .int value.val

def Signed.decode? (bits : Nat) (document : Document) : Option (Signed bits) := do
  let value ← document.integer?
  Signed.ofInt? bits value

def decodeBits? (bits : Nat) (document : Document) : Option (BitVec bits) := do
  let value ← document.word? bits
  return BitVec.ofNat bits value

namespace Constant

def content : Constant → Document
  | .int1 value => .bool value
  | .int8 value => value.encode
  | .int16 value => value.encode
  | .int32 value => value.encode
  | .int64 value => value.encode
  | .float16 bits => .nat bits.toNat
  | .float32 bits => .nat bits.toNat
  | .float64 bits => .nat bits.toNat

def encode (constant : Constant) : Document :=
  Document.choice constant.type.storedName constant.content

def decode? (document : Document) : Option Constant := do
  let choice ← document.choice?
  let type ← ScalarType.ofStoredName? choice.name
  let content ← choice.content
  match type with
  | .void => none
  | .i1 => content.bool?.map .int1
  | .i8 => (Signed.decode? 8 content).map .int8
  | .i16 => (Signed.decode? 16 content).map .int16
  | .i32 => (Signed.decode? 32 content).map .int32
  | .i64 => (Signed.decode? 64 content).map .int64
  | .f16 => (decodeBits? 16 content).map .float16
  | .f32 => (decodeBits? 32 content).map .float32
  | .f64 => (decodeBits? 64 content).map .float64

end Constant

end KernelIR
