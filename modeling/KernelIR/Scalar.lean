/-!
The scalar types of the kernel language and the handles by which all types are named. Every pool
of types begins with the scalar types in the order given here, so their handles are fixed.
-/

set_option autoImplicit false

namespace KernelIR

abbrev TypeId := Nat

inductive ScalarType where
  | void
  | i1
  | i8
  | i16
  | i32
  | i64
  | f16
  | f32
  | f64
deriving DecidableEq, Repr

namespace ScalarType

def all : List ScalarType := [.void, .i1, .i8, .i16, .i32, .i64, .f16, .f32, .f64]

def id : ScalarType → TypeId
  | .void => 0
  | .i1 => 1
  | .i8 => 2
  | .i16 => 3
  | .i32 => 4
  | .i64 => 5
  | .f16 => 6
  | .f32 => 7
  | .f64 => 8

def ofId? (id : TypeId) : Option ScalarType := all[id]?

theorem ofId?_id (type : ScalarType) : ofId? type.id = some type := by
  cases type <;> rfl

theorem id_injective {type other : ScalarType} (same : type.id = other.id) : type = other := by
  have found := ofId?_id type
  rw [same, ofId?_id other] at found
  exact (Option.some.inj found).symm

def name : ScalarType → String
  | .void => "void"
  | .i1 => "i1"
  | .i8 => "i8"
  | .i16 => "i16"
  | .i32 => "i32"
  | .i64 => "i64"
  | .f16 => "f16"
  | .f32 => "f32"
  | .f64 => "f64"

/-- Storage in bytes. Nothing is stored for `void`. -/
def byteSize : ScalarType → Nat
  | .void => 0
  | .i1 | .i8 => 1
  | .i16 | .f16 => 2
  | .i32 | .f32 => 4
  | .i64 | .f64 => 8

end ScalarType

namespace TypeId

def scalarCount : Nat := ScalarType.all.length

def isScalar (id : TypeId) : Bool := id < scalarCount

/-- The handle as diagnostics show it: by name where it is fixed, else by number. -/
def label (id : TypeId) : String :=
  match ScalarType.ofId? id with
  | some type => "Idx::" ++ type.name
  | none => "Idx(" ++ toString id ++ ")"

end TypeId

end KernelIR
