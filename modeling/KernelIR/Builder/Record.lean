import KernelIR.Builder.Access

/-!
Structure values. A structure is built from its default by one write for each field.
-/

set_option autoImplicit false

namespace KernelIR.Builder

def defaultRecord (type : TypeId) : Build Builder ValueId := do
  Build.ask fun builder =>
    match builder.pool.fieldsOf type with
    | .ok _ => .ok ()
    | .error found => .error (.error (.typeMismatch "a structure type" found))
  null type

def writeFields : ValueId → Nat → List ValueId → Build Builder ValueId
  | object, _, [] => pure object
  | object, index, value :: values => do
      let later ← write object [index] value
      writeFields later (index + 1) values

def typeOfFields (values : List ValueId) : Build Builder TypeId := do
  let types ← Build.ask fun builder => values.mapM fun id => liftM (builder.graph.typeOf id)
  recordType types

def recordOf (operands : List ValueId) : Build Builder ValueId := do
  if operands.isEmpty then
    Build.error .noOperands
  else
    let type ← typeOfFields operands
    let object ← null type
    writeFields object 0 operands

end KernelIR.Builder
