import KernelIR.Builder.Record

/-!
Host instances as values. A leaf is made into a value by a factory that belongs to the host. A
composite becomes a structure of its fields, in their declared order. References and arrays have no
value. If the conversion fails anywhere, the builder forgets all that it added.
-/

set_option autoImplicit false

namespace KernelIR

/-- An instance with leaves `α`. A composite declares how many fields it has; the list of fields is
what its description then supplies. -/
inductive Host (α : Type) where
  | null
  | primitive (leaf : α)
  | enumeration (leaf : α)
  | composite (declared : Nat) (fields : List (Host α))
  | reference (typeName : String)
  | array (typeName : String)

namespace Host

variable {τ α : Type}

abbrev Factory (τ α : Type) : Type := α → Build (τ × Builder) ValueId

/-- A list of four-byte handles cannot be longer than this. -/
def fieldLimit : Nat := (1 <<< 63 - 1) / 4

def assemble (values : List ValueId) : Build Builder ValueId := do
  let type ← Builder.typeOfFields values
  let object ← Builder.defaultRecord type
  Builder.writeFields object 0 values

mutual

def convert (factory : Factory τ α) : Host α → Build (τ × Builder) ValueId
  | .null => Build.error .nullInstance
  | .primitive leaf => factory leaf
  | .enumeration leaf => factory leaf
  | .reference typeName => Build.error (.unsupportedHost typeName .reference)
  | .array typeName => Build.error (.unsupportedHost typeName .array)
  | .composite declared fields =>
      if declared ≤ fieldLimit then do
        let values ← convertFields factory declared fields
        Build.onSecond (assemble values)
      else Build.fault .capacity

def convertFields (factory : Factory τ α) : Nat → List (Host α) → Build (τ × Builder) (List ValueId)
  | 0, _ => pure []
  | _ + 1, [] => Build.error .missingField
  | declared + 1, field :: fields => do
      let value ← convert factory field
      let values ← convertFields factory declared fields
      return value :: values

end

/-- The value of an instance. On failure the builder is left as it was; the factory keeps its
state. -/
def embed (factory : Factory τ α) (host : Host α) : Build (τ × Builder) ValueId :=
  fun (tally, builder) =>
    match convert factory host (tally, builder) with
    | .ok value later => .ok value later
    | .error cause (tally, later) => .error cause (tally, later.rollback builder.mark)
    | .fault cause => .fault cause

end Host

end KernelIR
