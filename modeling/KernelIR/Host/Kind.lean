/-!
The kinds of host instances, told apart by what becomes of them in a structure value.
-/

set_option autoImplicit false

namespace KernelIR

inductive HostKind where
  | null
  | primitive
  | enumeration
  | composite
  /-- Shared and mutable, which no flat structure can be. -/
  | reference
  | array
deriving DecidableEq, Repr

namespace HostKind

def name : HostKind → String
  | .null => "null"
  | .primitive => "primitive"
  | .enumeration => "enumeration"
  | .composite => "composite"
  | .reference => "reference"
  | .array => "array"

/-- A name that is not known describes nothing. -/
def ofName (name : String) : HostKind :=
  match name with
  | "primitive" => .primitive
  | "enumeration" => .enumeration
  | "composite" => .composite
  | "reference" => .reference
  | "array" => .array
  | _ => .null

end HostKind

end KernelIR
