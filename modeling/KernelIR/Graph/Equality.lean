import KernelIR.Graph.Basic

/-!
Equality of what two values compute: the same kind and type, and operands that compute the same.
Two defaults of one type are equal although they are distinct values. A comparison keeps a list of
pairs that are still to be compared, the newest first.
-/

set_option autoImplicit false

namespace KernelIR

-- Powers are those of the core library, whatever else is in scope.
attribute [local instance (2000)] instPowNat

/-- The operands that are left to compare where two kinds agree. The written values come before the
objects. -/
def ValueKind.pairs? : ValueKind → ValueKind → Option (List (ValueId × ValueId))
  | .null, .null => some []
  | .parameter index, .parameter number => if index = number then some [] else none
  | .constant value, .constant bits => if value = bits then some [] else none
  | .write object path value, .write version place stored =>
      if path = place then some [(value, stored), (object, version)] else none
  | .read object path, .read version place =>
      if path = place then some [(object, version)] else none
  | _, _ => none

namespace Graph

/-- A value is the same as itself, wherever that is. -/
def pairs? (graph : Graph) (a b : ValueId) : Except Fault (Option (List (ValueId × ValueId))) :=
  if a = b then .ok (some []) else do
    let left ← graph.find a
    let right ← graph.find b
    return if left.type = right.type then left.kind.pairs? right.kind else none

def sameAll (graph : Graph) : Nat → List (ValueId × ValueId) → Except Fault Bool
  | _, [] => .ok true
  | 0, _ :: _ => .error .endless
  | rounds + 1, (a, b) :: pairs => do
      match ← graph.pairs? a b with
      | some operands => sameAll graph rounds (operands ++ pairs)
      | none => return false

/-- A descent that meets no pair of values twice ends before it has met all pairs, and at most two
pairs take the place of one. -/
def same (graph : Graph) (a b : ValueId) : Except Fault Bool :=
  graph.sameAll (2 ^ (graph.size * graph.size + 1)) [(a, b)]

end Graph

end KernelIR
