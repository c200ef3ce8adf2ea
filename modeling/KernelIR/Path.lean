/-!
Paths of field indices, from a structure value down to one of its nested fields: `[1, 0]` is
field 0 of field 1. A path encloses another if it is an initial part of it; the remainder is what
is then left to walk.
-/

set_option autoImplicit false

namespace KernelIR

abbrev Path := List Nat

namespace Path

def extend (path : Path) (index : Nat) : Path := path ++ [index]

def take? (path : Path) (length : Nat) : Option Path :=
  if length ≤ path.length then some (path.take length) else none

/-- `outer.encloses inner`: the walk along `inner` begins with the whole of `outer`. -/
def encloses : Path → Path → Bool
  | [], _ => true
  | _ :: _, [] => false
  | step :: outer, index :: inner => step == index && encloses outer inner

/-- What is left of a path behind a strictly shorter path that encloses it. -/
def remainder? (path outer : Path) : Option Path :=
  if outer.length < path.length ∧ encloses outer path then some (path.drop outer.length) else none

/-- Lexicographic order; a path comes before its extensions. -/
def order : Path → Path → Ordering
  | [], [] => .eq
  | [], _ :: _ => .lt
  | _ :: _, [] => .gt
  | a :: path, b :: other =>
      if a < b then .lt else if b < a then .gt else order path other

def text (path : Path) : String :=
  "[" ++ ", ".intercalate (path.map toString) ++ "]"

end Path

end KernelIR
