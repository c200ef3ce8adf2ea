import KernelIR.Constant
import KernelIR.Path
import KernelIR.Failure

/-!
Value graphs. A graph is a list of values in the order of their creation, together with the list
of the values of each block. Values are never changed: a write into a structure is a new value that
names the version before it, so operands point backwards.
-/

set_option autoImplicit false

namespace KernelIR

abbrev ValueId := Nat

/-- Position of a block in its graph. The first block is there from the start. -/
abbrev BlockId := Nat

inductive ValueKind where
  /-- The default of the value's type. -/
  | null
  | parameter (index : Nat)
  | constant (value : Constant)
  /-- `object` with `value` in place of its field at `path`. -/
  | write (object : ValueId) (path : Path) (value : ValueId)
  /-- The field of `object` at `path`. -/
  | read (object : ValueId) (path : Path)
deriving DecidableEq

namespace ValueKind

def operands : ValueKind → List ValueId
  | .null | .parameter _ | .constant _ => []
  | .write object _ value => [object, value]
  | .read object _ => [object]

def mnemonic : ValueKind → String
  | .null => "null"
  | .parameter _ => "param"
  | .constant _ => "const"
  | .write _ _ _ => "set_field"
  | .read _ _ => "get_field"

end ValueKind

structure Value where
  kind : ValueKind
  type : TypeId
  block : BlockId
deriving DecidableEq

structure Graph where
  values : List Value
  /-- The values of each block in the order of their creation. -/
  blocks : List (List ValueId)
  /-- Index of the next parameter. -/
  params : Nat
deriving DecidableEq

namespace Graph

def empty : Graph := ⟨[], [[]], 0⟩

def size (graph : Graph) : Nat := graph.values.length

def contains (graph : Graph) (id : ValueId) : Bool := id < graph.size

def find (graph : Graph) (id : ValueId) : Except Fault Value :=
  match graph.values[id]? with
  | some value => .ok value
  | none => .error (.outOfBounds graph.size id)

def typeOf (graph : Graph) (id : ValueId) : Except Fault TypeId := do
  let value ← graph.find id
  return value.type

def members (graph : Graph) (block : BlockId) : Except Fault (List ValueId) :=
  match graph.blocks[block]? with
  | some ids => .ok ids
  | none => .error (.outOfBounds graph.blocks.length block)

def append (graph : Graph) (kind : ValueKind) (type : TypeId) (block : BlockId) : Graph :=
  { graph with
    values := graph.values ++ [⟨kind, type, block⟩]
    blocks := graph.blocks.modify block (· ++ [graph.size]) }

def addBlock (graph : Graph) : Graph :=
  { graph with blocks := graph.blocks ++ [[]] }

structure Mark where
  values : Nat
  blocks : Nat
  params : Nat
deriving DecidableEq

def mark (graph : Graph) : Mark := ⟨graph.size, graph.blocks.length, graph.params⟩

/-- A list of values without the ones at its end that are not older than `limit`. -/
def dropNewer (limit : Nat) (ids : List ValueId) : List ValueId :=
  (ids.reverse.dropWhile fun id => limit ≤ id).reverse

def rollback (graph : Graph) (mark : Mark) : Graph :=
  { values := graph.values.take mark.values
    blocks := (graph.blocks.take mark.blocks).map (dropNewer mark.values)
    params := mark.params }

end Graph

end KernelIR
