import KernelIR.Graph.Basic
import KernelIR.Pool.Resolve

/-!
A check of graphs that were not made by the builder. It reports each place where a value breaks
one of the rules: operands are older than their user, the block of a value exists and lists it,
types are in the pool, and types agree with what the value computes.
-/

set_option autoImplicit false

namespace KernelIR

inductive Problem where
  | forwardOperand (value operand : ValueId)
  | unknownBlock (value : ValueId)
  | notInBlock (value : ValueId)
  | unknownType (value : ValueId)
  | invalidAccess (value : ValueId) (cause : BuildError)
  | typeMismatch (value : ValueId) (expected found : TypeId)
deriving DecidableEq

namespace Problem

def value : Problem → ValueId
  | .forwardOperand value _ => value
  | .unknownBlock value => value
  | .notInBlock value => value
  | .unknownType value => value
  | .invalidAccess value _ => value
  | .typeMismatch value _ _ => value

def message : Problem → String
  | .forwardOperand value operand =>
      s!"%{value} uses %{operand}, which is not defined before it"
  | .unknownBlock value => s!"%{value} is assigned to a nonexistent block"
  | .notInBlock value => s!"%{value} is missing from its block"
  | .unknownType value => s!"%{value} refers to a type outside the pool"
  | .invalidAccess value cause => s!"%{value}: " ++ cause.message
  | .typeMismatch value expected found =>
      s!"%{value} has type " ++ TypeId.label found ++ ", expected " ++ TypeId.label expected

end Problem

namespace Graph

def operandProblems (id : ValueId) (kind : ValueKind) : List Problem :=
  (kind.operands.filter (id ≤ ·)).map (.forwardOperand id)

def blockProblems (graph : Graph) (id : ValueId) (block : BlockId) : List Problem :=
  match graph.blocks[block]? with
  | none => [.unknownBlock id]
  | some ids => if id ∈ ids then [] else [.notInBlock id]

def expectType (id : ValueId) (expected found : TypeId) : List Problem :=
  if expected = found then [] else [.typeMismatch id expected found]

def accessProblems (pool : Pool) (id : ValueId) (object : TypeId) (path : Path)
    (found : TypeId → List Problem) : List Problem :=
  match pool.resolve object path with
  | .ok field => found field
  | .error cause => [.invalidAccess id cause]

def knownTypes? (graph : Graph) (pool : Pool) (ids : List ValueId) : Option (List TypeId) :=
  ids.mapM fun id =>
    match graph.values[id]? with
    | some value => if pool.contains value.type then some value.type else none
    | none => none

def typeProblems (graph : Graph) (pool : Pool) (id : ValueId) (value : Value) : List Problem :=
  if pool.contains value.type then
    match value.kind, graph.knownTypes? pool value.kind.operands with
    | .constant constant, some _ => expectType id constant.type.id value.type
    | .write _ path _, some [object, stored] =>
        expectType id object value.type ++
          accessProblems pool id object path fun field => expectType id field stored
    | .read _ path, some [object] =>
        accessProblems pool id object path fun field => expectType id field value.type
    | _, some _ => []
    | _, none => [.unknownType id]
  else [.unknownType id]

/-- Types are looked at only where all operands are older than the value. -/
def valueProblems (graph : Graph) (pool : Pool) (id : ValueId) (value : Value) : List Problem :=
  let forward := operandProblems id value.kind
  forward ++ graph.blockProblems id value.block ++
    (if forward.isEmpty then graph.typeProblems pool id value else [])

def verify (graph : Graph) (pool : Pool) : List Problem :=
  graph.values.zipIdx.flatMap fun (value, id) => graph.valueProblems pool id value

end Graph

end KernelIR
