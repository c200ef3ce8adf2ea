import KernelIR.Builder.Basic
import KernelIR.Pool.Resolve
import KernelIR.Pool.Tree

/-!
Reading and writing fields. A write appends a new version of its object. A read follows the
versions of its object backwards to the last write that says something about the field: a write of
exactly this field gives the written value; a write of an enclosing field is read further inside;
a write inside the field leaves it partly open; writes elsewhere are passed over. Where the
versions begin with a default, so does the field.
-/

set_option autoImplicit false

namespace KernelIR

inductive Version where
  | stored (value : ValueId)
  | within (value : ValueId) (rest : Path)
  | initial
  | undecided
deriving DecidableEq

inductive Answer where
  | stored (value : ValueId)
  | initial (type : TypeId)
  | load (object : ValueId) (path : Path) (type : TypeId)
deriving DecidableEq

namespace Graph

/-- The fuel runs out only where versions form a cycle. -/
def lastWrite (graph : Graph) (path : Path) : Nat → ValueId → Except Fault Version
  | 0, _ => .error .endless
  | fuel + 1, current => do
      let value ← graph.find current
      match value.kind with
      | .write object written stored =>
          if written = path then return .stored stored
          match path.remainder? written with
          | some rest => return .within stored rest
          | none => if path.encloses written then return .undecided
                    else lastWrite graph path fuel object
      | .null => return .initial
      | .parameter _ | .constant _ | .read _ _ => return .undecided

def fieldType (graph : Graph) (pool : Pool) (object : ValueId) (path : Path) :
    Except Failure TypeId := do
  let type ← graph.typeOf object
  match pool.fieldsOf type with
  | .ok _ => pool.resolve type path
  | .error found => throw (.error (.typeMismatch "a structure value" found))

def locateFrom (graph : Graph) (pool : Pool) : Nat → ValueId → Path → Except Failure Answer
  | 0, _, _ => throw (.fault .endless)
  | fuel + 1, object, path => do
      let type ← graph.fieldType pool object path
      match ← graph.lastWrite path (graph.size + 1) object with
      | .stored value => return .stored value
      | .within value rest => locateFrom graph pool fuel value rest
      | .initial => return .initial type
      | .undecided => return .load object path type

/-- Paths only become shorter, or stay what they are while the object changes. -/
def locate (graph : Graph) (pool : Pool) (object : ValueId) (path : Path) :
    Except Failure Answer :=
  graph.locateFrom pool (graph.size * path.length + 1) object path

end Graph

namespace Builder

/-- Appends a value only if no value of the graph answers the read. -/
def read (object : ValueId) (path : Path) : Build Builder ValueId := do
  match ← Build.ask fun builder => builder.graph.locate builder.pool object path with
  | .stored value => pure value
  | .initial type => null type
  | .load object path type => append (.read object path) type

def typeText (builder : Builder) (type : TypeId) : Except Failure String :=
  match builder.pool.render? type with
  | some text => .ok text
  | none => .error (.fault .endless)

def writeType (builder : Builder) (object : ValueId) (path : Path) (value : ValueId) :
    Except Failure TypeId := do
  let field ← builder.graph.fieldType builder.pool object path
  let type ← builder.graph.typeOf value
  if field = type then
    builder.graph.typeOf object
  else
    let expected ← builder.typeText field
    let found ← builder.typeText type
    throw (.error (.typeMismatch expected found))

/-- Appends a version even if the field has this value already. -/
def write (object : ValueId) (path : Path) (value : ValueId) : Build Builder ValueId := do
  let type ← Build.ask fun builder => builder.writeType object path value
  append (.write object path value) type

end Builder

end KernelIR
