import KernelIR.Pool.Basic
import KernelIR.Document.Constant

/-!
Stored form of pools, with all fields named. The handles that were given out for lists of field
types are pairs; of two pairs for the same list the later one counts.
-/

set_option autoImplicit false

namespace KernelIR

namespace TypeData

def encode : TypeData → Document
  | .scalar type => Document.choice "Primitive" type.encode
  | .record fields => Document.choice "Structure" (.record [("fields", .nats fields)])

def decode? (document : Document) : Option TypeData := do
  let choice ← document.choice?
  let content ← choice.content
  match choice.name with
  | "Primitive" => (ScalarType.decode? content).map .scalar
  | "Structure" => do
      let fields ← content.field? "fields"
      (fields.listOf? Document.word32?).map .record
  | _ => none

end TypeData

namespace Pool

abbrev Entry : Type := List TypeId × TypeId

def Entry.le (a b : Entry) : Bool :=
  a.2 < b.2 || (a.2 == b.2 && !(b.1 < a.1))

def Entry.encode (entry : Entry) : Document := .list [.nats entry.1, .nat entry.2]

def Entry.decode? (document : Document) : Option Entry := do
  match ← document.items? with
  | [fields, id] => return (← fields.listOf? Document.word32?, ← id.word32?)
  | _ => none

def replaceEntry (entries : List Entry) (entry : Entry) : List Entry :=
  entries.filter (fun earlier => earlier.1 ≠ entry.1) ++ [entry]

def encode (pool : Pool) : Document :=
  .record
    [("types", .list (pool.types.map TypeData.encode)),
      ("structures", .list ((pool.interned.mergeSort Entry.le).map Entry.encode)),
      ("empty", .bool pool.types.isEmpty)]

def decode? (document : Document) : Option Pool := do
  let types ← document.field? "types"
  let types ← types.listOf? TypeData.decode?
  let entries ← document.field? "structures"
  let entries ← entries.listOf? Entry.decode?
  return ⟨types, entries.foldl replaceEntry []⟩

end Pool

end KernelIR
