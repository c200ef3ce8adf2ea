import KernelIR.Graph.Basic
import KernelIR.Document.Constant

/-!
Stored form of graphs. Reading checks the shape alone: handles may name nothing, which is what the
check of validity is for. Graphs and values may be lists of their fields; what a kind of value
carries is always named.
-/

set_option autoImplicit false

namespace KernelIR

namespace ValueKind

def encode : ValueKind → Document
  | .null => .text "Null"
  | .parameter index => Document.choice "Parameter" (.record [("index", .nat index)])
  | .constant value => Document.choice "Primitive" value.encode
  | .write object path value =>
      Document.choice "SetField"
        (.record [("object", .nat object), ("chain", .nats path), ("value", .nat value)])
  | .read object path =>
      Document.choice "GetField" (.record [("object", .nat object), ("chain", .nats path)])

def decode? (document : Document) : Option ValueKind := do
  let choice ← document.choice?
  if choice.name = "Null" then
    if choice.isBare then return .null else none
  let content ← choice.content
  match choice.name with
  | "Parameter" => do
      let index ← content.field? "index"
      return .parameter (← index.word32?)
  | "Primitive" => (Constant.decode? content).map .constant
  | "SetField" => do
      let object ← content.field? "object"
      let path ← content.field? "chain"
      let value ← content.field? "value"
      return .write (← object.word32?) (← path.listOf? Document.word32?) (← value.word32?)
  | "GetField" => do
      let object ← content.field? "object"
      let path ← content.field? "chain"
      return .read (← object.word32?) (← path.listOf? Document.word32?)
  | _ => none

end ValueKind

namespace Value

def encode (value : Value) : Document :=
  .record [("kind", value.kind.encode), ("ty", .nat value.type), ("block", .nat value.block)]

def decode? (document : Document) : Option Value := do
  match ← document.fields? ["kind", "ty", "block"] with
  | [kind, type, block] => return ⟨← ValueKind.decode? kind, ← type.word32?, ← block.word32?⟩
  | _ => none

end Value

namespace Graph

def encode (graph : Graph) : Document :=
  .record
    [("values", .list (graph.values.map Value.encode)),
      ("blocks", .list (graph.blocks.map Document.nats)),
      ("num_params", .nat graph.params)]

def decode? (document : Document) : Option Graph := do
  match ← document.fields? ["values", "blocks", "num_params"] with
  | [values, blocks, params] =>
      return ⟨← values.listOf? Value.decode?, ← blocks.listOf? (·.listOf? Document.word32?),
        ← params.word32?⟩
  | _ => none

end Graph

end KernelIR
