import KernelIR.Graph.Basic
import KernelIR.Pool.Tree

/-!
The text of a graph: one line for each value, grouped by block. A line names the value, its type,
what it computes and its operands.
-/

set_option autoImplicit false

namespace KernelIR

def ValueId.text (id : ValueId) : String := "%" ++ toString id

def ValueKind.arguments : ValueKind → String
  | .null => ""
  | .parameter index => " " ++ toString index
  | .constant value => " " ++ value.text
  | .write object path value =>
      " " ++ ValueId.text object ++ " " ++ path.text ++ " " ++ ValueId.text value
  | .read object path => " " ++ ValueId.text object ++ " " ++ path.text

namespace Graph

def line (graph : Graph) (pool : Pool) (id : ValueId) : Except Fault String := do
  let value ← graph.find id
  match pool.render? value.type with
  | some type =>
      return "  " ++ ValueId.text id ++ ": " ++ type ++ " = " ++ value.kind.mnemonic ++
        value.kind.arguments ++ "\n"
  | none => .error .endless

def blockText (graph : Graph) (pool : Pool) (index : BlockId) (ids : List ValueId) :
    Except Fault String := do
  let lines ← ids.mapM (graph.line pool)
  return "block " ++ toString index ++ ":\n" ++ String.join lines

def dump (graph : Graph) (pool : Pool) : Except Fault String := do
  let texts ← graph.blocks.zipIdx.mapM fun (ids, index) => graph.blockText pool index ids
  return String.join texts

end Graph

end KernelIR
