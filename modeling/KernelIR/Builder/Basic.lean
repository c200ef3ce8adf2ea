import KernelIR.Builder.Outcome
import KernelIR.Graph.Basic
import KernelIR.Pool.Basic

/-!
The builder: a graph, its pool of types and the block at which values are appended. Here are the
steps that only add something, and marks to which a builder can be brought back.
-/

set_option autoImplicit false

namespace KernelIR

structure Builder where
  graph : Graph
  pool : Pool
  block : BlockId
deriving DecidableEq

namespace Builder

def on (graph : Graph) (pool : Pool) : Builder := ⟨graph, pool, 0⟩

def empty : Builder := on Graph.empty Pool.scalars

/-- Handles of parameters are words of 32 bits. -/
def paramLimit : Nat := 1 <<< 32

def newBlock : Build Builder BlockId := fun builder =>
  .ok builder.graph.blocks.length { builder with graph := builder.graph.addBlock }

def positionAt (block : BlockId) : Build Builder Unit := fun builder =>
  if block < builder.graph.blocks.length then .ok () { builder with block := block }
  else .fault (.unknownBlock block builder.graph.blocks.length)

def recordType (fields : List TypeId) : Build Builder TypeId := fun builder =>
  if fields.all builder.pool.contains then
    .ok (builder.pool.intern fields).1 { builder with pool := (builder.pool.intern fields).2 }
  else .fault .fieldOutsidePool

def append (kind : ValueKind) (type : TypeId) : Build Builder ValueId := fun builder =>
  if builder.block < builder.graph.blocks.length then
    .ok builder.graph.size
      { builder with graph := builder.graph.append kind type builder.block }
  else .fault (.unknownBlock builder.block builder.graph.blocks.length)

def null (type : TypeId) : Build Builder ValueId := append .null type

def constant (value : Constant) : Build Builder ValueId := append (.constant value) value.type.id

def parameter (type : TypeId) : Build Builder ValueId := fun builder =>
  if builder.graph.params + 1 < paramLimit then
    append (.parameter builder.graph.params) type
      { builder with graph := { builder.graph with params := builder.graph.params + 1 } }
  else .fault (.overflow .add)

structure Mark where
  graph : Graph.Mark
  types : Nat
  block : BlockId
deriving DecidableEq

def mark (builder : Builder) : Mark := ⟨builder.graph.mark, builder.pool.size, builder.block⟩

/-- Forgets what was added since the mark and returns to its block. -/
def rollback (builder : Builder) (mark : Mark) : Builder :=
  ⟨builder.graph.rollback mark.graph, builder.pool.rollback mark.types, mark.block⟩

end Builder

end KernelIR
