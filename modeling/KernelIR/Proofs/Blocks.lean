import KernelIR.Proofs.Arena
import Mathlib.Data.List.Nodup

/-!
Graphs that began empty, whatever pools their builders had. Main statement: in every builder that
runs can reach, also with conversions that fail, the block to append to exists, the lists of the
blocks divide the values among them in the order of their creation, and the parameters are numbered
in that order. This says of the graph alone what the arena of a builder says of graph and pool.
-/

set_option autoImplicit false

namespace KernelIR

namespace Graph

theorem listing_increasing (values : List Value) (block : BlockId) :
    (listing values block).Pairwise (· < ·) := by
  -- From the last value backwards, since a new value comes last in the list of its block.
  induction values using List.reverseRecOn with
  | nil => exact .nil
  | append_singleton values added ih =>
      rw [listing_snoc]
      split
      · rw [List.pairwise_append]
        refine ⟨ih, List.pairwise_singleton _ _, ?_⟩
        intro id member last newest
        obtain ⟨value, stored, -⟩ := (mem_listing_iff values block id).mp member
        rw [List.mem_singleton.mp newest]
        exact lt_of_stored stored
      · rw [List.append_nil]
        exact ih

namespace Arranged

variable {graph : Graph}

theorem mem_block_iff (arranged : graph.Arranged) {block : BlockId} {ids : List ValueId}
    (found : graph.blocks[block]? = some ids) (id : ValueId) :
    id ∈ ids ↔ ∃ value, graph.values[id]? = some value ∧ value.block = block := by
  rw [arranged.listed found]
  exact mem_listing_iff graph.values block id

theorem block_increasing (arranged : graph.Arranged) {block : BlockId} {ids : List ValueId}
    (found : graph.blocks[block]? = some ids) : ids.Pairwise (· < ·) := by
  rw [arranged.listed found]
  exact listing_increasing graph.values block

theorem blocks_disjoint (arranged : graph.Arranged) : graph.blocks.Pairwise List.Disjoint := by
  rw [List.pairwise_iff_getElem]
  intro first second inside within before id here there
  obtain ⟨value, stored, own⟩ :=
    (arranged.mem_block_iff (List.getElem?_eq_getElem inside) id).mp here
  obtain ⟨again, found, other⟩ :=
    (arranged.mem_block_iff (List.getElem?_eq_getElem within) id).mp there
  rw [stored] at found
  cases found
  exact Nat.ne_of_lt before (own.symm.trans other)

theorem listed_once (arranged : graph.Arranged) : graph.blocks.flatten.Nodup := by
  rw [List.nodup_flatten]
  refine ⟨?_, arranged.blocks_disjoint⟩
  intro ids member
  obtain ⟨block, found⟩ := List.mem_iff_getElem?.mp member
  exact (arranged.block_increasing found).imp Nat.ne_of_lt

theorem blocks_partition (arranged : graph.Arranged) :
    graph.blocks.flatten.Perm (List.range graph.size) := by
  rw [List.perm_ext_iff_of_nodup arranged.listed_once List.nodup_range]
  intro id
  rw [List.mem_flatten, List.mem_range]
  constructor
  · rintro ⟨ids, member, listed⟩
    obtain ⟨block, found⟩ := List.mem_iff_getElem?.mp member
    obtain ⟨value, stored, -⟩ := (arranged.mem_block_iff found id).mp listed
    exact lt_of_stored stored
  · intro inside
    obtain ⟨value, stored⟩ := stored_of_lt inside
    obtain ⟨ids, found⟩ := stored_of_lt (arranged.owned value (List.mem_of_getElem? stored))
    exact ⟨ids, List.mem_of_getElem? found,
      (arranged.mem_block_iff found id).mpr ⟨value, stored, rfl⟩⟩

end Arranged

end Graph

namespace Builder

/-- The graph is arranged, and values can be appended. -/
structure Settled (builder : Builder) : Prop where
  placed : builder.block < builder.graph.blocks.length
  arranged : builder.graph.Arranged

theorem settled_kept (given : Builder → TypeId → Prop) :
    Kept given fun before after => before.Settled → after.Settled ∧ Grown before after := by
  apply (grown_kept given).invariant
  · intro before after settled change
    exact ⟨placed_of_change settled.placed change, arranged_of_change settled.arranged change⟩
  · intro before after settled later grown
    have graph : (after.rollback before.mark).graph = before.graph :=
      settled.arranged.undone later.arranged grown.values grown.blocks
    exact ⟨graph ▸ settled.placed, graph ▸ settled.arranged⟩

/-- Builders of a graph that was empty at first. The graph may be handed from one builder to the
next, and each of them brings a pool. -/
inductive FromEmpty (given : Builder → TypeId → Prop) : Builder → Prop
  | start (pool : Pool) : FromEmpty given (on Graph.empty pool)
  | run {before after : Builder} (begun : FromEmpty given before)
      (reached : Reaches given before after) : FromEmpty given after
  | next {before : Builder} (begun : FromEmpty given before) (pool : Pool) :
      FromEmpty given (on before.graph pool)

theorem FromEmpty.settled {given : Builder → TypeId → Prop} {builder : Builder}
    (begun : FromEmpty given builder) : builder.Settled := by
  induction begun with
  | start pool => exact ⟨Nat.one_pos, Graph.empty_arranged⟩
  | run _ reached ih => exact (reached.keeps (settled_kept given) ih).1
  | next _ pool ih => exact ⟨Nat.lt_of_le_of_lt (Nat.zero_le _) ih.placed, ih.arranged⟩

theorem parameter_of_placed {builder : Builder}
    (placed : builder.block < builder.graph.blocks.length) (type : TypeId)
    (room : builder.graph.params + 1 < paramLimit) :
    parameter type builder =
      .ok builder.graph.size
        (builder.counted.appended (.parameter builder.graph.params) type) := by
  have counted : builder.counted.block < builder.counted.graph.blocks.length := placed
  unfold parameter
  rw [if_pos room]
  exact append_of_placed counted (.parameter builder.graph.params) type

/-- However a graph that began empty was built, there is a block to append to and appending
succeeds; each block lists the values that belong to it, in the order of their creation; the lists
divide all values among them; and the parameters are numbered in that order. -/
theorem arena_stays_in_order {given : Builder → TypeId → Prop} {builder : Builder}
    (begun : FromEmpty given builder) :
    (0 < builder.graph.blocks.length ∧ builder.block < builder.graph.blocks.length) ∧
      (∀ (kind : ValueKind) (type : TypeId),
        append kind type builder = .ok builder.graph.size (builder.appended kind type)) ∧
      (∀ type : TypeId, builder.graph.params + 1 < paramLimit →
        parameter type builder = .ok builder.graph.size
          (builder.counted.appended (.parameter builder.graph.params) type)) ∧
      (∀ (block : BlockId) (ids : List ValueId), builder.graph.blocks[block]? = some ids →
        (∀ id, id ∈ ids ↔ ∃ value, builder.graph.values[id]? = some value ∧ value.block = block) ∧
          ids.Pairwise (· < ·)) ∧
      builder.graph.blocks.flatten.Perm (List.range builder.graph.size) ∧
      builder.graph.signature.map Prod.fst = List.range builder.graph.params := by
  have settled := begun.settled
  have arranged := settled.arranged
  have first : 0 < builder.graph.blocks.length :=
    Nat.lt_of_le_of_lt (Nat.zero_le _) settled.placed
  refine ⟨⟨first, settled.placed⟩, append_of_placed settled.placed,
    parameter_of_placed settled.placed, ?_, arranged.blocks_partition, arranged.numbered⟩
  intro block ids found
  exact ⟨arranged.mem_block_iff found, arranged.block_increasing found⟩

/-- Between two parameters in different blocks a conversion fails after an inner one has made a
record. -/
theorem failed_conversion_leaves_arena_in_order :
    let builder : Builder :=
      ⟨⟨[⟨.parameter 0, 4, 0⟩, ⟨.parameter 1, 4, 1⟩], [[0], [1]], 2⟩, Pool.scalars, 1⟩
    FromEmpty (fun _ _ => True) builder ∧ builder.graph.blocks.flatten.Perm (List.range 2) := by
  intro builder
  let parameter : Operation ValueId := .parameter 4
  let second : Operation ValueId := .newBlock
  let position : Operation ValueId := .positionAt 1
  let first : Builder := ⟨⟨[⟨.parameter 0, 4, 0⟩], [[0]], 1⟩, Pool.scalars, 0⟩
  let wider : Builder := ⟨⟨[⟨.parameter 0, 4, 0⟩], [[0], []], 1⟩, Pool.scalars, 0⟩
  let moved : Builder := ⟨⟨[⟨.parameter 0, 4, 0⟩], [[0], []], 1⟩, Pool.scalars, 1⟩
  let factory : Host.Factory Unit Bool :=
    Host.nested (Host.constants .int1) fun leaf => .composite 1 [.primitive leaf]
  let host : Host Bool := .composite 2 [.primitive true, .null]
  have acts : Host.ActsByRuns (fun _ _ => True) factory host ((), moved) :=
    Host.nested_acts _ _ fun leaf asked => Host.constants_act _ _ asked
  have failed : (Host.embed factory host ((), moved)).state? = some ((), moved) := rfl
  have start : Reaches (fun _ _ => True) empty empty := .start empty
  have one : Reaches (fun _ _ => True) empty first := start.step parameter trivial rfl
  have two : Reaches (fun _ _ => True) empty wider := one.step second trivial rfl
  have three : Reaches (fun _ _ => True) empty moved := two.step position trivial rfl
  have four : Reaches (fun _ _ => True) empty moved := .conversion three acts failed
  have five : Reaches (fun _ _ => True) empty builder := four.step parameter trivial rfl
  have begun : FromEmpty (fun _ _ => True) builder := .run (.start Pool.scalars) five
  exact ⟨begun, (arena_stays_in_order begun).2.2.2.2.1⟩

end Builder

end KernelIR
