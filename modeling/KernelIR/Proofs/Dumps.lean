import KernelIR.Proofs.Blocks
import KernelIR.Proofs.Rows

/-!
Graphs are known by their dumps. What the rows of a dump leave out is fixed by how graphs are built:
a value belongs to the block that lists it, a constant has its own type, and the parameters are
counted. Main statement: a graph that began empty has a dump over every pool that was made from the
scalar types, and two such graphs without wide floating-point constants are equal exactly if their
dumps are.
-/

set_option autoImplicit false

namespace KernelIR

namespace Graph

variable {graph left right : Graph} {pool : Pool} {id : ValueId}

/-- The row of a value. For what is no value, a default stands in. -/
def row (graph : Graph) (pool : Pool) (id : ValueId) : Row :=
  let value := graph.values.getD id ⟨.null, 0, 0⟩
  .value id ((pool.tree? value.type).getD (.unknown value.type)) value.kind.text

def rows (graph : Graph) (pool : Pool) : List Row := Row.ofBlocks (graph.row pool) graph.blocks 0

theorem row_of_stored {value : Value} (stored : graph.values[id]? = some value)
    {tree : TypeTree} (unfolded : pool.tree? value.type = some tree) :
    graph.row pool id = .value id tree value.kind.text := by
  unfold row
  rw [List.getD_eq_getElem?_getD, stored, Option.getD_some]
  simp only [unfolded, Option.getD_some]

theorem line_eq_row (founded : pool.Founded) (inside : id < graph.size) :
    graph.line pool id = .ok ((graph.row pool id).text ++ "\n") := by
  obtain ⟨value, stored⟩ := stored_of_lt inside
  obtain ⟨tree, unfolded⟩ := founded.tree?_found value.type
  have shown : pool.render? value.type = some tree.text := by
    unfold Pool.render?
    rw [unfolded, Option.map_some]
  rw [row_of_stored stored unfolded]
  unfold line find
  simp only [stored, shown, bind, Except.bind, pure, Except.pure, Row.text, ValueKind.text,
    String.append_assoc]

theorem blockText_eq_rows (founded : pool.Founded) {ids : List ValueId}
    (inside : ∀ id ∈ ids, id < graph.size) (index : BlockId) :
    graph.blockText pool index ids =
      .ok (asLines ((Row.block index :: ids.map (graph.row pool)).map Row.text)) := by
  have lines : ids.mapM (graph.line pool) =
      .ok (ids.map fun id => (graph.row pool id).text ++ "\n") :=
    mapM_eq_ok_map fun id member => line_eq_row founded (inside id member)
  have header : "block " ++ toString index ++ ":\n" = (Row.block index).text ++ "\n" := by
    have mark : ":\n" = ":" ++ "\n" := rfl
    rw [Row.text, mark, ← String.append_assoc]
  unfold blockText
  simp only [lines, bind, Except.bind, pure, Except.pure]
  rw [header]
  unfold asLines
  rw [List.map_cons, List.map_cons, String.join_cons, List.map_map, List.map_map]
  rfl

/-- A graph whose blocks list only its values has a dump, which shows its rows. -/
theorem dump_eq_rows (founded : pool.Founded)
    (inside : ∀ id ∈ graph.blocks.flatten, id < graph.size) :
    graph.dump pool = .ok (asLines ((graph.rows pool).map Row.text)) := by
  have texts : (graph.blocks.zipIdx.mapM fun entry => graph.blockText pool entry.2 entry.1) =
      .ok (graph.blocks.zipIdx.map fun entry =>
        asLines ((Row.block entry.2 :: entry.1.map (graph.row pool)).map Row.text)) := by
    apply mapM_eq_ok_map
    rintro ⟨ids, index⟩ member
    have stored := List.mk_mem_zipIdx_iff_getElem?.mp member
    apply blockText_eq_rows founded
    intro id listed
    exact inside id (List.mem_flatten.mpr ⟨ids, List.mem_of_getElem? stored, listed⟩)
  unfold dump
  rw [texts]
  unfold rows Row.ofBlocks
  rw [List.map_flatMap, asLines_flatMap]
  rfl

theorem row_own (graph : Graph) (pool : Pool) (id : ValueId) :
    (graph.row pool id).IsValue ∧ (graph.row pool id).subject = id :=
  ⟨trivial, rfl⟩

/-- No constant is of one of the wider floating-point types. -/
def NoWideFloats (graph : Graph) : Prop :=
  ∀ value ∈ graph.values, ∀ constant, value.kind = .constant constant → constant.Exact

theorem row_whole (exact : graph.NoWideFloats) (pool : Pool) (id : ValueId) :
    (graph.row pool id).Whole := by
  apply ValueKind.text_oneLine
  intro constant made
  rw [List.getD_eq_getElem?_getD] at made
  cases stored : graph.values[id]? with
  | none =>
      rw [stored] at made
      cases made
  | some value =>
      rw [stored] at made
      exact exact value (List.mem_of_getElem? stored) constant made

theorem rows_oneLine (exact : graph.NoWideFloats) (pool : Pool) :
    ∀ line ∈ (graph.rows pool).map Row.text, OneLine line := by
  intro line member
  obtain ⟨row, listed, rfl⟩ := List.mem_map.mp member
  apply Row.text_oneLine
  obtain ⟨⟨ids, index⟩, -, inBlock⟩ := List.mem_flatMap.mp listed
  rcases List.mem_cons.mp inBlock with rfl | value
  · trivial
  · obtain ⟨id, -, rfl⟩ := List.mem_map.mp value
    exact row_whole exact pool id

theorem rows_of_same_lines (exact : left.NoWideFloats) (exact' : right.NoWideFloats)
    (same : asLines ((left.rows pool).map Row.text) = asLines ((right.rows pool).map Row.text)) :
    left.rows pool = right.rows pool := by
  have lines := asLines_injective (rows_oneLine exact pool) (rows_oneLine exact' pool) same
  have injective : Function.Injective Row.text := fun _ _ => Row.text_injective
  exact List.map_injective_iff.mpr injective lines

def ConstantsTyped (graph : Graph) : Prop :=
  ∀ value ∈ graph.values, ∀ constant, value.kind = .constant constant →
    value.type = constant.type.id

/-- What fixes all that rows leave out. -/
structure Legible (graph : Graph) : Prop extends Arranged graph where
  typed : graph.ConstantsTyped
  exact : graph.NoWideFloats

theorem Arranged.dump_eq_rows (arranged : graph.Arranged) (founded : pool.Founded) :
    graph.dump pool = .ok (asLines ((graph.rows pool).map Row.text)) := by
  apply Graph.dump_eq_rows founded
  intro id listed
  exact List.mem_range.mp (arranged.blocks_partition.mem_iff.mp listed)

namespace Legible

theorem value_eq (legible : left.Legible) (other : right.Legible) (canonical : pool.Canonical)
    {value twin : Value} (stored : left.values[id]? = some value)
    (present : right.values[id]? = some twin) (same : left.row pool id = right.row pool id)
    (block : twin.block = value.block) : twin = value := by
  obtain ⟨tree, unfolded⟩ := canonical.founded.tree?_found value.type
  obtain ⟨twinTree, twinUnfolded⟩ := canonical.founded.tree?_found twin.type
  rw [row_of_stored stored unfolded, row_of_stored present twinUnfolded] at same
  injection same with _ trees texts
  rw [← trees] at twinUnfolded
  have types : value.type = twin.type := canonical.treeFrom?_injective unfolded twinUnfolded
  have kinds : value.kind = twin.kind := by
    apply ValueKind.text_injective _ texts
    intro constant again made twinMade shown
    have own := legible.typed value (List.mem_of_getElem? stored) constant made
    have twinOwn := other.typed twin (List.mem_of_getElem? present) again twinMade
    have scalars : constant.type = again.type :=
      ScalarType.id_injective (own.symm.trans (types.trans twinOwn))
    exact Constant.text_injective (legible.exact value (List.mem_of_getElem? stored) constant made)
      scalars shown
  cases value
  cases twin
  cases types
  cases kinds
  cases block
  rfl

/-- Each value is listed in its block, so it is in every graph with the same rows. -/
theorem stored_of_rows (legible : left.Legible) (other : right.Legible)
    (canonical : pool.Canonical) (blocks : left.blocks = right.blocks)
    (rows : ∀ ids ∈ left.blocks, ∀ id ∈ ids, left.row pool id = right.row pool id)
    {value : Value} (stored : left.values[id]? = some value) :
    right.values[id]? = some value := by
  obtain ⟨ids, found⟩ := stored_of_lt (legible.owned value (List.mem_of_getElem? stored))
  have listed := (legible.mem_block_iff found id).mpr ⟨value, stored, rfl⟩
  obtain ⟨twin, present, block⟩ := (other.mem_block_iff (blocks ▸ found) id).mp listed
  have same := rows ids (List.mem_of_getElem? found) id listed
  rw [present, legible.value_eq other canonical stored present same block]

theorem eq_of_rows (legible : left.Legible) (other : right.Legible) (canonical : pool.Canonical)
    (same : left.rows pool = right.rows pool) : left = right := by
  obtain ⟨blocks, rows⟩ := Row.ofBlocks_injective (left.row_own pool) (right.row_own pool) same
  have rows' : ∀ ids ∈ right.blocks, ∀ id ∈ ids, right.row pool id = left.row pool id :=
    fun ids member id listed => (rows ids (blocks ▸ member) id listed).symm
  have values : left.values = right.values := by
    apply List.ext_getElem?
    intro id
    apply Option.ext
    intro value
    exact ⟨legible.stored_of_rows other canonical blocks rows,
      other.stored_of_rows legible canonical blocks.symm rows'⟩
  have params : left.params = right.params := by
    have signatures : left.signature = right.signature := by
      unfold signature
      rw [values]
    have ranges : List.range left.params = List.range right.params := by
      rw [← legible.numbered, ← other.numbered, signatures]
    simpa using congrArg List.length ranges
  cases left
  cases right
  cases values
  cases blocks
  cases params
  rfl

end Legible

end Graph

namespace Builder

theorem constantsTyped_kept (given : Builder → TypeId → Prop) :
    Kept given fun before after =>
      before.graph.ConstantsTyped → after.graph.ConstantsTyped ∧ Grown before after := by
  apply (grown_kept given).invariant
  · intro before after typed change
    cases change with
    | append placed allowed =>
        intro value member constant made
        rcases List.mem_append.mp member with old | added
        · exact typed value old constant made
        · cases List.mem_singleton.mp added
          cases made
          cases allowed
          rfl
    | parameter placed promised =>
        intro value member constant made
        rcases List.mem_append.mp member with old | added
        · exact typed value old constant made
        · cases List.mem_singleton.mp added
          cases made
    | _ => exact typed
  · intro before after typed later grown value member
    rw [grown.values_undone] at member
    exact typed value member

theorem FromEmpty.constantsTyped {given : Builder → TypeId → Prop} {builder : Builder}
    (begun : FromEmpty given builder) : builder.graph.ConstantsTyped := by
  induction begun with
  | start pool => exact List.forall_mem_nil _
  | run _ reached ih => exact (reached.keeps (constantsTyped_kept given) ih).1
  | next _ pool ih => exact ih

/-- Two graphs that began empty, whatever pools their builders brought, have dumps over every pool
made from the scalar types. If they hold no wide floating-point constants, their dumps are equal
exactly if the graphs are. -/
theorem graphs_are_known_by_dumps {given : Builder → TypeId → Prop} {left right : Builder}
    {pool : Pool} (made : pool.Made) (begun : FromEmpty given left)
    (begun' : FromEmpty given right) (exact : left.graph.NoWideFloats)
    (exact' : right.graph.NoWideFloats) :
    ∃ text other, left.graph.dump pool = .ok text ∧ right.graph.dump pool = .ok other ∧
      (text = other ↔ left.graph = right.graph) := by
  have canonical := made.canonical
  have arranged := begun.settled.arranged
  have arranged' := begun'.settled.arranged
  have legible : left.graph.Legible := ⟨arranged, begun.constantsTyped, exact⟩
  have legible' : right.graph.Legible := ⟨arranged', begun'.constantsTyped, exact'⟩
  refine ⟨_, _, arranged.dump_eq_rows canonical.founded, arranged'.dump_eq_rows canonical.founded,
    ?_, ?_⟩
  · intro same
    exact legible.eq_of_rows legible' canonical (Graph.rows_of_same_lines exact exact' same)
  · intro same
    rw [same]

/-- Two constants of different types with one text, in the second of two blocks. -/
theorem constants_of_one_text_look_different :
    let small : Graph := ⟨[⟨.constant (.int8 Signed.zero), 2, 1⟩], [[], [0]], 0⟩
    let wide : Graph := ⟨[⟨.constant (.int16 Signed.zero), 3, 1⟩], [[], [0]], 0⟩
    let left : Builder := ⟨small, Pool.scalars, 1⟩
    let right : Builder := ⟨wide, Pool.scalars, 1⟩
    Pool.scalars.Made ∧ FromEmpty (fun _ _ => True) left ∧ FromEmpty (fun _ _ => True) right ∧
      small.NoWideFloats ∧ wide.NoWideFloats ∧
      ∃ text other, small.dump Pool.scalars = .ok text ∧ wide.dump Pool.scalars = .ok other ∧
        text ≠ other := by
  intro small wide left right
  let block : Operation ValueId := .newBlock
  let position : Operation ValueId := .positionAt 1
  let byte : Operation ValueId := .constant (.int8 Signed.zero)
  let word : Operation ValueId := .constant (.int16 Signed.zero)
  let wider : Builder := ⟨⟨[], [[], []], 0⟩, Pool.scalars, 0⟩
  let moved : Builder := ⟨⟨[], [[], []], 0⟩, Pool.scalars, 1⟩
  have start : Reaches (fun _ _ => True) empty empty := .start empty
  have one : Reaches (fun _ _ => True) empty wider := start.step block trivial rfl
  have two : Reaches (fun _ _ => True) empty moved := one.step position trivial rfl
  have begun : FromEmpty (fun _ _ => True) left :=
    .run (.start Pool.scalars) (two.step byte trivial rfl)
  have begun' : FromEmpty (fun _ _ => True) right :=
    .run (.start Pool.scalars) (two.step word trivial rfl)
  have exact : small.NoWideFloats := by
    intro value member constant made
    cases List.mem_singleton.mp member
    cases made
    decide
  have exact' : wide.NoWideFloats := by
    intro value member constant made
    cases List.mem_singleton.mp member
    cases made
    decide
  obtain ⟨text, other, shown, shown', known⟩ :=
    graphs_are_known_by_dumps .scalars begun begun' exact exact'
  have different : small ≠ wide := by decide
  exact ⟨.scalars, begun, begun', exact, exact', text, other, shown, shown',
    fun same => different (known.mp same)⟩

end Builder

end KernelIR
