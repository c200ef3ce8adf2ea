import KernelIR.Graph.Dump
import KernelIR.Proofs.Arena
import Mathlib.Data.List.Nodup
import Mathlib.Data.List.Perm.Subperm

/-!
Graphs that were loaded and found clean. The check goes from the values to the lists of the blocks
and not back, and it looks at no index of a parameter. So a clean graph lists every value in its own
block, but a list may also hold other values, a value twice, or what is no value, and then the graph
has no text; and indices of parameters may be anything. Main statement: the lists are right exactly
if they are not longer in total than the list of values; graphs that differ in indices of parameters
alone have the same problems; and indices that are different and counted when a graph is loaded stay
so, whatever builders make of the graph.
-/

set_option autoImplicit false

namespace KernelIR

def ValueKind.unnumbered : ValueKind → ValueKind
  | .parameter _ => .parameter 0
  | kind => kind

theorem ValueKind.operands_unnumbered (kind : ValueKind) :
    kind.unnumbered.operands = kind.operands := by
  cases kind <;> rfl

def Value.unnumbered (value : Value) : Value := { value with kind := value.kind.unnumbered }

namespace Graph

/-- The graph without the indices of its parameters and without their number. -/
def unnumbered (graph : Graph) : Graph :=
  { graph with values := graph.values.map Value.unnumbered, params := 0 }

section Numbers

variable (graph : Graph) (pool : Pool)

theorem knownTypes?_unnumbered (ids : List ValueId) :
    graph.unnumbered.knownTypes? pool ids = graph.knownTypes? pool ids := by
  unfold knownTypes?
  congr 1
  funext id
  have stored : graph.unnumbered.values[id]? = graph.values[id]?.map Value.unnumbered :=
    List.getElem?_map
  rw [stored]
  cases graph.values[id]? with
  | none => rfl
  | some value => rfl

theorem typeProblems_unnumbered (id : ValueId) (value : Value) :
    graph.unnumbered.typeProblems pool id value.unnumbered = graph.typeProblems pool id value := by
  have known := graph.knownTypes?_unnumbered pool value.unnumbered.kind.operands
  obtain ⟨kind, type, block⟩ := value
  unfold typeProblems
  rw [known]
  cases kind <;> rfl

theorem valueProblems_unnumbered (id : ValueId) (value : Value) :
    graph.unnumbered.valueProblems pool id value.unnumbered =
      graph.valueProblems pool id value := by
  have forward : operandProblems id value.unnumbered.kind = operandProblems id value.kind := by
    unfold operandProblems
    exact congrArg _ (congrArg _ value.kind.operands_unnumbered)
  unfold valueProblems
  rw [forward, typeProblems_unnumbered]
  rfl

theorem verify_unnumbered : graph.unnumbered.verify pool = graph.verify pool := by
  have entries : graph.unnumbered.values.zipIdx =
      graph.values.zipIdx.map (Prod.map Value.unnumbered id) :=
    List.zipIdx_map
  unfold verify
  rw [entries, List.flatMap_map]
  congr 1
  funext ⟨value, id⟩
  exact graph.valueProblems_unnumbered pool id value

end Numbers

variable {graph : Graph} {pool : Pool}

/-- The blocks list only values of their own. -/
def ListsOwn (graph : Graph) : Prop :=
  ∀ (block : BlockId) (ids : List ValueId), graph.blocks[block]? = some ids → ∀ id ∈ ids,
    ∃ value, graph.values[id]? = some value ∧ value.block = block

theorem ListsOwn.inside (own : graph.ListsOwn) : ∀ id ∈ graph.blocks.flatten, id < graph.size := by
  intro id member
  obtain ⟨ids, listed, inside⟩ := List.mem_flatten.mp member
  obtain ⟨block, found⟩ := List.mem_iff_getElem?.mp listed
  obtain ⟨value, stored, -⟩ := own block ids found id inside
  exact lt_of_stored stored

theorem block_of_listed_once (once : graph.blocks.flatten.Nodup) {block other : BlockId}
    {ids others : List ValueId} {id : ValueId} (found : graph.blocks[block]? = some ids)
    (member : id ∈ ids) (present : graph.blocks[other]? = some others) (again : id ∈ others) :
    block = other := by
  have apart := List.pairwise_iff_getElem.mp (List.nodup_flatten.mp once).2
  obtain ⟨inside, rfl⟩ := List.getElem?_eq_some_iff.mp found
  obtain ⟨within, rfl⟩ := List.getElem?_eq_some_iff.mp present
  rcases Nat.lt_trichotomy block other with before | same | after
  · exact absurd again (apart block other inside within before member)
  · exact same
  · exact absurd member (apart other block within inside after again)

namespace Valid

theorem range_subset (valid : graph.Valid pool) :
    List.range graph.size ⊆ graph.blocks.flatten := by
  intro id inside
  obtain ⟨value, stored⟩ := stored_of_lt (List.mem_range.mp inside)
  obtain ⟨ids, found, member⟩ := (valid id value stored).listed
  exact List.mem_flatten.mpr ⟨ids, List.mem_of_getElem? found, member⟩

/-- With as many entries as there are values, the entries are the values. -/
theorem listed_perm (valid : graph.Valid pool)
    (full : graph.blocks.flatten.length = graph.size) :
    (List.range graph.size).Perm graph.blocks.flatten := by
  have enough : graph.blocks.flatten.length ≤ (List.range graph.size).length :=
    Nat.le_of_eq (full.trans List.length_range.symm)
  exact (List.subperm_of_subset List.nodup_range valid.range_subset).perm_of_length_le enough

theorem lists_own (valid : graph.Valid pool) (full : graph.blocks.flatten.length = graph.size) :
    graph.ListsOwn ∧ graph.blocks.flatten.Nodup := by
  have same := valid.listed_perm full
  have once := same.nodup_iff.mp List.nodup_range
  refine ⟨?_, once⟩
  intro block ids found id member
  have listed : id ∈ graph.blocks.flatten :=
    List.mem_flatten.mpr ⟨ids, List.mem_of_getElem? found, member⟩
  obtain ⟨value, stored⟩ := stored_of_lt (List.mem_range.mp (same.mem_iff.mpr listed))
  obtain ⟨others, present, again⟩ := (valid id value stored).listed
  exact ⟨value, stored, block_of_listed_once once present again found member⟩

theorem lists_own_iff (valid : graph.Valid pool) :
    graph.blocks.flatten.length = graph.size ↔
      graph.ListsOwn ∧ graph.blocks.flatten.Nodup := by
  constructor
  · exact valid.lists_own
  · rintro ⟨own, once⟩
    have known : graph.blocks.flatten ⊆ List.range graph.size := fun id member =>
      List.mem_range.mpr (own.inside id member)
    have less := (List.subperm_of_subset once known).length_le
    have more := (List.subperm_of_subset List.nodup_range valid.range_subset).length_le
    rw [List.length_range] at less more
    exact Nat.le_antisymm less more

end Valid

theorem line_error {id : ValueId} (inside : id < graph.size) {cause : Fault}
    (failed : graph.line pool id = .error cause) : cause = .endless := by
  obtain ⟨value, stored⟩ := stored_of_lt inside
  unfold line find at failed
  rw [stored] at failed
  cases rendered : pool.render? value.type with
  | some text =>
      simp only [rendered, bind, Except.bind] at failed
      cases failed
  | none =>
      simp only [rendered, bind, Except.bind] at failed
      cases failed
      rfl

/-- If all that is listed is there, a graph is without a text only for a type that contains
itself. -/
theorem dump_error (inside : ∀ id ∈ graph.blocks.flatten, id < graph.size) {cause : Fault}
    (failed : graph.dump pool = .error cause) : cause = .endless := by
  unfold dump at failed
  cases texts : graph.blocks.zipIdx.mapM fun entry => graph.blockText pool entry.2 entry.1 with
  | ok found =>
      rw [texts] at failed
      cases failed
  | error other =>
      rw [texts] at failed
      cases failed
      obtain ⟨⟨ids, block⟩, member, blockFailed⟩ := mapM_eq_error texts
      have found := List.mk_mem_zipIdx_iff_getElem?.mp member
      unfold blockText at blockFailed
      cases lines : ids.mapM (graph.line pool) with
      | ok shown =>
          simp only [lines, bind, Except.bind] at blockFailed
          cases blockFailed
      | error last =>
          simp only [lines, bind, Except.bind] at blockFailed
          cases blockFailed
          obtain ⟨id, listed, lineFailed⟩ := mapM_eq_error lines
          have member := List.mem_flatten.mpr ⟨ids, List.mem_of_getElem? found, listed⟩
          exact line_error (inside id member) lineFailed

/-- Parameters have different indices, and the next index is greater than all of them. -/
structure Counted (graph : Graph) : Prop where
  below : ∀ {id : ValueId} {index : Nat}, graph.kind? id = some (.parameter index) →
    index < graph.params
  distinct : ∀ {id other : ValueId} {index : Nat}, graph.kind? id = some (.parameter index) →
    graph.kind? other = some (.parameter index) → id = other

namespace Counted

theorem append_plain (counted : graph.Counted) {kind : ValueKind}
    (plain : ∀ index, kind ≠ .parameter index) (type : TypeId) (block : BlockId) :
    (graph.append kind type block).Counted where
  below := by
    intro id index made
    rcases (kind?_append_iff graph kind _ type block id).mp made with old | ⟨-, new⟩
    · exact counted.below old
    · exact absurd new.symm (plain index)
  distinct := by
    intro id other index made twice
    rcases (kind?_append_iff graph kind _ type block id).mp made with old | ⟨-, new⟩
    · rcases (kind?_append_iff graph kind _ type block other).mp twice with older | ⟨-, new⟩
      · exact counted.distinct old older
      · exact absurd new.symm (plain index)
    · exact absurd new.symm (plain index)

theorem fresh (counted : graph.Counted) (id : ValueId) :
    graph.kind? id ≠ some (.parameter graph.params) :=
  fun made => Nat.lt_irrefl _ (counted.below made)

theorem append_parameter (counted : graph.Counted) (type : TypeId) (block : BlockId) :
    Counted { graph.append (.parameter graph.params) type block with
      params := graph.params + 1 } where
  below := by
    intro id index made
    rcases (kind?_append_iff graph _ _ type block id).mp made with old | ⟨-, new⟩
    · exact Nat.lt_succ_of_lt (counted.below old)
    · cases new
      exact Nat.lt_succ_self _
  distinct := by
    intro id other index made twice
    rcases (kind?_append_iff graph _ _ type block id).mp made with old | ⟨rfl, new⟩
    · rcases (kind?_append_iff graph _ _ type block other).mp twice with older | ⟨rfl, new⟩
      · exact counted.distinct old older
      · cases new
        exact absurd old (counted.fresh id)
    · cases new
      rcases (kind?_append_iff graph _ _ type block other).mp twice with older | ⟨rfl, -⟩
      · exact absurd older (counted.fresh other)
      · rfl

end Counted

end Graph

namespace Builder

theorem counted_of_change {given : Builder → TypeId → Prop} {before after : Builder}
    (counted : before.graph.Counted) (change : Change given before after) :
    after.graph.Counted := by
  cases change with
  | append placed allowed => exact counted.append_plain allowed.plain _ _
  | parameter placed promised => exact counted.append_parameter _ _
  | _ => exact ⟨counted.below, counted.distinct⟩

theorem counted_kept (given : Builder → TypeId → Prop) :
    Kept given fun before after =>
      before.graph.Counted → after.graph.Counted ∧ Grown before after := by
  apply (grown_kept given).invariant
  · intro before after counted change
    exact counted_of_change counted change
  · intro before after counted later grown
    have kinds : ∀ id, (after.rollback before.mark).graph.kind? id = before.graph.kind? id := by
      intro id
      unfold Graph.kind?
      rw [grown.values_undone]
    constructor
    · intro id index made
      exact counted.below ((kinds id).symm.trans made)
    · intro id other index made twice
      exact counted.distinct ((kinds id).symm.trans made) ((kinds other).symm.trans twice)

theorem parameter_eq_ok {builder later : Builder} {type : TypeId} {result : ValueId}
    (ok : parameter type builder = .ok result later) :
    later.graph.kind? result = some (.parameter builder.graph.params) := by
  unfold parameter at ok
  split at ok
  · obtain ⟨-, rfl, rfl⟩ := append_eq_ok ok
    exact appended_kind builder.counted (.parameter builder.graph.params) type
  · cases ok

/-- The check does not see that the first block lists a value twice and a value of the second block,
that the second one lists what is no value, that two parameters share an index, or that the graph
has counted none of them. Such a graph has no text, and the next parameter shares the index too. -/
theorem clean_graph_with_foreign_entries :
    let graph : Graph := ⟨[⟨.parameter 0, 4, 0⟩, ⟨.parameter 0, 4, 1⟩], [[0, 0, 1], [1, 7]], 0⟩
    graph.verify Pool.scalars = [] ∧ ¬ graph.ListsOwn ∧ ¬ graph.blocks.flatten.Nodup ∧
      graph.dump Pool.scalars = .error (.outOfBounds 2 7) ∧
      graph.kind? 0 = some (.parameter 0) ∧ graph.kind? 1 = some (.parameter 0) ∧
      ¬ 0 < graph.params ∧ ∃ later, parameter 4 (on graph Pool.scalars) = .ok 2 later ∧
        later.graph.kind? 2 = some (.parameter 0) := by
  intro graph
  have foreign : ¬ graph.ListsOwn := by
    intro own
    obtain ⟨value, stored, -⟩ := own 1 [1, 7] rfl 7 (by decide)
    cases stored
  exact ⟨by decide, foreign, by decide, rfl, rfl, rfl, Nat.lt_irrefl 0, _, rfl, rfl⟩

/-- In a clean graph every value is listed in its block. The lists are right exactly if they have in
total as many entries as there are values, and where they are right no value is looked up that is
not there when the graph is shown. Indices of parameters make no difference to the check. Where the
parameters are counted, a parameter that is added in any run has an index that no value had
before. -/
theorem clean_check_lists_every_value {graph : Graph} {pool : Pool}
    (clean : graph.verify pool = []) :
    (∀ (id : ValueId) (value : Value), graph.values[id]? = some value →
        ∃ ids, graph.blocks[value.block]? = some ids ∧ id ∈ ids) ∧
      (graph.blocks.flatten.length = graph.size ↔
        graph.ListsOwn ∧ graph.blocks.flatten.Nodup) ∧
      (graph.ListsOwn → ∀ length index : Nat,
        graph.dump pool ≠ .error (.outOfBounds length index)) ∧
      (∀ first second : Graph, first.unnumbered = second.unnumbered →
        first.verify pool = second.verify pool) ∧
      (graph.Counted → ∀ {given : Builder → TypeId → Prop} {builder later : Builder}
        {type : TypeId} {result : ValueId}, Reaches given (on graph pool) builder →
          parameter type builder = .ok result later →
            ∃ index, later.graph.kind? result = some (.parameter index) ∧
              ∀ id, builder.graph.kind? id ≠ some (.parameter index)) := by
  have valid := (Graph.verify_eq_nil_iff graph pool).mp clean
  refine ⟨fun id value stored => (valid id value stored).listed, valid.lists_own_iff, ?_, ?_, ?_⟩
  · intro own length index failed
    cases Graph.dump_error own.inside failed
  · intro first second same
    rw [← first.verify_unnumbered, same, second.verify_unnumbered]
  · intro counted given builder later type result reached ok
    have still := (reached.keeps (counted_kept given) counted).1
    exact ⟨builder.graph.params, parameter_eq_ok ok, still.fresh⟩

/-- Blocks that list their values in another order than that of their creation, and parameters whose
indices have gaps. With one index for both parameters the graph is clean as well. -/
theorem loaded_parameters_stay_counted :
    let graph : Graph :=
      ⟨[⟨.parameter 3, 4, 1⟩, ⟨.null, 5, 1⟩, ⟨.parameter 1, 4, 0⟩], [[2], [1, 0]], 5⟩
    let shared : Graph :=
      ⟨[⟨.parameter 7, 4, 1⟩, ⟨.null, 5, 1⟩, ⟨.parameter 7, 4, 0⟩], [[2], [1, 0]], 2⟩
    let later : Builder := (on graph Pool.scalars).counted.appended (.parameter 5) 4
    graph.verify Pool.scalars = [] ∧ graph.ListsOwn ∧ shared.verify Pool.scalars = [] ∧
      ¬ shared.Counted ∧ graph.Counted ∧
      parameter 4 (on graph Pool.scalars) = .ok 3 later ∧
      ∃ index, later.graph.kind? 3 = some (.parameter index) ∧
        ∀ id, graph.kind? id ≠ some (.parameter index) := by
  intro graph shared later
  have clean : graph.verify Pool.scalars = [] := by decide
  obtain ⟨-, listed, -, numbers, added⟩ := clean_check_lists_every_value clean
  have alsoClean : shared.verify Pool.scalars = [] := (numbers shared graph rfl).trans clean
  have made : shared.kind? 0 = some (.parameter 7) := rfl
  have uncounted : ¬ shared.Counted := fun counted => absurd (counted.below made) (by decide)
  have kinds : ∀ {id : ValueId} {index : Nat}, graph.kind? id = some (.parameter index) →
      id = 0 ∧ index = 3 ∨ id = 2 ∧ index = 1 := by
    intro id index made
    match id, made with
    | 0, made => exact .inl ⟨rfl, by cases made; rfl⟩
    | 1, made => cases made
    | 2, made => exact .inr ⟨rfl, by cases made; rfl⟩
    | _ + 3, made => cases made
  have counted : graph.Counted := by
    constructor
    · intro id index made
      have known := kinds made
      change index < 5
      omega
    · intro id other index made twice
      rcases kinds made with ⟨rfl, rfl⟩ | ⟨rfl, rfl⟩
      · exact ((kinds twice).resolve_right fun second => absurd second.2 (by decide)).1.symm
      · exact ((kinds twice).resolve_left fun first => absurd first.2 (by decide)).1.symm
  have ok : parameter 4 (on graph Pool.scalars) = .ok 3 later := rfl
  have start : Reaches (fun _ _ => True) (on graph Pool.scalars) (on graph Pool.scalars) := .start _
  exact ⟨clean, (listed.mp rfl).1, alsoClean, uncounted, counted, ok, added counted start ok⟩

end Builder

end KernelIR
