import KernelIR.Proofs.Parameters
import KernelIR.Proofs.Runs

/-!
The arena of a builder that began empty. Each block lists exactly the values that belong to it, in
the order of their creation, and parameters are numbered in that order, whatever the pool is. Over
a pool that began with the scalar types the handles of structures are moreover listed in the order
of the pool. All of this follows from the values and the types alone, so a builder that is brought
back to the values, types and blocks it had before is the builder that it was before.
-/

set_option autoImplicit false

namespace KernelIR

namespace Graph

def listing (values : List Value) (block : BlockId) : List ValueId :=
  values.zipIdx.filterMap fun entry => if entry.1.block = block then some entry.2 else none

theorem listing_snoc (values : List Value) (added : Value) (block : BlockId) :
    listing (values ++ [added]) block =
      listing values block ++ if added.block = block then [values.length] else [] := by
  unfold listing
  rw [List.zipIdx_append, List.filterMap_append, List.zipIdx_singleton, Nat.zero_add]
  by_cases here : added.block = block
  · simp [here]
  · simp [here]

theorem mem_listing_iff (values : List Value) (block : BlockId) (id : ValueId) :
    id ∈ listing values block ↔ ∃ value, values[id]? = some value ∧ value.block = block := by
  unfold listing
  rw [List.mem_filterMap]
  constructor
  · rintro ⟨⟨value, position⟩, member, found⟩
    have stored := List.mk_mem_zipIdx_iff_getElem?.mp member
    by_cases here : value.block = block
    · rw [if_pos here] at found
      cases found
      exact ⟨value, stored, here⟩
    · rw [if_neg here] at found
      cases found
  · rintro ⟨value, stored, here⟩
    exact ⟨(value, id), List.mk_mem_zipIdx_iff_getElem?.mpr stored, if_pos here⟩

theorem dropNewer_snoc (limit : Nat) (ids : List ValueId) (added : ValueId) :
    dropNewer limit (ids ++ [added]) =
      if limit ≤ added then dropNewer limit ids else ids ++ [added] := by
  unfold dropNewer
  rw [List.reverse_append, List.reverse_singleton, List.singleton_append, List.dropWhile_cons]
  by_cases newer : limit ≤ added
  · simp [newer]
  · simp [newer]

theorem dropNewer_of_older {limit : Nat} {ids : List ValueId} (older : ∀ id ∈ ids, id < limit) :
    dropNewer limit ids = ids := by
  induction ids using List.reverseRecOn with
  | nil => rfl
  | append_singleton ids added _ =>
      have last : ¬ limit ≤ added :=
        Nat.not_le_of_lt (older added (List.mem_append_right _ (List.mem_singleton_self added)))
      rw [dropNewer_snoc, if_neg last]

theorem dropNewer_listing {before after : List Value} (grown : before <+: after) (block : BlockId) :
    dropNewer before.length (listing after block) = listing before block := by
  obtain ⟨added, rfl⟩ := grown
  -- From the last value backwards, since that is the end from which a block is cut.
  induction added using List.reverseRecOn with
  | nil =>
      rw [List.append_nil]
      apply dropNewer_of_older
      intro id member
      obtain ⟨value, stored, -⟩ := (mem_listing_iff before block id).mp member
      exact lt_of_stored stored
  | append_singleton added last ih =>
      rw [← List.append_assoc, listing_snoc]
      split
      · have newer : before.length ≤ (before ++ added).length := by
          rw [List.length_append]
          exact Nat.le_add_right _ _
        rw [dropNewer_snoc, if_pos newer, ih]
      · rw [List.append_nil, ih]

/-- Values belong to blocks that exist and are listed there, and parameters are counted. -/
structure Arranged (graph : Graph) : Prop where
  owned : ∀ value ∈ graph.values, value.block < graph.blocks.length
  listed : ∀ {block : BlockId} {ids : List ValueId}, graph.blocks[block]? = some ids →
    ids = listing graph.values block
  numbered : graph.Numbered

theorem empty_arranged : Arranged empty where
  owned := fun value member => absurd member List.not_mem_nil
  listed := by
    intro block ids found
    cases block with
    | zero =>
        cases found
        rfl
    | succ block => cases found
  numbered := rfl

namespace Arranged

variable {before after : Graph}

theorem append (arranged : before.Arranged) {kind : ValueKind} {type : TypeId} {block : BlockId}
    (placed : block < before.blocks.length) {params : Nat}
    (numbered : (before.append kind type block).signature.map Prod.fst = List.range params) :
    Arranged { before.append kind type block with params := params } where
  owned := by
    intro value member
    apply Nat.lt_of_lt_of_eq _ (List.length_modify ..).symm
    rcases List.mem_append.mp member with old | added
    · exact arranged.owned value old
    · cases List.mem_singleton.mp added
      exact placed
  listed := by
    intro other ids found
    have stored := (append_blocks before kind type other block).symm.trans found
    obtain ⟨older, present, rfl⟩ := Option.map_eq_some_iff.mp stored
    change _ = listing (before.values ++ [⟨kind, type, block⟩]) other
    rw [listing_snoc, ← arranged.listed present]
    split
    · rfl
    · exact (List.append_nil _).symm
  numbered := numbered

theorem addBlock (arranged : before.Arranged) : before.addBlock.Arranged := by
  have unlisted : listing before.values before.blocks.length = [] := by
    rw [List.eq_nil_iff_forall_not_mem]
    intro id member
    obtain ⟨value, stored, belongs⟩ := (mem_listing_iff _ _ id).mp member
    have inside := arranged.owned value (List.mem_of_getElem? stored)
    rw [belongs] at inside
    exact Nat.lt_irrefl _ inside
  exact
    { owned := by
        intro value member
        have inside := arranged.owned value member
        change _ < (before.blocks ++ [[]]).length
        rw [List.length_append]
        exact Nat.lt_add_right _ inside
      listed := by
        intro block ids found
        rcases (stored_snoc_iff before.blocks [] block ids).mp found with old | ⟨rfl, rfl⟩
        · exact arranged.listed old
        · exact unlisted.symm
      numbered := arranged.numbered }

theorem blocks_undone (arranged : before.Arranged) (later : after.Arranged)
    (values : before.values <+: after.values)
    (blocks : before.blocks.length ≤ after.blocks.length) :
    (after.blocks.take before.blocks.length).map (dropNewer before.size) = before.blocks := by
  apply List.ext_getElem?
  intro block
  rw [List.getElem?_map]
  by_cases inside : block < before.blocks.length
  · obtain ⟨ids, found⟩ := stored_of_lt inside
    obtain ⟨others, present⟩ := stored_of_lt (Nat.lt_of_lt_of_le inside blocks)
    rw [List.getElem?_take_of_lt inside, present, found, Option.map_some, later.listed present,
      arranged.listed found]
    exact congrArg some (dropNewer_listing values block)
  · have outside := Nat.le_of_not_lt inside
    rw [List.getElem?_take_eq_none outside, List.getElem?_eq_none outside]
    rfl

/-- A rollback to where an arranged graph was marked gives back the graph itself. -/
theorem undone (arranged : before.Arranged) (later : after.Arranged)
    (values : before.values <+: after.values)
    (blocks : before.blocks.length ≤ after.blocks.length) :
    after.rollback before.mark = before := by
  have kept : after.values.take before.size = before.values :=
    (List.prefix_iff_eq_take.mp values).symm
  have listed := arranged.blocks_undone later values blocks
  unfold rollback mark
  rw [kept, listed]

end Arranged

end Graph

namespace Pool

def handles (types : List TypeData) : List (List TypeId × TypeId) :=
  types.zipIdx.filterMap fun entry =>
    match entry.1 with
    | .record fields => some (fields, entry.2)
    | .scalar _ => none

theorem handles_snoc_record (types : List TypeData) (fields : List TypeId) :
    handles (types ++ [.record fields]) = handles types ++ [(fields, types.length)] := by
  unfold handles
  rw [List.zipIdx_append, List.filterMap_append, List.zipIdx_singleton, Nat.zero_add]
  rfl

theorem handles_snoc_scalar (types : List TypeData) (type : ScalarType) :
    handles (types ++ [.scalar type]) = handles types := by
  unfold handles
  rw [List.zipIdx_append, List.filterMap_append, List.zipIdx_singleton, Nat.zero_add]
  exact List.append_nil _

theorem lt_of_mem_handles {types : List TypeData} {handle : List TypeId × TypeId}
    (member : handle ∈ handles types) : handle.2 < types.length := by
  unfold handles at member
  obtain ⟨⟨data, id⟩, stored, found⟩ := List.mem_filterMap.mp member
  have inside := lt_of_stored (List.mk_mem_zipIdx_iff_getElem?.mp stored)
  cases data with
  | scalar type => cases found
  | record fields =>
      cases found
      exact inside

theorem filter_handles {before after : List TypeData} (grown : before <+: after) :
    ((handles after).filter fun handle => handle.2 < before.length) = handles before := by
  obtain ⟨added, rfl⟩ := grown
  induction added using List.reverseRecOn with
  | nil =>
      rw [List.append_nil, List.filter_eq_self]
      exact fun handle member => decide_eq_true (lt_of_mem_handles member)
  | append_singleton added last ih =>
      rw [← List.append_assoc]
      cases last with
      | scalar type => rw [handles_snoc_scalar, ih]
      | record fields =>
          rw [handles_snoc_record, List.filter_append, ih]
          simp

end Pool

namespace Builder

/-- Values and types are only added, and blocks too. -/
structure Grown (before after : Builder) : Prop where
  values : before.graph.values <+: after.graph.values
  types : before.pool.types <+: after.pool.types
  blocks : before.graph.blocks.length ≤ after.graph.blocks.length

namespace Grown

theorem refl (builder : Builder) : Grown builder builder :=
  ⟨List.prefix_rfl, List.prefix_rfl, Nat.le_refl _⟩

theorem trans {first second third : Builder} (before : Grown first second)
    (after : Grown second third) : Grown first third :=
  ⟨before.values.trans after.values, before.types.trans after.types,
    Nat.le_trans before.blocks after.blocks⟩

theorem appended (builder : Builder) (kind : ValueKind) (type : TypeId) :
    Grown builder (builder.appended kind type) :=
  ⟨appended_grows builder kind type, List.prefix_rfl, Nat.le_of_eq (List.length_modify ..).symm⟩

end Grown

theorem grown_of_change {given : Builder → TypeId → Prop} {before after : Builder}
    (change : Change given before after) : Grown before after := by
  cases change with
  | @intern fields known =>
      exact ⟨List.prefix_rfl, (Pool.intern_grows before.pool fields).1, Nat.le_refl _⟩
  | block =>
      refine ⟨List.prefix_rfl, List.prefix_rfl, ?_⟩
      change _ ≤ (before.graph.blocks ++ [[]]).length
      rw [List.length_append]
      exact Nat.le_add_right _ _
  | position inside => exact ⟨List.prefix_rfl, List.prefix_rfl, Nat.le_refl _⟩
  | reopen => exact ⟨List.prefix_rfl, List.prefix_rfl, Nat.le_refl _⟩
  | append placed allowed => exact Grown.appended before _ _
  | @parameter type placed promised =>
      have added := Grown.appended before.counted (.parameter before.graph.params) type
      exact ⟨added.values, added.types, added.blocks⟩

theorem Grown.values_undone {before after : Builder} (grown : Grown before after) :
    (after.rollback before.mark).graph.values = before.graph.values :=
  (List.prefix_iff_eq_take.mp grown.values).symm

theorem Grown.types_undone {before after : Builder} (grown : Grown before after) :
    (after.rollback before.mark).pool.types = before.pool.types :=
  Pool.rollback_types grown.types

theorem Grown.undone {before after : Builder} (grown : Grown before after) :
    Grown before (after.rollback before.mark) where
  values := grown.values_undone ▸ List.prefix_rfl
  types := grown.types_undone ▸ List.prefix_rfl
  blocks := by
    change _ ≤ ((after.graph.blocks.take before.graph.blocks.length).map _).length
    rw [List.length_map, List.length_take]
    exact Nat.le_min.mpr ⟨Nat.le_refl _, grown.blocks⟩

theorem grown_kept (given : Builder → TypeId → Prop) : Kept given Grown where
  refl := Grown.refl
  trans := Grown.trans
  change := grown_of_change
  undone := Grown.undone

theorem placed_of_change {given : Builder → TypeId → Prop} {before after : Builder}
    (placed : before.block < before.graph.blocks.length) (change : Change given before after) :
    after.block < after.graph.blocks.length := by
  have more := (grown_of_change change).blocks
  cases change with
  | intern known => exact placed
  | block => exact Nat.lt_of_lt_of_le placed more
  | position inside => exact inside
  | reopen => exact Nat.lt_of_le_of_lt (Nat.zero_le _) placed
  | append _ allowed => exact Nat.lt_of_lt_of_le placed more
  | parameter _ promised => exact Nat.lt_of_lt_of_le placed more

theorem arranged_of_change {given : Builder → TypeId → Prop} {before after : Builder}
    (arranged : before.graph.Arranged) (change : Change given before after) :
    after.graph.Arranged := by
  cases change with
  | intern known => exact arranged
  | block => exact arranged.addBlock
  | position inside => exact arranged
  | reopen => exact arranged
  | @append kind type placed allowed =>
      have listed := Graph.signature_append_plain before.graph type before.block allowed.plain
      exact arranged.append placed ((congrArg (List.map Prod.fst) listed).trans arranged.numbered)
  | @parameter type placed promised =>
      exact arranged.append placed (arranged.numbered.next type before.block)

/-- What a builder that began empty has kept in order. -/
structure Tidy (builder : Builder) : Prop where
  placed : builder.block < builder.graph.blocks.length
  owned : ∀ value ∈ builder.graph.values, value.block < builder.graph.blocks.length
  listed : ∀ {block : BlockId} {ids : List ValueId}, builder.graph.blocks[block]? = some ids →
    ids = Graph.listing builder.graph.values block
  numbered : builder.graph.Numbered
  wellFormed : builder.pool.WellFormed
  interned : builder.pool.interned = Pool.handles builder.pool.types

namespace Tidy

variable {before after : Builder}

theorem arranged (tidy : before.Tidy) : before.graph.Arranged :=
  ⟨tidy.owned, tidy.listed, tidy.numbered⟩

theorem of_arranged (arranged : before.graph.Arranged)
    (placed : before.block < before.graph.blocks.length) (wellFormed : before.pool.WellFormed)
    (interned : before.pool.interned = Pool.handles before.pool.types) : before.Tidy where
  placed := placed
  owned := arranged.owned
  listed := arranged.listed
  numbered := arranged.numbered
  wellFormed := wellFormed
  interned := interned

theorem pool_undone (tidy : before.Tidy) (later : after.Tidy) (grown : Grown before after) :
    after.pool.rollback before.pool.size = before.pool := by
  have types := Pool.rollback_types grown.types
  have interned : (after.pool.rollback before.pool.size).interned = before.pool.interned := by
    unfold Pool.rollback
    split
    · rw [tidy.interned, ← Pool.filter_handles grown.types, ← later.interned]
      rfl
    · next full =>
        have same := grown.types.eq_of_length_le (Nat.le_of_not_lt full)
        rw [later.interned, tidy.interned, same]
  cases result : after.pool.rollback before.pool.size with
  | mk resultTypes resultInterned =>
      rw [result] at types interned
      cases types
      cases interned
      rfl

theorem undone (tidy : before.Tidy) (later : after.Tidy) (grown : Grown before after) :
    after.rollback before.mark = before := by
  have graph : after.graph.rollback before.graph.mark = before.graph :=
    tidy.arranged.undone later.arranged grown.values grown.blocks
  have pool := tidy.pool_undone later grown
  unfold rollback mark
  rw [graph, pool]

theorem interned_step (tidy : before.Tidy) (fields : List TypeId) :
    (before.pool.intern fields).2.interned = Pool.handles (before.pool.intern fields).2.types := by
  unfold Pool.intern
  cases before.pool.interned.lookup fields with
  | some id => exact tidy.interned
  | none =>
      change before.pool.interned ++ _ = Pool.handles (before.pool.types ++ _)
      rw [Pool.handles_snoc_record, tidy.interned]
      rfl

theorem change (tidy : before.Tidy) {given : Builder → TypeId → Prop}
    (change : Change given before after) : after.Tidy := by
  have arranged := arranged_of_change tidy.arranged change
  have placed := placed_of_change tidy.placed change
  cases change with
  | intern known =>
      exact of_arranged arranged placed (tidy.wellFormed.intern known) (tidy.interned_step _)
  | _ => exact of_arranged arranged placed tidy.wellFormed tidy.interned

end Tidy

theorem empty_tidy : Tidy empty :=
  .of_arranged Graph.empty_arranged Nat.one_pos Pool.scalars_wellFormed rfl

/-- Changes and rollbacks keep a builder tidy and only ever add to where they began. -/
theorem tidy_kept (given : Builder → TypeId → Prop) :
    Kept given fun before after => before.Tidy → after.Tidy ∧ Grown before after := by
  apply (grown_kept given).invariant
  · intro before after tidy change
    exact tidy.change change
  · intro before after tidy later grown
    rw [tidy.undone later grown]
    exact tidy

end Builder

theorem Reaches.tidy {given : Builder → TypeId → Prop} {builder : Builder}
    (reached : Reaches given Builder.empty builder) : builder.Tidy :=
  (reached.keeps (Builder.tidy_kept given) Builder.empty_tidy).1

end KernelIR
