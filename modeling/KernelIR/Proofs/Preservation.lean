import KernelIR.Proofs.Growth

/-!
A builder keeps graphs valid. The calls that name an operand have looked at its type, and what they
append fits it; of the types that nothing looks at, it is known only that they are in the pool when
they are given. A graph that was loaded may list more in its blocks than its values, so a rollback
need not give back the blocks that there were, but the values that remain are still listed.
-/

set_option autoImplicit false

namespace KernelIR

namespace Graph

theorem mem_dropNewer {limit : Nat} {ids : List ValueId} {id : ValueId} (member : id ∈ ids)
    (older : id < limit) : id ∈ dropNewer limit ids := by
  induction ids using List.reverseRecOn with
  | nil => cases member
  | append_singleton ids last ih =>
      rw [dropNewer_snoc]
      split
      · next newer =>
          rcases List.mem_append.mp member with before | here
          · exact ih before
          · rw [List.mem_singleton.mp here] at older
            exact absurd older (Nat.not_lt_of_le newer)
      · exact member

end Graph

namespace Builder

/-- A type of the pool that the builder has now. -/
def InPool (builder : Builder) (type : TypeId) : Prop := type < builder.pool.size

/-- A valid graph over a well-formed pool. -/
structure Sound (builder : Builder) : Prop where
  valid : builder.graph.Valid builder.pool
  wellFormed : builder.pool.WellFormed

def StillListed (before after : Builder) : Prop :=
  ∀ (block : BlockId) (ids : List ValueId) (id : ValueId), before.graph.blocks[block]? = some ids →
    id ∈ ids → id < before.graph.size →
      ∃ others, after.graph.blocks[block]? = some others ∧ id ∈ others

theorem stillListed_of_blocks {before after : Builder}
    (same : ∀ {block : BlockId} {ids : List ValueId}, before.graph.blocks[block]? = some ids →
      ∃ others, after.graph.blocks[block]? = some others ∧ ids ⊆ others) :
    StillListed before after := by
  intro block ids id found member _
  obtain ⟨others, present, more⟩ := same found
  exact ⟨others, present, more member⟩

theorem stillListed_appended (builder : Builder) (kind : ValueKind) (type : TypeId) :
    StillListed builder (builder.appended kind type) := by
  apply stillListed_of_blocks
  intro block ids found
  refine ⟨_, (Graph.append_blocks builder.graph kind type block builder.block).trans
    (congrArg _ found), ?_⟩
  intro id member
  split
  · exact List.mem_append_left _ member
  · exact member

theorem stillListed_of_change {given : Builder → TypeId → Prop} {before after : Builder}
    (change : Change given before after) : StillListed before after := by
  cases change with
  | block =>
      apply stillListed_of_blocks
      intro block ids found
      exact ⟨ids, stored_of_grown (List.prefix_append _ _) found, List.Subset.refl ids⟩
  | append placed allowed => exact stillListed_appended before _ _
  | parameter placed promised => exact stillListed_appended before.counted _ _
  | _ => exact stillListed_of_blocks fun found => ⟨_, found, List.Subset.refl _⟩

theorem fits_of_appendable {builder : Builder} (sound : builder.Sound) {kind : ValueKind}
    {type : TypeId} (allowed : Appendable InPool builder kind type) :
    builder.graph.Fits builder.pool kind type := by
  refine ⟨allowed.older, ?_, allowed.typed⟩
  cases allowed with
  | given promised => exact promised
  | null known => exact known sound.wellFormed
  | constant value => exact lt_of_stored (sound.wellFormed.ordered.scalar_stored value.type)
  | write checked =>
      exact sound.valid.known_of_type? ((writeType_eq_ok_iff builder _ _ _ type).mp checked).1
  | read found => exact Graph.fieldType_lt sound.wellFormed.ordered found

/-- Valid values stay valid when more is added and the values are still listed. -/
theorem valid_of_grown {before after : Builder} (valid : before.graph.Valid before.pool)
    (values : after.graph.values = before.graph.values)
    (types : before.pool.types <+: after.pool.types) (listed : StillListed before after) :
    after.graph.Valid after.pool := by
  intro id value stored
  rw [values] at stored
  have lawful := valid id value stored
  obtain ⟨ids, found, member⟩ := lawful.listed
  have still := listed _ _ _ found member (lt_of_stored stored)
  exact lawful.of_grown (values ▸ List.prefix_rfl) types still

theorem counted_sound {builder : Builder} (sound : builder.Sound) : builder.counted.Sound :=
  ⟨valid_of_grown sound.valid rfl List.prefix_rfl
    (stillListed_of_blocks fun found => ⟨_, found, List.Subset.refl _⟩), sound.wellFormed⟩

theorem sound_of_change {before after : Builder} (sound : before.Sound)
    (change : Change InPool before after) : after.Sound := by
  have listed := stillListed_of_change change
  have grown := grown_of_change change
  cases change with
  | intern known =>
      exact ⟨valid_of_grown sound.valid rfl grown.types listed, sound.wellFormed.intern known⟩
  | block => exact ⟨valid_of_grown sound.valid rfl grown.types listed, sound.wellFormed⟩
  | position inside => exact ⟨sound.valid, sound.wellFormed⟩
  | reopen => exact ⟨sound.valid, sound.wellFormed⟩
  | append placed allowed =>
      exact ⟨sound.valid.append (fits_of_appendable sound allowed) placed, sound.wellFormed⟩
  | @parameter type placed promised =>
      have counted := counted_sound sound
      have fits : before.counted.graph.Fits before.pool (.parameter before.graph.params) type :=
        ⟨List.forall_mem_nil _, promised, trivial⟩
      exact ⟨counted.valid.append fits placed, sound.wellFormed⟩

theorem stillListed_undone {before after : Builder} (listed : StillListed before after) :
    StillListed before (after.rollback before.mark) := by
  intro block ids id found member older
  obtain ⟨others, present, stays⟩ := listed _ _ _ found member older
  refine ⟨Graph.dropNewer before.graph.size others, ?_, Graph.mem_dropNewer stays older⟩
  change ((after.graph.blocks.take before.graph.blocks.length).map _)[block]? = _
  rw [List.getElem?_map, List.getElem?_take_of_lt (lt_of_stored found), present]
  rfl

theorem listed_kept (given : Builder → TypeId → Prop) :
    Kept given fun before after => Grown before after ∧ StillListed before after where
  refl builder := ⟨.refl builder, stillListed_of_blocks fun found => ⟨_, found, List.Subset.refl _⟩⟩
  trans first second := by
    refine ⟨first.1.trans second.1, ?_⟩
    intro block ids id found member older
    obtain ⟨others, present, stays⟩ := first.2 _ _ _ found member older
    exact second.2 _ _ _ present stays (Nat.lt_of_lt_of_le older first.1.values.length_le)
  change changed := ⟨grown_of_change changed, stillListed_of_change changed⟩
  undone kept := ⟨kept.1.undone, stillListed_undone kept.2⟩

theorem sound_kept : Kept InPool fun before after =>
    before.Sound → after.Sound ∧ Grown before after ∧ StillListed before after := by
  apply (listed_kept InPool).invariant
  · intro before after sound change
    exact sound_of_change sound change
  · rintro before after sound later ⟨grown, listed⟩
    have still := stillListed_undone listed
    exact ⟨valid_of_grown sound.valid grown.values_undone grown.undone.types still,
      sound.wellFormed.rollback later.wellFormed grown.types⟩

theorem empty_sound : Sound empty where
  valid := by
    intro id value stored
    cases stored
  wellFormed := Pool.scalars_wellFormed

/-- A run from a valid graph over a well-formed pool ends with such a graph and such a pool, however
its calls end, if the types given for defaults and parameters are in the pool. The empty graph over
the scalar types is one to begin with. -/
theorem runs_keep_graphs_valid :
    (empty.graph.verify empty.pool = [] ∧ empty.pool.WellFormed) ∧
      ∀ {builder later : Builder}, builder.graph.verify builder.pool = [] →
        builder.pool.WellFormed → Reaches InPool builder later →
          later.graph.verify later.pool = [] ∧ later.pool.WellFormed := by
  refine ⟨⟨rfl, empty_sound.wellFormed⟩, ?_⟩
  intro builder later clean wellFormed reached
  have sound : builder.Sound := ⟨(Graph.verify_eq_nil_iff _ _).mp clean, wellFormed⟩
  obtain ⟨laterSound, -, -⟩ := reached.keeps sound_kept sound
  exact ⟨(Graph.verify_eq_nil_iff _ _).mpr laterSound.valid, laterSound.wellFormed⟩

/-- A pair is made of a parameter, and then a conversion makes a constant before it fails. -/
theorem failing_run_keeps_graph_valid :
    let later : Builder :=
      ⟨⟨[⟨.parameter 0, 4, 0⟩, ⟨.null, 9, 0⟩, ⟨.write 1 [0] 0, 9, 0⟩, ⟨.write 2 [1] 0, 9, 0⟩],
        [[0, 1, 2, 3]], 1⟩, (Pool.scalars.intern [4, 4]).2, 0⟩
    Reaches InPool empty later ∧ later.graph.verify later.pool = [] ∧ later.pool.WellFormed := by
  intro later
  let first : Builder := ⟨⟨[⟨.parameter 0, 4, 0⟩], [[0]], 1⟩, Pool.scalars, 0⟩
  let parameter : Operation ValueId := .parameter 4
  let pair : Operation ValueId := .recordOf [0, 0]
  let host : Host Bool := .composite 2 [.primitive true, .null]
  have promised : parameter.Promised InPool empty := by
    change 4 < Pool.scalars.size
    decide
  have unpromised : pair.Promised InPool first := trivial
  have one : Reaches InPool empty first := .operation (.start empty) promised rfl
  have two : Reaches InPool empty later := .operation one unpromised rfl
  have acts : Host.ActsByRuns InPool (Host.constants .int1) host ((), later) :=
    Host.constants_act .int1 host _
  have ended : (Host.embed (Host.constants .int1) host ((), later)).state? = some ((), later) := rfl
  have reached : Reaches InPool empty later := .conversion two acts ended
  exact ⟨reached, runs_keep_graphs_valid.2 rfl empty_sound.wellFormed reached⟩

end Builder

end KernelIR
