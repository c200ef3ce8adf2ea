import KernelIR.Proofs.Arena
import KernelIR.Proofs.Rendering
import Mathlib.Data.List.Nodup

/-!
Types are stored once. In a well-formed pool no two entries are equal, and the fields of a structure
are older than the structure, so no two handles unfold to the same tree. Main statement: every pool
that builders have made from the scalar types is well-formed, also after conversions that failed and
took types back; its handles are equal exactly if their trees are; and asking for a structure type
gives the handle of an entry, and leaves everything as it is, exactly if there is such an entry.
-/

set_option autoImplicit false

namespace KernelIR

namespace Pool

variable {pool : Pool}

theorem Listed.record_eq (listed : pool.Listed) {id other : TypeId} {fields : List TypeId}
    (stored : pool.types[id]? = some (.record fields))
    (again : pool.types[other]? = some (.record fields)) : id = other := by
  have first := listed.interned_iff.mpr stored
  have second := listed.interned_iff.mpr again
  have same := List.inj_on_of_nodup_map listed.single first second rfl
  exact congrArg Prod.snd same

/-- Each type has one entry, a scalar type that of its own handle, and fields are older than their
structure. -/
structure Canonical (pool : Pool) : Prop extends Listed pool where
  own : ∀ {id : TypeId} {type : ScalarType},
    pool.types[id]? = some (.scalar type) → id = type.id
  founded : pool.Founded

namespace WellFormed

theorem scalar_eq (wellFormed : pool.WellFormed) {id : TypeId} {type : ScalarType}
    (stored : pool.types[id]? = some (.scalar type)) : id = type.id := by
  have early : id < TypeId.scalarCount := by
    by_contra late
    obtain ⟨fields, same, -⟩ := wellFormed.records (Nat.le_of_not_lt late) stored
    cases same
  have listed : (pool.types.take TypeId.scalarCount)[id]? = some (.scalar type) := by
    rw [List.getElem?_take_of_lt early, stored]
  rw [wellFormed.scalars, List.getElem?_map] at listed
  obtain ⟨own, found, same⟩ := Option.map_eq_some_iff.mp listed
  cases same
  have distinct : ScalarType.all.Nodup := by decide
  exact (List.getElem?_inj early distinct).mp (found.trans (ScalarType.ofId?_id type).symm)

theorem canonical (wellFormed : pool.WellFormed) : pool.Canonical :=
  { wellFormed.listed with own := wellFormed.scalar_eq, founded := wellFormed.ordered.founded }

theorem lookup_eq_some_iff (wellFormed : pool.WellFormed) (fields : List TypeId) (id : TypeId) :
    pool.interned.lookup fields = some id ↔ pool.types[id]? = some (.record fields) := by
  constructor
  · exact wellFormed.stored_of_lookup
  · intro stored
    cases found : pool.interned.lookup fields with
    | none =>
        have listed := wellFormed.interned_iff.mpr stored
        have different := List.lookup_eq_none_iff.mp found (fields, id) listed
        simp at different
    | some other =>
        rw [wellFormed.listed.record_eq (wellFormed.stored_of_lookup found) stored]

theorem intern_of_missing {fields : List TypeId} (wellFormed : pool.WellFormed)
    (missing : ∀ id : TypeId, pool.types[id]? ≠ some (.record fields)) :
    pool.intern fields =
      (pool.size, ⟨pool.types ++ [.record fields], pool.interned ++ [(fields, pool.size)]⟩) := by
  unfold Pool.intern
  cases found : pool.interned.lookup fields with
  | none => rfl
  | some id => exact absurd (wellFormed.stored_of_lookup found) (missing id)

theorem intern_eq_self_iff (wellFormed : pool.WellFormed) (fields : List TypeId) (id : TypeId) :
    pool.intern fields = (id, pool) ↔ pool.types[id]? = some (.record fields) := by
  constructor
  · intro same
    by_contra absent
    have missing : ∀ other : TypeId, pool.types[other]? ≠ some (.record fields) := by
      intro other stored
      unfold Pool.intern at same
      rw [(wellFormed.lookup_eq_some_iff fields other).mpr stored] at same
      cases same
      exact absent stored
    rw [wellFormed.intern_of_missing missing] at same
    have longer := congrArg (fun result => result.2.types.length) same
    simp at longer
  · intro stored
    unfold Pool.intern
    rw [(wellFormed.lookup_eq_some_iff fields id).mpr stored]

end WellFormed

theorem Canonical.intern (canonical : pool.Canonical) {fields : List TypeId}
    (known : ∀ field ∈ fields, field < pool.size) : (pool.intern fields).2.Canonical := by
  have listed := canonical.toListed.intern fields
  rcases pool.intern_adds_at_most fields with same | added
  · rw [same]
    exact canonical
  · rw [added] at listed ⊢
    refine { listed with own := ?_, founded := ?_ }
    · intro id type stored
      rcases (stored_snoc_iff pool.types _ id _).mp stored with old | ⟨-, other⟩
      · exact canonical.own old
      · cases other
    · intro id others stored
      rcases (stored_snoc_iff pool.types _ id _).mp stored with old | ⟨rfl, same⟩
      · exact canonical.founded id others old
      · cases same
        exact known

theorem Canonical.rollback (canonical : pool.Canonical) (mark : Nat) :
    (pool.rollback mark).Canonical := by
  have kept : (pool.rollback mark).types <+: pool.types := by
    rw [rollback_types_eq_take]
    exact List.take_prefix mark pool.types
  exact
    { canonical.toListed.rollback mark with
      own := fun stored => canonical.own (stored_of_grown kept stored)
      founded := fun id fields stored => canonical.founded id fields (stored_of_grown kept stored) }

theorem treeFrom?_inv {fuel : Nat} {id : TypeId} {tree : TypeTree}
    (found : pool.treeFrom? (fuel + 1) id = some tree) :
    match tree with
    | .unknown other => other = id
    | .scalar type => pool.types[id]? = some (.scalar type)
    | .record trees => ∃ fields, pool.types[id]? = some (.record fields) ∧
        fields.mapM (pool.treeFrom? fuel) = some trees := by
  unfold treeFrom? at found
  cases stored : pool.types[id]? with
  | none =>
      rw [stored] at found
      cases found
      rfl
  | some data =>
      rw [stored] at found
      cases data with
      | scalar type =>
          cases found
          rfl
      | record fields =>
          obtain ⟨trees, unfolded, rfl⟩ := Option.map_eq_some_iff.mp found
          exact ⟨fields, rfl, unfolded⟩

/-- However far two handles are unfolded, they are equal if their trees are. -/
theorem Canonical.treeFrom?_injective (canonical : pool.Canonical) {fuel other : Nat}
    {id twin : TypeId} {tree : TypeTree} (left : pool.treeFrom? fuel id = some tree)
    (right : pool.treeFrom? other twin = some tree) : id = twin := by
  induction fuel generalizing other id twin tree with
  | zero => cases left
  | succ fuel ih =>
      cases other with
      | zero => cases right
      | succ other =>
          have here := treeFrom?_inv left
          have there := treeFrom?_inv right
          cases tree with
          | unknown handle => exact here.symm.trans there
          | scalar type => exact (canonical.own here).trans (canonical.own there).symm
          | record trees =>
              obtain ⟨fields, stored, unfolded⟩ := here
              obtain ⟨twins, present, same⟩ := there
              have equal : fields = twins :=
                mapM_injective (fun _ _ _ found again => ih found again) unfolded same
              rw [← equal] at present
              exact canonical.record_eq stored present

/-- Handles can be compared instead of types. -/
theorem WellFormed.trees_agree_iff (wellFormed : pool.WellFormed) (id other : TypeId) :
    ∃ tree twin, pool.tree? id = some tree ∧ pool.tree? other = some twin ∧
      (tree = twin ↔ id = other) := by
  obtain ⟨tree, found⟩ := wellFormed.ordered.founded.tree?_found id
  obtain ⟨twin, twinFound⟩ := wellFormed.ordered.founded.tree?_found other
  refine ⟨tree, twin, found, twinFound, ?_, ?_⟩
  · rintro rfl
    exact wellFormed.canonical.treeFrom?_injective found twinFound
  · rintro rfl
    exact Option.some.inj (found.symm.trans twinFound)

/-- Pools that builders have made from the scalar types, each of them on any graph. -/
inductive Reachable (given : Builder → TypeId → Prop) : Pool → Prop
  | scalars : Reachable given Pool.scalars
  | run {before after : Builder} (made : Reachable given before.pool)
      (reached : Reaches given before after) : Reachable given after.pool

theorem wellFormed_kept (given : Builder → TypeId → Prop) :
    Kept given fun before after =>
      before.pool.WellFormed → after.pool.WellFormed ∧ Builder.Grown before after := by
  apply (Builder.grown_kept given).invariant
  · intro before after wellFormed change
    cases change with
    | intern known => exact wellFormed.intern known
    | _ => exact wellFormed
  · intro before after wellFormed later grown
    exact wellFormed.rollback later grown.types

theorem Reachable.wellFormed {given : Builder → TypeId → Prop} (reachable : pool.Reachable given) :
    pool.WellFormed := by
  induction reachable with
  | scalars => exact scalars_wellFormed
  | run _ reached ih => exact (reached.keeps (wellFormed_kept given) ih).1

end Pool

namespace Builder

variable {builder : Builder}

theorem recordType_eq_self_iff (wellFormed : builder.pool.WellFormed) (fields : List TypeId)
    (id : TypeId) :
    recordType fields builder = .ok id builder ↔
      builder.pool.types[id]? = some (.record fields) := by
  rw [← wellFormed.intern_eq_self_iff]
  unfold recordType
  constructor
  · intro made
    split at made
    · injection made with handle same
      exact Prod.ext handle (congrArg Builder.pool same)
    · cases made
  · intro found
    have stored := (wellFormed.intern_eq_self_iff fields id).mp found
    have known : ∀ field ∈ fields, field < builder.pool.size := fun field member =>
      Nat.lt_trans (wellFormed.ordered.older stored field member) (lt_of_stored stored)
    rw [if_pos ((Pool.all_contained_iff builder.pool fields).mpr known), found]

theorem recordType_of_missing (wellFormed : builder.pool.WellFormed) {fields : List TypeId}
    (known : ∀ field ∈ fields, field < builder.pool.size)
    (missing : ∀ id : TypeId, builder.pool.types[id]? ≠ some (.record fields)) :
    ∃ later, recordType fields builder = .ok builder.pool.size later ∧
      later.pool.types = builder.pool.types ++ [TypeData.record fields] := by
  unfold recordType
  rw [if_pos ((Pool.all_contained_iff builder.pool fields).mpr known),
    wellFormed.intern_of_missing missing]
  exact ⟨_, rfl, rfl⟩

/-- In a pool that builders have made, however their conversions ended, types are stored once: the
pool is well-formed; handles are equal exactly if they unfold to the same tree; a structure type is
given by its handle, with nothing changed, exactly if the pool has it; and else it is added. -/
theorem types_are_stored_once {given : Builder → TypeId → Prop} {builder : Builder}
    (reachable : builder.pool.Reachable given) :
    builder.pool.WellFormed ∧
      (∀ id other : TypeId, ∃ tree twin, builder.pool.tree? id = some tree ∧
        builder.pool.tree? other = some twin ∧ (tree = twin ↔ id = other)) ∧
      (∀ (fields : List TypeId) (id : TypeId), recordType fields builder = .ok id builder ↔
        builder.pool.types[id]? = some (.record fields)) ∧
      ∀ fields : List TypeId, (∀ field ∈ fields, field < builder.pool.size) →
        (∀ id : TypeId, builder.pool.types[id]? ≠ some (.record fields)) →
          ∃ later, recordType fields builder = .ok builder.pool.size later ∧
            later.pool.types = builder.pool.types ++ [TypeData.record fields] := by
  have wellFormed := reachable.wellFormed
  exact ⟨wellFormed, wellFormed.trees_agree_iff, recordType_eq_self_iff wellFormed,
    fun fields => recordType_of_missing wellFormed⟩

/-- A conversion fails and gives back the handle of its record; the next two records are a pair and
a triple that holds it. -/
theorem pair_is_stored_once :
    let pool : Pool := ((Pool.scalars.intern [4, 4]).2.intern [4, 9, 4]).2
    let builder : Builder := ⟨Graph.empty, pool, 0⟩
    pool.Reachable (fun _ _ => True) ∧ recordType [4, 4] builder = .ok 9 builder ∧
      ∃ tree twin, pool.tree? 9 = some tree ∧ pool.tree? 10 = some twin ∧
        (tree = twin ↔ 9 = 10) := by
  intro pool builder
  let pair : Operation ValueId := .recordType [4, 4]
  let triple : Operation ValueId := .recordType [4, 9, 4]
  let first : Builder := ⟨Graph.empty, (Pool.scalars.intern [4, 4]).2, 0⟩
  let factory : Host.Factory Unit Bool :=
    Host.nested (Host.constants .int1) fun leaf => .composite 1 [.primitive leaf]
  let host : Host Bool := .composite 2 [.primitive true, .null]
  have acts : Host.ActsByRuns (fun _ _ => True) factory host ((), empty) :=
    Host.nested_acts _ _ fun leaf asked => Host.constants_act _ _ asked
  have failed : (Host.embed factory host ((), empty)).state? = some ((), empty) := rfl
  have one : Reaches (fun _ _ => True) empty empty := .conversion (.start empty) acts failed
  have two : Reaches (fun _ _ => True) empty first := one.step pair trivial rfl
  have three : Reaches (fun _ _ => True) empty builder := two.step triple trivial rfl
  have made : empty.pool.Reachable (fun _ _ => True) := .scalars
  have reachable : builder.pool.Reachable (fun _ _ => True) := .run made three
  have once := types_are_stored_once reachable
  exact ⟨reachable, (once.2.2.1 [4, 4] 9).mpr rfl, once.2.1 9 10⟩

end Builder

end KernelIR
