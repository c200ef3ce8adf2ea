import KernelIR.Proofs.Tables
import KernelIR.Pool.Resolve

/-!
Pools of types. A path leads from a structure type to the type of one of its nested fields. A pool
is ordered if the scalar types come first and structures have only older types as fields, so types
are finite trees. In a well-formed pool the handles given out for lists of fields are moreover
exactly the structures of the pool. Interning keeps a pool well-formed and only adds to it, and a
rollback restores the types that there were before.
-/

set_option autoImplicit false

namespace KernelIR.Pool

theorem fields?_eq_some_iff (pool : Pool) (id : TypeId) (fields : List TypeId) :
    pool.fields? id = some fields ↔ pool.types[id]? = some (.record fields) := by
  unfold fields? fieldsOf
  split
  · next stored => simp [stored, Except.toOption]
  · next stored => simp [stored, Except.toOption]
  · next stored => simp [stored, Except.toOption]

theorem fieldsOf_eq_ok_iff (pool : Pool) (id : TypeId) (fields : List TypeId) :
    pool.fieldsOf id = .ok fields ↔ pool.types[id]? = some (.record fields) := by
  unfold fieldsOf
  split
  · next stored => simp [stored]
  · next stored => simp [stored]
  · next stored => simp [stored]

theorem all_contained_iff (pool : Pool) (fields : List TypeId) :
    fields.all pool.contains = true ↔ ∀ field ∈ fields, field < pool.size := by
  simp only [List.all_eq_true, contains, decide_eq_true_eq]

def fieldAt? (pool : Pool) : TypeId → Path → Option TypeId
  | id, [] => some id
  | id, index :: path => do
      let fields ← pool.fields? id
      let field ← fields[index]?
      fieldAt? pool field path

theorem fieldAt?_cons_iff (pool : Pool) (id field : TypeId) (index : Nat) (path : Path) :
    pool.fieldAt? id (index :: path) = some field ↔
      ∃ fields next, pool.types[id]? = some (.record fields) ∧ fields[index]? = some next ∧
        pool.fieldAt? next path = some field := by
  simp only [fieldAt?, Option.bind_eq_bind, Option.bind_eq_some_iff, fields?_eq_some_iff]
  constructor
  · rintro ⟨fields, stored, next, found, rest⟩
    exact ⟨fields, next, stored, found, rest⟩
  · rintro ⟨fields, next, stored, found, rest⟩
    exact ⟨fields, stored, next, found, rest⟩

theorem fieldAt?_append (pool : Pool) (id : TypeId) (outer inner : Path) :
    pool.fieldAt? id (outer ++ inner) =
      (pool.fieldAt? id outer).bind fun field => pool.fieldAt? field inner := by
  induction outer generalizing id with
  | nil => rfl
  | cons index outer ih =>
      simp only [List.cons_append, fieldAt?, Option.bind_eq_bind, ih, Option.bind_assoc]

theorem walk_eq_ok_iff (pool : Pool) (whole path : Path) (id field : TypeId) :
    pool.walk whole id path = .ok field ↔ pool.fieldAt? id path = some field := by
  induction path generalizing id with
  | nil => simp [walk, fieldAt?]
  | cons index path ih =>
      rw [fieldAt?_cons_iff]
      unfold walk
      cases record : pool.fieldsOf id with
      | error found =>
          have noRecord : ∀ fields, pool.types[id]? ≠ some (.record fields) := by
            intro fields stored
            rw [(fieldsOf_eq_ok_iff pool id fields).mpr stored] at record
            cases record
          simp [noRecord]
      | ok fields =>
          have stored := (fieldsOf_eq_ok_iff pool id fields).mp record
          cases found : fields[index]? with
          | none => simp [stored, found]
          | some next => simp [stored, found, ih]

theorem resolve_eq_ok_iff (pool : Pool) (id field : TypeId) (path : Path) :
    pool.resolve id path = .ok field ↔ path ≠ [] ∧ pool.fieldAt? id path = some field := by
  unfold resolve
  cases path with
  | nil => simp
  | cons index path => simp [walk_eq_ok_iff]

theorem fieldAt?_singleton {pool : Pool} {id field : TypeId} {fields : List TypeId} {index : Nat}
    (stored : pool.types[id]? = some (.record fields)) (found : fields[index]? = some field) :
    pool.fieldAt? id [index] = some field :=
  (fieldAt?_cons_iff pool id field index []).mpr ⟨fields, field, stored, found, rfl⟩

theorem fieldAt?_of_grown {before after : Pool} (grown : before.types <+: after.types)
    {id field : TypeId} {path : Path} (found : before.fieldAt? id path = some field) :
    after.fieldAt? id path = some field := by
  induction path generalizing id with
  | nil => exact found
  | cons index path ih =>
      obtain ⟨fields, next, stored, member, rest⟩ :=
        (fieldAt?_cons_iff before id field index path).mp found
      exact (fieldAt?_cons_iff after id field index path).mpr
        ⟨fields, next, stored_of_grown grown stored, member, ih rest⟩

theorem resolve_of_grown {before after : Pool} (grown : before.types <+: after.types)
    {id field : TypeId} {path : Path} (found : before.resolve id path = .ok field) :
    after.resolve id path = .ok field := by
  obtain ⟨some, reached⟩ := (resolve_eq_ok_iff before id field path).mp found
  exact (resolve_eq_ok_iff after id field path).mpr ⟨some, fieldAt?_of_grown grown reached⟩

/-- Scalar types come first, and fields are older than their structure. -/
structure Ordered (pool : Pool) : Prop where
  scalars : pool.types.take TypeId.scalarCount = ScalarType.all.map .scalar
  older : ∀ {id : TypeId} {fields : List TypeId},
    pool.types[id]? = some (.record fields) → ∀ field ∈ fields, field < id

theorem Ordered.scalar_stored {pool : Pool} (ordered : pool.Ordered) (type : ScalarType) :
    pool.types[type.id]? = some (.scalar type) := by
  have first : (pool.types.take TypeId.scalarCount)[type.id]? = some (.scalar type) := by
    rw [ordered.scalars]
    cases type <;> rfl
  exact stored_of_grown (List.take_prefix _ _) first

theorem Ordered.fieldAt?_lt {pool : Pool} (ordered : pool.Ordered) {id field : TypeId} {path : Path}
    (inside : id < pool.size) (found : pool.fieldAt? id path = some field) : field < pool.size := by
  induction path generalizing id with
  | nil =>
      cases found
      exact inside
  | cons index path ih =>
      obtain ⟨fields, next, stored, member, rest⟩ :=
        (fieldAt?_cons_iff pool id field index path).mp found
      have older := ordered.older stored next (List.mem_of_getElem? member)
      exact ih (Nat.lt_trans older inside) rest

/-- The handles given out for lists of fields are those of the structures, one for each list. -/
structure Listed (pool : Pool) : Prop where
  interned_iff : ∀ {fields : List TypeId} {id : TypeId},
    (fields, id) ∈ pool.interned ↔ pool.types[id]? = some (.record fields)
  single : (pool.interned.map Prod.fst).Nodup

theorem Listed.intern {pool : Pool} (listed : pool.Listed) (fields : List TypeId) :
    (pool.intern fields).2.Listed := by
  unfold Pool.intern
  cases found : pool.interned.lookup fields with
  | some id => exact listed
  | none =>
      have fresh : ∀ old ∈ pool.interned.map Prod.fst, ∀ new ∈ [fields], old ≠ new := by
        intro old member new added same
        cases List.mem_singleton.mp added
        obtain ⟨entry, stored, first⟩ := List.mem_map.mp member
        have different := List.lookup_eq_none_iff.mp found entry stored
        rw [first, same] at different
        simp at different
      constructor
      · intro others id
        rw [List.mem_append, stored_snoc_iff, listed.interned_iff, List.mem_singleton,
          Prod.mk.injEq, TypeData.record.injEq]
        exact or_congr_right and_comm
      · rw [List.map_append, List.nodup_append]
        exact ⟨listed.single, List.pairwise_singleton _ fields, fresh⟩

theorem rollback_types_eq_take (pool : Pool) (mark : Nat) :
    (pool.rollback mark).types = pool.types.take mark := by
  unfold rollback
  split
  · rfl
  · next full => exact (List.take_of_length_le (Nat.le_of_not_lt full)).symm

theorem Listed.rollback {pool : Pool} (listed : pool.Listed) (mark : Nat) :
    (pool.rollback mark).Listed := by
  unfold Pool.rollback
  split
  · constructor
    · intro fields id
      rw [List.mem_filter, listed.interned_iff, decide_eq_true_eq, List.getElem?_take]
      by_cases old : id < mark <;> simp [old]
    · exact listed.single.sublist (List.filter_sublist.map _)
  · exact listed

/-- Ordered, all later entries structures, and each structure interned under its fields alone. -/
structure WellFormed (pool : Pool) : Prop where
  scalars : pool.types.take TypeId.scalarCount = ScalarType.all.map .scalar
  records : ∀ {id : TypeId} {data : TypeData}, TypeId.scalarCount ≤ id →
    pool.types[id]? = some data → ∃ fields, data = .record fields ∧ ∀ field ∈ fields, field < id
  interned_iff : ∀ {fields : List TypeId} {id : TypeId},
    (fields, id) ∈ pool.interned ↔ pool.types[id]? = some (.record fields)
  single : (pool.interned.map Prod.fst).Nodup

theorem scalars_wellFormed : scalars.WellFormed where
  scalars := rfl
  records := by
    intro id data late stored
    have inside := lt_of_stored stored
    exact absurd inside (Nat.not_lt.mpr late)
  interned_iff := by
    intro fields id
    constructor
    · intro member
      cases member
    · intro stored
      obtain ⟨type, -, same⟩ := List.mem_map.mp (List.mem_of_getElem? stored)
      cases same
  single := List.nodup_nil

namespace WellFormed

variable {pool later : Pool}

theorem listed (wellFormed : pool.WellFormed) : pool.Listed :=
  ⟨wellFormed.interned_iff, wellFormed.single⟩

theorem ordered (wellFormed : pool.WellFormed) : pool.Ordered where
  scalars := wellFormed.scalars
  older := by
    intro id fields stored
    by_cases late : TypeId.scalarCount ≤ id
    · obtain ⟨others, same, older⟩ := wellFormed.records late stored
      cases same
      exact older
    · have early : id < TypeId.scalarCount := Nat.lt_of_not_le late
      have scalar : (pool.types.take TypeId.scalarCount)[id]? = some (.record fields) := by
        rw [List.getElem?_take_of_lt early, stored]
      rw [wellFormed.scalars] at scalar
      obtain ⟨type, -, same⟩ := List.mem_map.mp (List.mem_of_getElem? scalar)
      cases same

theorem scalarCount_le (wellFormed : pool.WellFormed) : TypeId.scalarCount ≤ pool.size := by
  have length := congrArg List.length wellFormed.scalars
  rw [List.length_take, List.length_map] at length
  unfold size
  change min TypeId.scalarCount _ = TypeId.scalarCount at length
  omega

theorem stored_of_lookup (wellFormed : pool.WellFormed) {fields : List TypeId} {id : TypeId}
    (found : pool.interned.lookup fields = some id) : pool.types[id]? = some (.record fields) := by
  obtain ⟨before, after, split, -⟩ := List.lookup_eq_some_iff.mp found
  apply wellFormed.interned_iff.mp
  rw [split]
  exact List.mem_append_right _ List.mem_cons_self

end WellFormed

theorem intern_adds_at_most (pool : Pool) (fields : List TypeId) :
    (pool.intern fields).2 = pool ∨
      (pool.intern fields).2 =
        ⟨pool.types ++ [.record fields], pool.interned ++ [(fields, pool.size)]⟩ := by
  unfold intern
  cases pool.interned.lookup fields with
  | some id => exact .inl rfl
  | none => exact .inr rfl

theorem intern_grows (pool : Pool) (fields : List TypeId) :
    pool.types <+: (pool.intern fields).2.types ∧
      pool.interned <+: (pool.intern fields).2.interned := by
  rcases pool.intern_adds_at_most fields with same | added
  · rw [same]
    exact ⟨List.prefix_rfl, List.prefix_rfl⟩
  · rw [added]
    exact ⟨List.prefix_append _ _, List.prefix_append _ _⟩

theorem intern_stored (pool : Pool) (fields : List TypeId)
    (wellFormed : (pool.intern fields).2.WellFormed) :
    (pool.intern fields).2.types[(pool.intern fields).1]? = some (.record fields) := by
  unfold intern at wellFormed ⊢
  cases found : pool.interned.lookup fields with
  | some id =>
      rw [found] at wellFormed
      exact wellFormed.stored_of_lookup found
  | none => exact (stored_snoc_iff pool.types _ pool.size _).mpr (.inr ⟨rfl, rfl⟩)

theorem WellFormed.intern {pool : Pool} (wellFormed : pool.WellFormed) {fields : List TypeId}
    (known : ∀ field ∈ fields, field < pool.size) : (pool.intern fields).2.WellFormed := by
  have listed := wellFormed.listed.intern fields
  have enough := wellFormed.scalarCount_le
  unfold Pool.intern at listed ⊢
  cases found : pool.interned.lookup fields with
  | some id => exact wellFormed
  | none =>
      rw [found] at listed
      exact
        { scalars := by
            rw [← wellFormed.scalars]
            exact List.take_append_of_le_length enough
          records := by
            intro id data late stored
            rcases (stored_snoc_iff pool.types _ id data).mp stored with old | ⟨rfl, rfl⟩
            · exact wellFormed.records late old
            · exact ⟨fields, rfl, known⟩
          interned_iff := listed.interned_iff
          single := listed.single }

theorem rollback_types {pool later : Pool} (grown : pool.types <+: later.types) :
    (later.rollback pool.size).types = pool.types := by
  rw [rollback_types_eq_take]
  exact (List.prefix_iff_eq_take.mp grown).symm

theorem WellFormed.rollback {pool later : Pool} (wellFormed : pool.WellFormed)
    (laterWellFormed : later.WellFormed) (grown : pool.types <+: later.types) :
    (later.rollback pool.size).WellFormed := by
  have types := rollback_types grown
  have listed := laterWellFormed.listed.rollback pool.size
  exact
    { scalars := types.symm ▸ wellFormed.scalars
      records := types.symm ▸ wellFormed.records
      interned_iff := listed.interned_iff
      single := listed.single }

end KernelIR.Pool
