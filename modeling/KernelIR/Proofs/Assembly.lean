import KernelIR.Proofs.Growth

/-!
Structures that are built field by field. An object has a part at a path where each step is a field
whose newest write is known: the writes of other fields are passed over, and nothing that is added
later changes what was written, so a read of the path gives the part itself. Writing values into
consecutive fields, and so making a structure of values, gives an object that has all of them.
-/

set_option autoImplicit false

namespace KernelIR

namespace Graph

variable {graph later : Graph} {pool laterPool : Pool}

/-- An object has a part at a path: each step is a field of a structure, and the newest write that
is not apart from it gave the value in which the rest of the path is followed. -/
inductive PartAt (graph : Graph) (pool : Pool) : ValueId → Path → ValueId → Prop
  | itself (object : ValueId) : PartAt graph pool object [] object
  | field {object inner part : ValueId} {index : Nat} {path : Path} {type field : TypeId}
      {types : List TypeId} (typed : graph.type? object = some type)
      (record : pool.types[type]? = some (.record types)) (listed : types[index]? = some field)
      (innerTyped : graph.type? inner = some field)
      (last : graph.LastWrite [index] object (.stored inner))
      (rest : PartAt graph pool inner path part) : PartAt graph pool object (index :: path) part

namespace PartAt

variable {object part : ValueId} {path : Path}

theorem of_grown (values : graph.values <+: later.values) (types : pool.types <+: laterPool.types)
    (present : graph.PartAt pool object path part) : later.PartAt laterPool object path part := by
  induction present with
  | itself object => exact .itself object
  | field typed record listed innerTyped last rest ih =>
      exact .field (type?_of_grown values typed) (stored_of_grown types record) listed
        (type?_of_grown values innerTyped) (last.of_grown values) ih

theorem typed (present : graph.PartAt pool object path part) {whole : TypeId}
    (typed : graph.type? object = some whole) :
    ∃ type, graph.type? part = some type ∧ pool.fieldAt? whole path = some type := by
  induction present generalizing whole with
  | itself object => exact ⟨whole, typed, rfl⟩
  | field objectTyped record listed innerTyped last rest ih =>
      rw [typed] at objectTyped
      cases objectTyped
      obtain ⟨type, partTyped, reached⟩ := ih innerTyped
      exact ⟨type, partTyped,
        (Pool.fieldAt?_cons_iff pool _ type _ _).mpr ⟨_, _, record, listed, reached⟩⟩

theorem located (present : graph.PartAt pool object path part) (backward : graph.Backward)
    (some : path ≠ []) {fuel : Nat} (enough : path.length < fuel) :
    graph.locateFrom pool fuel object path = .ok (.stored part) := by
  induction present generalizing fuel with
  | itself object => exact absurd rfl some
  | @field object inner part index path whole field types typed record listed innerTyped last rest
      ih =>
      obtain ⟨fuel, rfl⟩ := Nat.exists_eq_add_of_lt enough
      obtain ⟨type, -, reached⟩ := rest.typed innerTyped
      have fieldFound := (fieldType_eq_ok_iff graph pool object (index :: path) type).mpr
        ⟨whole, typed, some,
          (Pool.fieldAt?_cons_iff pool whole type _ _).mpr ⟨_, _, record, listed, reached⟩⟩
      cases path with
      | nil =>
          cases rest
          exact backward.locateFrom_eq fieldFound _ last
      | cons step path =>
          have more : step :: path ≠ [] := List.cons_ne_nil step path
          rw [backward.locateFrom_eq fieldFound _ (last.further more)]
          exact ih more (Nat.lt_of_lt_of_le (Nat.lt_succ_self _) (Nat.le_add_right _ fuel))

end PartAt

end Graph

namespace Builder

theorem read_of_partAt {builder : Builder} (placed : builder.block < builder.graph.blocks.length)
    (backward : builder.graph.Backward) {object part : ValueId} {path : Path}
    (present : builder.graph.PartAt builder.pool object path part) {whole : TypeId}
    (typed : builder.graph.type? object = some whole) (some : path ≠ []) :
    read object path builder = .ok part builder :=
  read_of_located placed (present.located backward some (Graph.steps_lt typed path))

/-- What writing values into consecutive fields of an object comes to. -/
structure FieldsWritten (before : Builder) (object : ValueId) (index : Nat) (values : List ValueId)
    (result : ValueId) (after : Builder) : Prop where
  grown : Grown before after
  pool : after.pool = before.pool
  size : after.graph.size = before.graph.size + values.length
  typed : after.graph.type? result = before.graph.type? object
  fields : ∀ {offset : Nat} {part : ValueId}, values[offset]? = some part →
    after.graph.LastWrite [index + offset] result (.stored part)
  /-- Fields before the first one that is written are seen behind the writes. -/
  earlier : ∀ {other : Nat} {part : ValueId}, other < index →
    before.graph.LastWrite [other] object (.stored part) →
      after.graph.LastWrite [other] result (.stored part)

theorem write_eq_ok {before after : Builder} {object value result : ValueId} {path : Path}
    (ok : write object path value before = .ok result after) :
    ∃ type, before.graph.type? object = some type ∧ result = before.graph.size ∧
      after = before.appended (.write object path value) type := by
  obtain ⟨type, middle, asked, added⟩ := Build.bind_eq_ok ok
  obtain ⟨checked, rfl⟩ := Build.ask_eq_ok asked
  obtain ⟨-, rfl, rfl⟩ := append_eq_ok added
  exact ⟨type, ((writeType_eq_ok_iff _ object path value type).mp checked).1, rfl, rfl⟩

theorem FieldsWritten.cons {before after : Builder} {object value result : ValueId} {index : Nat}
    {values : List ValueId} {type : TypeId} (typed : before.graph.type? object = some type)
    (rest : FieldsWritten (before.appended (.write object [index] value) type) before.graph.size
      (index + 1) values result after) :
    FieldsWritten before object index (value :: values) result after where
  grown := (Grown.appended before _ type).trans rest.grown
  pool := rest.pool
  size := by
    rw [rest.size, appended_size, List.length_cons]
    omega
  typed := by
    rw [rest.typed, appended_type, typed]
  fields := by
    intro offset part found
    cases offset with
    | zero =>
        cases found
        exact rest.earlier (Nat.lt_succ_self index) (.equal (appended_kind before _ type))
    | succ offset =>
        have later := rest.fields found
        rw [Nat.succ_add_eq_add_succ] at later
        exact later
  earlier := by
    intro other part older last
    have grown := appended_grows before (.write object [index] value) type
    have apart : Path.Apart [index] [other] :=
      (Path.apart_cons_iff index other [] []).mpr (.inl (Nat.ne_of_gt older))
    exact rest.earlier (Nat.lt_succ_of_lt older)
      (.elsewhere (appended_kind before _ type) apart (last.of_grown grown))

theorem fieldsWritten {before after : Builder} {object result : ValueId} {index : Nat}
    {values : List ValueId} (ok : writeFields object index values before = .ok result after) :
    FieldsWritten before object index values result after := by
  induction values generalizing before object index with
  | nil =>
      cases ok
      exact
        { grown := .refl _
          pool := rfl
          size := rfl
          typed := rfl
          fields := fun found => by cases found
          earlier := fun _ last => last }
  | cons value values ih =>
      obtain ⟨next, middle, written, rest⟩ := Build.bind_eq_ok ok
      obtain ⟨type, typed, rfl, rfl⟩ := write_eq_ok written
      exact .cons typed (ih rest)

theorem typed_of_types {graph : Graph} {values : List ValueId} {types : List TypeId}
    (typed : values.map graph.type? = types.map some) {index : Nat} {value : ValueId}
    (listed : values[index]? = some value) :
    ∃ type, types[index]? = some type ∧ graph.type? value = some type := by
  have same := congrArg (fun entries => entries[index]?) typed
  simp only [List.getElem?_map, listed, Option.map_some] at same
  obtain ⟨type, found, typedAt⟩ := Option.map_eq_some_iff.mp same.symm
  exact ⟨type, found, typedAt.symm⟩

/-- A structure that was made of values: its default and one version for each of them. -/
structure Assembled (before : Builder) (values : List ValueId) (result : ValueId)
    (after : Builder) : Prop where
  grown : Grown before after
  size : after.graph.size = before.graph.size + (1 + values.length)
  record : ∃ type types, after.graph.type? result = some type ∧
    after.pool.types[type]? = some (.record types) ∧
      values.map after.graph.type? = types.map some
  fields : ∀ {index : Nat} {part : ValueId}, values[index]? = some part →
    after.graph.LastWrite [index] result (.stored part)

section Typed

variable {builder : Builder} {values : List ValueId} {types : List TypeId}

theorem defaultRecord_of_record (placed : builder.block < builder.graph.blocks.length)
    {type : TypeId} (record : builder.pool.types[type]? = some (.record types)) :
    defaultRecord type builder = .ok builder.graph.size (builder.appended .null type) := by
  have fields := (Pool.fieldsOf_eq_ok_iff builder.pool type types).mpr record
  unfold defaultRecord
  rw [Build.bind_apply]
  simp only [Build.ask, fields]
  exact append_of_placed placed .null type

theorem assemble_of_typed (placed : builder.block < builder.graph.blocks.length)
    (wellFormed : builder.pool.WellFormed)
    (typed : values.map builder.graph.type? = types.map some)
    (known : ∀ type ∈ types, type < builder.pool.size) :
    Host.assemble values builder =
      .ok (builder.graph.size + values.length) (builder.withRecord types values) := by
  let begun : Builder := { builder with pool := (builder.pool.intern types).2 }
  have begunPlaced : begun.block < begun.graph.blocks.length := placed
  have record := Pool.intern_stored builder.pool types (wellFormed.intern known)
  have object := defaultRecord_of_record begunPlaced record
  unfold Host.assemble
  rw [Build.bind_apply, typeOfFields_of_typed typed known]
  simp only
  rw [Build.bind_apply, object]
  exact writeFields_of_default placed wellFormed typed known

theorem withRecord_typed (placed : builder.block < builder.graph.blocks.length)
    (wellFormed : builder.pool.WellFormed)
    (typed : values.map builder.graph.type? = types.map some)
    (known : ∀ type ∈ types, type < builder.pool.size) :
    (builder.withRecord types values).graph.type? (builder.graph.size + values.length) =
        some (builder.pool.intern types).1 ∧
      (builder.withRecord types values).pool.types[(builder.pool.intern types).1]? =
        some (.record types) := by
  let begun : Builder := { builder with pool := (builder.pool.intern types).2 }
  have fields := fieldsWritten (writeFields_of_default placed wellFormed typed known)
  have stored := Pool.intern_stored builder.pool types (wellFormed.intern known)
  exact ⟨fields.typed.trans (appended_type begun .null _),
    stored_of_grown fields.grown.types stored⟩

theorem withRecord_assembled (placed : builder.block < builder.graph.blocks.length)
    (wellFormed : builder.pool.WellFormed)
    (typed : values.map builder.graph.type? = types.map some)
    (known : ∀ type ∈ types, type < builder.pool.size) :
    Assembled builder values (builder.graph.size + values.length)
      (builder.withRecord types values) := by
  let begun : Builder := { builder with pool := (builder.pool.intern types).2 }
  let handle : TypeId := (builder.pool.intern types).1
  have fields := fieldsWritten (writeFields_of_default placed wellFormed typed known)
  have grown : Grown begun (builder.withRecord types values) :=
    (Grown.appended begun .null handle).trans fields.grown
  have added : (begun.appended .null handle).graph.size = builder.graph.size + 1 :=
    appended_size begun .null handle
  obtain ⟨resultTyped, record⟩ := withRecord_typed placed wellFormed typed known
  exact
    { grown := ⟨grown.values, (Pool.intern_grows builder.pool types).1.trans grown.types,
        grown.blocks⟩
      size := by rw [fields.size, added, Nat.add_assoc]
      record := ⟨handle, types, resultTyped, record, Graph.types_of_grown grown.values typed⟩
      fields := fun {index part} found => by
        have last := fields.fields found
        rw [Nat.zero_add] at last
        exact last }

end Typed

theorem assemble_eq_ok {before after : Builder} (placed : before.block < before.graph.blocks.length)
    (wellFormed : before.pool.WellFormed) {values : List ValueId} {result : ValueId}
    (ok : Host.assemble values before = .ok result after) :
    ∃ types : List TypeId, values.map before.graph.type? = types.map some ∧
      (∀ type ∈ types, type < before.pool.size) ∧ result = before.graph.size + values.length ∧
      after = before.withRecord types values := by
  rcases typeOfFields_cases before values with ⟨types, typed, known⟩ | ⟨cause, stopped⟩
  · rw [assemble_of_typed placed wellFormed typed known] at ok
    cases ok
    exact ⟨types, typed, known, rfl, rfl⟩
  · obtain ⟨type, middle, interned, -⟩ := Build.bind_eq_ok ok
    rw [stopped] at interned
    cases interned

theorem assembled {before after : Builder} (placed : before.block < before.graph.blocks.length)
    (wellFormed : before.pool.WellFormed) {values : List ValueId} {result : ValueId}
    (ok : Host.assemble values before = .ok result after) :
    Assembled before values result after := by
  obtain ⟨types, typed, known, rfl, rfl⟩ := assemble_eq_ok placed wellFormed ok
  exact withRecord_assembled placed wellFormed typed known

end Builder

end KernelIR
