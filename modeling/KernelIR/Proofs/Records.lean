import KernelIR.Builder.Record
import KernelIR.Proofs.Forwarding
import KernelIR.Proofs.Rendering

/-!
Structures made of values. The type of the structure is interned from the types of the values, so
each value has the type of the field that it is written into, and the writes succeed one after the
other.
-/

set_option autoImplicit false

namespace KernelIR

namespace Graph

theorem types_found {graph : Graph} {values : List ValueId} {fields : List TypeId}
    (typed : values.map graph.type? = fields.map some) :
    (values.mapM fun id => (liftM (graph.typeOf id) : Except Failure TypeId)) = .ok fields := by
  induction values generalizing fields with
  | nil =>
      cases fields with
      | nil => rfl
      | cons field fields => cases typed
  | cons id values ih =>
      cases fields with
      | nil => cases typed
      | cons field fields =>
          rw [List.map_cons, List.map_cons, List.cons.injEq] at typed
          obtain ⟨first, rest⟩ := typed
          rw [List.mapM_cons, typeOf_of_typed first, ih rest]
          rfl

theorem types_cases (graph : Graph) (values : List ValueId) :
    (∃ fields : List TypeId, values.map graph.type? = fields.map some) ∨
      ∃ cause, (values.mapM fun id => (liftM (graph.typeOf id) : Except Failure TypeId)) =
        .error (.fault cause) := by
  induction values with
  | nil => exact .inl ⟨[], rfl⟩
  | cons id values ih =>
      rw [List.mapM_cons]
      cases found : graph.typeOf id with
      | error cause => exact .inr ⟨cause, rfl⟩
      | ok type =>
          have typed := (typeOf_eq_ok_iff graph id type).mp found
          rcases ih with ⟨fields, same⟩ | ⟨cause, rest⟩
          · refine .inl ⟨type :: fields, ?_⟩
            rw [List.map_cons, List.map_cons, typed, same]
          · refine .inr ⟨cause, ?_⟩
            rw [rest]
            rfl

theorem types_of_grown {graph later : Graph} (grown : graph.values <+: later.values)
    {values : List ValueId} {fields : List TypeId}
    (typed : values.map graph.type? = fields.map some) :
    values.map later.type? = fields.map some := by
  rw [← typed]
  apply List.map_congr_left
  intro id member
  have found : graph.type? id ∈ values.map graph.type? := List.mem_map_of_mem member
  rw [typed] at found
  obtain ⟨type, -, same⟩ := List.mem_map.mp found
  rw [← same, type?_of_grown grown same.symm]

theorem fieldType_congr {left right : Graph} {pool : Pool} {object twin : ValueId} {whole : TypeId}
    (typed : left.type? object = some whole) (twinTyped : right.type? twin = some whole)
    (path : Path) : left.fieldType pool object path = right.fieldType pool twin path := by
  unfold fieldType
  rw [typeOf_of_typed typed, typeOf_of_typed twinTyped]

theorem fieldType_ne_fault {graph : Graph} {pool : Pool} {object : ValueId} {whole : TypeId}
    (typed : graph.type? object = some whole) (path : Path) (cause : Fault) :
    graph.fieldType pool object path ≠ .error (.fault cause) := by
  unfold fieldType
  rw [typeOf_of_typed typed]
  simp only [Failure.lift_ok, ok_bind]
  cases pool.fieldsOf whole with
  | error found => exact fun same => by cases same
  | ok fields => cases pool.resolve whole path <;> exact fun same => by cases same

end Graph

namespace Builder

theorem typeOfFields_of_typed {builder : Builder} {values : List ValueId} {fields : List TypeId}
    (typed : values.map builder.graph.type? = fields.map some)
    (known : ∀ field ∈ fields, field < builder.pool.size) :
    typeOfFields values builder = .ok (builder.pool.intern fields).1
      { builder with pool := (builder.pool.intern fields).2 } := by
  have inside := (Pool.all_contained_iff builder.pool fields).mpr known
  unfold typeOfFields
  rw [Build.bind_apply]
  simp only [Build.ask, Graph.types_found typed]
  unfold recordType
  rw [if_pos inside]

theorem typeOfFields_cases (builder : Builder) (values : List ValueId) :
    (∃ fields : List TypeId, values.map builder.graph.type? = fields.map some ∧
      ∀ field ∈ fields, field < builder.pool.size) ∨
      ∃ cause, typeOfFields values builder = .fault cause := by
  unfold typeOfFields
  rw [Build.bind_apply]
  rcases Graph.types_cases builder.graph values with ⟨fields, typed⟩ | ⟨cause, missing⟩
  · simp only [Build.ask, Graph.types_found typed]
    unfold recordType
    by_cases known : fields.all builder.pool.contains
    · exact .inl ⟨fields, typed, (Pool.all_contained_iff builder.pool fields).mp known⟩
    · rw [if_neg known]
      exact .inr ⟨_, rfl⟩
  · simp only [Build.ask, missing]
    exact .inr ⟨cause, rfl⟩

theorem writeType_eq_ok_iff (builder : Builder) (object : ValueId) (path : Path) (value : ValueId)
    (whole : TypeId) :
    builder.writeType object path value = .ok whole ↔
      builder.graph.type? object = some whole ∧ ∃ field, builder.graph.type? value = some field ∧
        path ≠ [] ∧ builder.pool.fieldAt? whole path = some field := by
  constructor
  · intro ok
    obtain ⟨field, found, ok⟩ := (bind_eq_ok_iff _ _ whole).mp ok
    obtain ⟨type, part, ok⟩ := (bind_eq_ok_iff _ _ whole).mp ok
    obtain ⟨other, typed, some, reached⟩ :=
      (Graph.fieldType_eq_ok_iff builder.graph builder.pool object path field).mp found
    have partTyped := (Graph.typeOf_eq_ok_iff builder.graph value type).mp
      ((Failure.lift_eq_ok_iff _ type).mp part)
    by_cases same : field = type
    · rw [if_pos same, Failure.lift_eq_ok_iff, Graph.typeOf_eq_ok_iff, typed] at ok
      cases ok
      cases same
      exact ⟨typed, field, partTyped, some, reached⟩
    · rw [if_neg same] at ok
      obtain ⟨expected, -, mismatch⟩ := (bind_eq_ok_iff _ _ whole).mp ok
      obtain ⟨present, -, thrown⟩ := (bind_eq_ok_iff _ _ whole).mp mismatch
      cases thrown
  · rintro ⟨typed, field, part, some, reached⟩
    have fieldFound := (Graph.fieldType_eq_ok_iff builder.graph builder.pool object path field).mpr
      ⟨whole, typed, some, reached⟩
    unfold writeType
    simp only [fieldFound, Graph.typeOf_of_typed part, Graph.typeOf_of_typed typed,
      Failure.lift_ok, ok_bind, if_true]

theorem older_of_writeType {builder : Builder} {object value : ValueId} {path : Path}
    {whole : TypeId} (checked : builder.writeType object path value = .ok whole) :
    ∀ operand ∈ (ValueKind.write object path value).operands, operand < builder.graph.size := by
  intro operand used
  obtain ⟨typed, field, part, -, -⟩ :=
    (writeType_eq_ok_iff builder object path value whole).mp checked
  rcases List.mem_cons.mp used with rfl | other
  · exact Graph.lt_of_type? typed
  · cases List.mem_singleton.mp other
    exact Graph.lt_of_type? part

theorem writeType_congr {left right : Builder} (pool : left.pool = right.pool)
    {object twin value valueTwin : ValueId} {whole type : TypeId}
    (typed : left.graph.type? object = some whole) (twinTyped : right.graph.type? twin = some whole)
    (part : left.graph.type? value = some type)
    (twinPart : right.graph.type? valueTwin = some type) (path : Path) :
    left.writeType object path value = right.writeType twin path valueTwin := by
  unfold writeType typeText
  rw [Graph.fieldType_congr typed twinTyped path, pool, Graph.typeOf_of_typed typed,
    Graph.typeOf_of_typed twinTyped, Graph.typeOf_of_typed part, Graph.typeOf_of_typed twinPart]

/-- Over an ordered pool both types have a text, so a mismatch is an error and not a fault. -/
theorem writeType_ne_fault {builder : Builder} (ordered : builder.pool.Ordered)
    {object value : ValueId} {whole type : TypeId}
    (typed : builder.graph.type? object = some whole) (part : builder.graph.type? value = some type)
    (path : Path) (cause : Fault) :
    builder.writeType object path value ≠ .error (.fault cause) := by
  intro failed
  have shown : ∀ id, ∃ text, builder.typeText id = .ok text := by
    intro id
    obtain ⟨text, found⟩ := ordered.founded.render?_found id
    refine ⟨text, ?_⟩
    unfold typeText
    rw [found]
  unfold writeType at failed
  rw [Graph.typeOf_of_typed typed, Graph.typeOf_of_typed part] at failed
  rcases (bind_eq_error_iff _ _ _).mp failed with noField | ⟨field, -, rest⟩
  · exact Graph.fieldType_ne_fault typed path cause noField
  · obtain ⟨expected, expectedShown⟩ := shown field
    obtain ⟨found, foundShown⟩ := shown type
    simp only [Failure.lift_ok, ok_bind, expectedShown, foundShown] at rest
    split at rest
    · cases rest
    · cases rest

theorem write_of_typed {builder : Builder} (placed : builder.block < builder.graph.blocks.length)
    {object value : ValueId} {path : Path} {whole field : TypeId} (some : path ≠ [])
    (typed : builder.graph.type? object = .some whole)
    (reached : builder.pool.fieldAt? whole path = .some field)
    (part : builder.graph.type? value = .some field) :
    write object path value builder =
      .ok builder.graph.size (builder.appended (.write object path value) whole) := by
  have checked := (writeType_eq_ok_iff builder object path value whole).mpr
    ⟨typed, field, part, some, reached⟩
  unfold write
  rw [Build.bind_apply]
  simp only [Build.ask, checked]
  exact append_of_placed placed _ whole

def appendedAll (builder : Builder) (type : TypeId) : List ValueKind → Builder
  | [] => builder
  | kind :: kinds => (builder.appended kind type).appendedAll type kinds

/-- The writes of consecutive fields, each into the version that the one before it has made. -/
def fieldWrites (object : ValueId) (index : Nat) (values : List ValueId) : List ValueKind :=
  values.mapIdx fun offset value => .write (object + offset) [index + offset] value

theorem fieldWrites_cons (object : ValueId) (index : Nat) (value : ValueId)
    (values : List ValueId) :
    fieldWrites object index (value :: values) =
      .write object [index] value :: fieldWrites (object + 1) (index + 1) values := by
  unfold fieldWrites
  rw [List.mapIdx_cons]
  simp only [Nat.add_zero, Nat.succ_add_eq_add_succ, Nat.succ_eq_add_one]

theorem writeFields_of_typed {builder : Builder}
    (placed : builder.block < builder.graph.blocks.length) {object : ValueId} {type : TypeId}
    {fields : List TypeId} {index : Nat} {values : List ValueId}
    (newest : builder.graph.size = object + 1) (typed : builder.graph.type? object = some type)
    (record : builder.pool.types[type]? = some (.record fields))
    (parts : values.map builder.graph.type? = (fields.drop index).map some) :
    writeFields object index values builder = .ok (object + values.length)
      (builder.appendedAll type (fieldWrites object index values)) := by
  induction values generalizing builder object index with
  | nil => rfl
  | cons value values ih =>
      cases remaining : fields.drop index with
      | nil =>
          rw [remaining] at parts
          cases parts
      | cons field rest =>
          rw [remaining, List.map_cons, List.map_cons, List.cons.injEq] at parts
          obtain ⟨part, others⟩ := parts
          have found : fields[index]? = some field := by
            rw [← Nat.add_zero index, ← List.getElem?_drop, remaining, List.getElem?_cons_zero]
          have rest_eq : fields.drop (index + 1) = rest := by
            rw [← List.drop_drop, remaining, List.drop_one, List.tail_cons]
          have written := write_of_typed placed (List.cons_ne_nil index []) typed
            (Pool.fieldAt?_singleton record found) part
          rw [newest] at written
          let next := builder.appended (.write object [index] value) type
          have grown : builder.graph.values <+: next.graph.values := appended_grows builder _ type
          have nextTyped : next.graph.type? (object + 1) = some type := by
            rw [← newest]
            exact appended_type builder _ type
          have nextNewest : next.graph.size = object + 1 + 1 := by
            rw [← newest]
            exact appended_size builder _ type
          have nextParts : values.map next.graph.type? = (fields.drop (index + 1)).map some := by
            rw [rest_eq]
            exact Graph.types_of_grown grown others
          have last := ih (appended_placed placed _ type) nextNewest nextTyped record nextParts
          rw [Nat.add_right_comm] at last
          unfold writeFields
          rw [Build.bind_apply, written, fieldWrites_cons]
          exact last

/-- The builder in which a structure has been made of the values: it has the type of the structure,
its default, and one version for each field. -/
def withRecord (builder : Builder) (types : List TypeId) (values : List ValueId) : Builder :=
  appendedAll { builder with pool := (builder.pool.intern types).2 } (builder.pool.intern types).1
    (.null :: fieldWrites builder.graph.size 0 values)

theorem appendedAll_eq (builder : Builder) (type : TypeId) (kinds : List ValueKind) :
    builder.appendedAll type kinds =
      { builder with
        graph :=
          { builder.graph with
            values := builder.graph.values ++ kinds.map fun kind => ⟨kind, type, builder.block⟩
            blocks := builder.graph.blocks.modify builder.block
              (· ++ List.range' builder.graph.size kinds.length) } } := by
  induction kinds generalizing builder with
  | nil =>
      have blocks := List.modify_id builder.block builder.graph.blocks
      simp only [appendedAll, List.map_nil, List.append_nil, List.length_nil, List.range'_zero]
      exact congrArg (fun blocks => { builder with graph := { builder.graph with blocks } })
        blocks.symm
  | cons kind kinds ih =>
      rw [appendedAll, ih]
      simp [appended, Graph.append, Graph.size, List.modify_modify_eq, List.range'_succ,
        Function.comp_def]

theorem fieldWrites_length (object : ValueId) (index : Nat) (values : List ValueId) :
    (fieldWrites object index values).length = values.length := List.length_mapIdx

theorem withRecord_eq (builder : Builder) (types : List TypeId) (values : List ValueId) :
    (builder.withRecord types values).pool = (builder.pool.intern types).2 ∧
      (builder.withRecord types values).block = builder.block ∧
      (builder.withRecord types values).graph =
        { values := builder.graph.values ++
            (.null :: fieldWrites builder.graph.size 0 values).map fun kind =>
              ⟨kind, (builder.pool.intern types).1, builder.block⟩
          blocks := builder.graph.blocks.modify builder.block
            (· ++ List.range' builder.graph.size (values.length + 1))
          params := builder.graph.params } := by
  unfold withRecord
  rw [appendedAll_eq, List.length_cons, fieldWrites_length]
  exact ⟨rfl, rfl, rfl⟩

section Typed

variable {builder : Builder} {values : List ValueId} {types : List TypeId}

theorem writeFields_of_default (placed : builder.block < builder.graph.blocks.length)
    (wellFormed : builder.pool.WellFormed)
    (typed : values.map builder.graph.type? = types.map some)
    (known : ∀ type ∈ types, type < builder.pool.size) :
    writeFields builder.graph.size 0 values
        (appended { builder with pool := (builder.pool.intern types).2 } .null
          (builder.pool.intern types).1) =
      .ok (builder.graph.size + values.length) (builder.withRecord types values) := by
  let begun : Builder := { builder with pool := (builder.pool.intern types).2 }
  let type : TypeId := (builder.pool.intern types).1
  have begunPlaced : begun.block < begun.graph.blocks.length := placed
  have record : begun.pool.types[type]? = some (.record types) :=
    Pool.intern_stored builder.pool types (wellFormed.intern known)
  have parts := Graph.types_of_grown (appended_grows begun .null type) typed
  exact writeFields_of_typed (appended_placed begunPlaced .null type)
    (appended_size begun .null type) (appended_type begun .null type) record parts

theorem recordOf_of_typed (placed : builder.block < builder.graph.blocks.length)
    (wellFormed : builder.pool.WellFormed)
    (typed : values.map builder.graph.type? = types.map some)
    (known : ∀ type ∈ types, type < builder.pool.size) (some : values ≠ []) :
    recordOf values builder =
      .ok (builder.graph.size + values.length) (builder.withRecord types values) := by
  let begun : Builder := { builder with pool := (builder.pool.intern types).2 }
  have begunPlaced : begun.block < begun.graph.blocks.length := placed
  have object := append_of_placed begunPlaced .null (builder.pool.intern types).1
  unfold recordOf null
  rw [if_neg (by simpa using some), Build.bind_apply, typeOfFields_of_typed typed known]
  simp only
  rw [Build.bind_apply, object]
  exact writeFields_of_default placed wellFormed typed known

end Typed

theorem recordOf_cases {builder : Builder} (placed : builder.block < builder.graph.blocks.length)
    (wellFormed : builder.pool.WellFormed) {operands : List ValueId} (some : operands ≠ []) :
    (∃ result later, recordOf operands builder = .ok result later) ∨
      ∃ cause, recordOf operands builder = .fault cause := by
  rcases typeOfFields_cases builder operands with ⟨types, typed, known⟩ | ⟨cause, missing⟩
  · exact .inl ⟨_, _, recordOf_of_typed placed wellFormed typed known some⟩
  · refine .inr ⟨cause, ?_⟩
    unfold recordOf
    rw [if_neg (by simpa using some), Build.bind_apply, missing]

end Builder

end KernelIR
