import KernelIR.Constant
import KernelIR.Proofs.Paths
import KernelIR.Proofs.Types

/-!
Data: what a value stands for while a kernel runs. Structures are trees, and a path reads a part of
a tree or puts another part in its place. Reading after a replacement is decided by how the two
paths lie to each other. Every type of an ordered pool has a default, whose parts are the defaults
of their types.
-/

set_option autoImplicit false

namespace KernelIR

inductive Datum where
  | void
  | scalar (value : Constant)
  | record (fields : List Datum)

namespace Datum

def at? : Datum → Path → Option Datum
  | datum, [] => some datum
  | .record fields, index :: path => do
      let field ← fields[index]?
      at? field path
  | _, _ :: _ => none

/-- The datum with `part` in place of what is at the path. -/
def put : Datum → Path → Datum → Datum
  | _, [], part => part
  | .record fields, index :: path, part =>
      .record (fields.modify index fun field => put field path part)
  | datum, _ :: _, _ => datum

theorem at?_cons_iff (datum part : Datum) (index : Nat) (path : Path) :
    datum.at? (index :: path) = some part ↔
      ∃ fields field, datum = .record fields ∧ fields[index]? = some field ∧
        field.at? path = some part := by
  cases datum with
  | void => simp [at?]
  | scalar value => simp [at?]
  | record fields => simp [at?, Option.bind_eq_some_iff]

theorem at?_put_append {datum old : Datum} (part : Datum) {path : Path} (rest : Path)
    (present : datum.at? path = some old) :
    (datum.put path part).at? (path ++ rest) = part.at? rest := by
  induction path generalizing datum with
  | nil => simp [put]
  | cons index path ih =>
      obtain ⟨fields, field, rfl, stored, inner⟩ := (at?_cons_iff datum old index path).mp present
      simp only [put, List.cons_append, at?, Option.bind_eq_bind, List.getElem?_modify, stored,
        Option.map_eq_map, Option.map_some, if_true, Option.bind_some]
      exact ih inner

/-- Reading elsewhere does not see a replacement. -/
theorem at?_put_apart (datum part : Datum) {path other : Path} (apart : path.Apart other) :
    (datum.put path part).at? other = datum.at? other := by
  induction path generalizing datum other with
  | nil => exact absurd apart (Path.not_apart_nil_left other)
  | cons step path ih =>
      cases other with
      | nil => exact absurd apart (Path.not_apart_nil_right _)
      | cons index other =>
          cases datum with
          | void => rfl
          | scalar value => rfl
          | record fields =>
              rw [Path.apart_cons_iff] at apart
              simp only [put, at?, List.getElem?_modify]
              cases fields[index]? with
              | none => rfl
              | some field =>
                  by_cases same : step = index
                  · have deeper := apart.resolve_left fun different => different same
                    simp [same, ih field deeper]
                  · simp [same]

inductive HasType (pool : Pool) : Datum → TypeId → Prop
  | void {id : TypeId} (stored : pool.types[id]? = some (.scalar .void)) : HasType pool .void id
  | scalar {id : TypeId} {value : Constant}
      (stored : pool.types[id]? = some (.scalar value.type)) : HasType pool (.scalar value) id
  | record {id : TypeId} {types : List TypeId} {fields : List Datum}
      (stored : pool.types[id]? = some (.record types)) (length : fields.length = types.length)
      (each : ∀ (index : Nat) (field : Datum) (type : TypeId), fields[index]? = some field →
        types[index]? = some type → HasType pool field type) :
      HasType pool (.record fields) id

namespace HasType

variable {pool : Pool} {datum part : Datum} {id field : TypeId} {path : Path}

theorem record_inv (typed : HasType pool datum id) {types : List TypeId}
    (stored : pool.types[id]? = some (.record types)) :
    ∃ fields, datum = .record fields ∧ fields.length = types.length ∧
      ∀ (index : Nat) (part : Datum) (type : TypeId), fields[index]? = some part →
        types[index]? = some type → HasType pool part type := by
  cases typed with
  | void other =>
      rw [stored] at other
      cases other
  | scalar other =>
      rw [stored] at other
      cases other
  | record other length each =>
      rw [stored] at other
      cases other
      exact ⟨_, rfl, length, each⟩

theorem at? (typed : HasType pool datum id) (found : pool.fieldAt? id path = some field) :
    ∃ part, datum.at? path = some part ∧ HasType pool part field := by
  induction path generalizing datum id with
  | nil =>
      cases found
      exact ⟨datum, rfl, typed⟩
  | cons index path ih =>
      obtain ⟨types, next, stored, member, rest⟩ :=
        (Pool.fieldAt?_cons_iff pool id field index path).mp found
      obtain ⟨fields, rfl, length, each⟩ := typed.record_inv stored
      obtain ⟨inner, present⟩ := stored_of_lt (length ▸ lt_of_stored member)
      obtain ⟨part, reached, partTyped⟩ := ih (each index inner next present member) rest
      exact ⟨part, (at?_cons_iff _ part index path).mpr ⟨fields, inner, rfl, present, reached⟩,
        partTyped⟩

theorem put (typed : HasType pool datum id) (found : pool.fieldAt? id path = some field)
    (partTyped : HasType pool part field) : HasType pool (datum.put path part) id := by
  induction path generalizing datum id with
  | nil =>
      cases found
      exact partTyped
  | cons index path ih =>
      obtain ⟨types, next, stored, member, rest⟩ :=
        (Pool.fieldAt?_cons_iff pool id field index path).mp found
      obtain ⟨fields, rfl, length, each⟩ := typed.record_inv stored
      refine .record stored (by rw [List.length_modify, length]) ?_
      intro position replaced type present expected
      rw [List.getElem?_modify] at present
      obtain ⟨old, there, same⟩ := Option.map_eq_some_iff.mp present
      have oldTyped := each position old type there expected
      by_cases here : index = position
      · subst here
        rw [member] at expected
        cases expected
        rw [if_pos rfl] at same
        subst same
        exact ih oldTyped rest
      · rw [if_neg here] at same
        subst same
        exact oldTyped

theorem of_later {later : Pool} (ordered : pool.Ordered) (grown : pool.types <+: later.types)
    (typed : HasType later datum id) (known : id < pool.size) : HasType pool datum id := by
  induction typed with
  | void stored => exact .void (stored_before_grown grown stored known)
  | scalar stored => exact .scalar (stored_before_grown grown stored known)
  | record stored length each ih =>
      have before := stored_before_grown grown stored known
      refine .record before length ?_
      intro index part type present expected
      have older := ordered.older before type (List.mem_of_getElem? expected)
      exact ih index part type present expected (Nat.lt_trans older known)

end HasType

end Datum

def ScalarType.zero : ScalarType → Datum
  | .void => .void
  | .i1 => .scalar (.int1 false)
  | .i8 => .scalar (.int8 .zero)
  | .i16 => .scalar (.int16 .zero)
  | .i32 => .scalar (.int32 .zero)
  | .i64 => .scalar (.int64 .zero)
  | .f16 => .scalar (.float16 0)
  | .f32 => .scalar (.float32 0)
  | .f64 => .scalar (.float64 0)

theorem ScalarType.zero_typed {pool : Pool} {id : TypeId} (type : ScalarType)
    (stored : pool.types[id]? = some (.scalar type)) : Datum.HasType pool type.zero id := by
  cases type with
  | void => exact .void stored
  | _ => exact .scalar stored

def TypeData.defaultFrom (earlier : List Datum) : TypeData → Datum
  | .scalar type => type.zero
  | .record fields => .record (fields.map fun field => earlier.getD field .void)

namespace Pool

def defaults (pool : Pool) : List Datum := inOrder TypeData.defaultFrom pool.types

/-- The default of a type: zero for a scalar, and for a structure the defaults of its fields. -/
def defaultOf (pool : Pool) (id : TypeId) : Datum := pool.defaults.getD id .void

theorem defaultOf_of_stored (pool : Pool) {id : TypeId} {data : TypeData}
    (stored : pool.types[id]? = some data) :
    pool.defaultOf id = data.defaultFrom (inOrder TypeData.defaultFrom (pool.types.take id)) := by
  rw [defaultOf, List.getD_eq_getElem?_getD, defaults, in_order_stored TypeData.defaultFrom stored]
  rfl

theorem Ordered.defaultOf_record {pool : Pool} (ordered : pool.Ordered) {id : TypeId}
    {fields : List TypeId} (stored : pool.types[id]? = some (.record fields)) :
    pool.defaultOf id = .record (fields.map pool.defaultOf) := by
  rw [defaultOf_of_stored pool stored]
  have inside := Nat.le_of_lt (lt_of_stored stored)
  apply congrArg Datum.record
  apply List.map_congr_left
  intro field member
  exact in_order_take_getD TypeData.defaultFrom (ordered.older stored field member) inside .void

theorem Ordered.defaultOf_typed {pool : Pool} (ordered : pool.Ordered) (id : TypeId)
    (inside : id < pool.size) : Datum.HasType pool (pool.defaultOf id) id := by
  induction id using Nat.strongRecOn with
  | ind id ih =>
      obtain ⟨data, stored⟩ := stored_of_lt inside
      cases data with
      | scalar type =>
          rw [defaultOf_of_stored pool stored]
          exact type.zero_typed stored
      | record fields =>
          rw [ordered.defaultOf_record stored]
          refine .record stored (List.length_map _) ?_
          intro index part type present expected
          rw [List.getElem?_map, expected, Option.map_some, Option.some.injEq] at present
          subst present
          have older := ordered.older stored type (List.mem_of_getElem? expected)
          exact ih type older (Nat.lt_trans older inside)

theorem Ordered.defaultOf_at? {pool : Pool} (ordered : pool.Ordered) {id field : TypeId}
    {path : Path} (found : pool.fieldAt? id path = some field) :
    (pool.defaultOf id).at? path = some (pool.defaultOf field) := by
  induction path generalizing id with
  | nil =>
      cases found
      rfl
  | cons index path ih =>
      obtain ⟨fields, next, stored, member, rest⟩ :=
        (fieldAt?_cons_iff pool id field index path).mp found
      rw [ordered.defaultOf_record stored]
      refine (Datum.at?_cons_iff _ _ index path).mpr ⟨_, pool.defaultOf next, rfl, ?_, ih rest⟩
      rw [List.getElem?_map, member, Option.map_some]

theorem defaultOf_of_grown {before after : Pool} (grown : before.types <+: after.types)
    {id : TypeId} (inside : id < before.size) : after.defaultOf id = before.defaultOf id := by
  have early : id < before.defaults.length := by
    rw [defaults, in_order_length]
    exact inside
  exact getD_of_grown (in_order_of_grown TypeData.defaultFrom grown) early .void

end Pool

end KernelIR
