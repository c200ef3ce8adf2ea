import KernelIR.Proofs.Types
import KernelIR.Pool.Tree

/-!
Paths through types, in any pool. Types may contain themselves or fields that the pool does not
have; a path is finite, so its walk ends. Main statement: a path resolves exactly if its first part
resolves and the rest resolves from there; and where a path does not resolve, the error is that of
the first position that cannot be reached, and speaks of the type that stands before it.
-/

set_option autoImplicit false

namespace KernelIR.Pool

/-- The walk stands at this type before it takes the step at the position. -/
def StandsAt (pool : Pool) (id : TypeId) (path : Path) : Nat → TypeId → Prop
  | 0, reached => reached = id
  | position + 1, reached => pool.resolve id (path.take (position + 1)) = .ok reached

/-- The first position up to which the path does not resolve. -/
structure FirstUnresolved (pool : Pool) (id : TypeId) (path : Path) (position : Nat) : Prop where
  inside : position < path.length
  unresolved : ∀ type, pool.resolve id (path.take (position + 1)) ≠ .ok type
  resolved : ∀ earlier < position, ∃ type, pool.resolve id (path.take (earlier + 1)) = .ok type

/-- The error for a path that stops at a type, before the step at the position. -/
def StopsWith (pool : Pool) (path : Path) (position : Nat) (reached : TypeId)
    (cause : BuildError) : Prop :=
  match pool.types[reached]? with
  | some (.record fields) =>
      ∃ index, path[position]? = some index ∧ cause = .outOfRange path index fields.length
  | _ => ∃ found, pool.render? reached = some found ∧
      cause = .typeMismatch "a structure type" found

variable {pool : Pool} {id reached : TypeId} {path : Path} {position : Nat}

theorem resolve_append_eq_ok_iff (pool : Pool) (id type : TypeId) {outer inner : Path}
    (first : outer ≠ []) (rest : inner ≠ []) :
    pool.resolve id (outer ++ inner) = .ok type ↔
      ∃ middle, pool.resolve id outer = .ok middle ∧ pool.resolve middle inner = .ok type := by
  simp only [resolve_eq_ok_iff, fieldAt?_append, Option.bind_eq_some_iff]
  have whole : outer ++ inner ≠ [] := List.append_ne_nil_of_left_ne_nil first inner
  simp only [ne_eq, whole, first, rest, not_false_eq_true, true_and]

theorem resolve_take_eq_ok_iff (steps : path ≠ []) (length : Nat) (type : TypeId) :
    pool.resolve id (path.take (length + 1)) = .ok type ↔
      pool.fieldAt? id (path.take (length + 1)) = some type := by
  rw [resolve_eq_ok_iff]
  apply and_iff_right
  rw [ne_eq, List.take_eq_nil_iff]
  simp [steps]

theorem standsAt_iff (steps : path ≠ []) (position : Nat) (reached : TypeId) :
    pool.StandsAt id path position reached ↔
      pool.fieldAt? id (path.take position) = some reached := by
  cases position with
  | zero => simp [StandsAt, fieldAt?, eq_comm]
  | succ position => exact resolve_take_eq_ok_iff steps position reached

theorem fieldAt?_take_found (found : pool.fieldAt? id path = some reached) (length : Nat) :
    ∃ middle, pool.fieldAt? id (path.take length) = some middle := by
  rw [← List.take_append_drop length path, fieldAt?_append] at found
  obtain ⟨middle, first, -⟩ := Option.bind_eq_some_iff.mp found
  exact ⟨middle, first⟩

theorem fieldAt?_take_succ {index : Nat} (here : path[position]? = some index)
    (stands : pool.fieldAt? id (path.take position) = some reached) :
    pool.fieldAt? id (path.take (position + 1)) = pool.fieldAt? reached [index] := by
  rw [List.take_add_one, here, Option.toList_some, fieldAt?_append, stands, Option.bind_some]

theorem render?_of_fieldsOf_error {found : String} (missing : pool.fieldsOf id = .error found) :
    pool.render? id = some found := by
  unfold fieldsOf at missing
  unfold render? tree? treeFrom?
  split at missing
  · cases missing
  · next stored =>
      cases missing
      rw [stored]
      rfl
  · next stored =>
      cases missing
      rw [stored]
      rfl

inductive Blocked (pool : Pool) (whole : Path) (id : TypeId) (index : Nat) : BuildError → Prop
  | noRecord {found : String} (missing : pool.fieldsOf id = .error found) :
      Blocked pool whole id index (.typeMismatch "a structure type" found)
  | beyond {fields : List TypeId} (stored : pool.fieldsOf id = .ok fields)
      (outside : fields[index]? = none) :
      Blocked pool whole id index (.outOfRange whole index fields.length)

theorem Blocked.fieldAt?_eq_none {whole : Path} {index : Nat} {cause : BuildError}
    (blocked : pool.Blocked whole id index cause) : pool.fieldAt? id [index] = none := by
  cases reached : pool.fieldAt? id [index] with
  | none => rfl
  | some field =>
      obtain ⟨fields, next, stored, member, -⟩ :=
        (fieldAt?_cons_iff pool id field index []).mp reached
      have record := (fieldsOf_eq_ok_iff pool id fields).mpr stored
      cases blocked with
      | noRecord missing =>
          rw [record] at missing
          cases missing
      | beyond known outside =>
          rw [record] at known
          cases known
          rw [member] at outside
          cases outside

/-- A walk fails at the first of its steps that cannot be taken. -/
theorem walk_eq_error_iff (pool : Pool) (whole path : Path) (id : TypeId) (cause : BuildError) :
    pool.walk whole id path = .error cause ↔
      ∃ (position index : Nat) (reached : TypeId), path[position]? = some index ∧
        pool.fieldAt? id (path.take position) = some reached ∧
        pool.Blocked whole reached index cause := by
  induction path generalizing id with
  | nil => simp [walk]
  | cons index path ih =>
      constructor
      · intro failed
        unfold walk at failed
        cases record : pool.fieldsOf id with
        | error found =>
            rw [record] at failed
            cases failed
            exact ⟨0, index, id, rfl, rfl, .noRecord record⟩
        | ok fields =>
            cases member : fields[index]? with
            | none =>
                simp only [record, member] at failed
                cases failed
                exact ⟨0, index, id, rfl, rfl, .beyond record member⟩
            | some field =>
                simp only [record, member] at failed
                obtain ⟨position, step, reached, here, stands, blocked⟩ := (ih field).mp failed
                have stored := (fieldsOf_eq_ok_iff pool id fields).mp record
                have further := (fieldAt?_cons_iff pool id reached index _).mpr
                  ⟨fields, field, stored, member, stands⟩
                exact ⟨position + 1, step, reached, here, further, blocked⟩
      · rintro ⟨position, step, reached, here, stands, blocked⟩
        unfold walk
        cases position with
        | zero =>
            cases here
            cases stands
            cases blocked with
            | noRecord missing => rw [missing]
            | beyond record outside => simp only [record, outside]
        | succ position =>
            obtain ⟨fields, field, stored, member, rest⟩ :=
              (fieldAt?_cons_iff pool id reached index _).mp stands
            have record := (fieldsOf_eq_ok_iff pool id fields).mpr stored
            simp only [record, member]
            exact (ih field).mpr ⟨position, step, reached, here, rest, blocked⟩

theorem firstUnresolved_iff {index : Nat} (here : path[position]? = some index)
    (stands : pool.fieldAt? id (path.take position) = some reached) :
    pool.FirstUnresolved id path position ↔ pool.fieldAt? reached [index] = none := by
  have inside : position < path.length := lt_of_stored here
  have steps : path ≠ [] := List.ne_nil_of_length_pos (Nat.zero_lt_of_lt inside)
  have step := fieldAt?_take_succ here stands
  constructor
  · intro first
    rw [← step, Option.eq_none_iff_forall_ne_some]
    intro type found
    exact first.unresolved type ((resolve_take_eq_ok_iff steps position type).mpr found)
  · intro blocked
    refine ⟨inside, ?_, ?_⟩
    · intro type resolved
      rw [resolve_take_eq_ok_iff steps, step, blocked] at resolved
      cases resolved
    · intro earlier before
      obtain ⟨middle, found⟩ := fieldAt?_take_found stands (earlier + 1)
      rw [List.take_take, Nat.min_eq_left before] at found
      exact ⟨middle, (resolve_take_eq_ok_iff steps earlier middle).mpr found⟩

theorem stopsWith_iff {index : Nat} (here : path[position]? = some index)
    (blocked : pool.fieldAt? reached [index] = none) (cause : BuildError) :
    pool.StopsWith path position reached cause ↔ pool.Blocked path reached index cause := by
  unfold StopsWith
  split
  · next fields stored =>
      have record := (fieldsOf_eq_ok_iff pool reached fields).mpr stored
      constructor
      · rintro ⟨step, found, rfl⟩
        rw [here] at found
        cases found
        refine .beyond record ?_
        rw [Option.eq_none_iff_forall_ne_some]
        intro field member
        rw [fieldAt?_singleton stored member] at blocked
        cases blocked
      · intro stops
        cases stops with
        | noRecord missing =>
            rw [record] at missing
            cases missing
        | beyond known outside =>
            rw [record] at known
            cases known
            exact ⟨index, here, rfl⟩
  · next noRecord =>
      constructor
      · rintro ⟨found, shown, rfl⟩
        cases record : pool.fieldsOf reached with
        | ok fields =>
            exact absurd ((fieldsOf_eq_ok_iff pool reached fields).mp record) (noRecord fields)
        | error text =>
            rw [render?_of_fieldsOf_error record] at shown
            cases shown
            exact .noRecord record
      · intro stops
        cases stops with
        | noRecord missing => exact ⟨_, render?_of_fieldsOf_error missing, rfl⟩
        | beyond known outside =>
            exact absurd ((fieldsOf_eq_ok_iff pool reached _).mp known) (noRecord _)

theorem resolve_eq_error_iff (pool : Pool) (id : TypeId) {path : Path} (steps : path ≠ [])
    (cause : BuildError) :
    pool.resolve id path = .error cause ↔
      ∃ (position : Nat) (reached : TypeId), pool.FirstUnresolved id path position ∧
        pool.StandsAt id path position reached ∧ pool.StopsWith path position reached cause := by
  unfold resolve
  rw [if_neg (by simpa using steps), walk_eq_error_iff]
  constructor
  · rintro ⟨position, index, reached, here, stands, blocked⟩
    have stopped := blocked.fieldAt?_eq_none
    exact ⟨position, reached, (firstUnresolved_iff here stands).mpr stopped,
      (standsAt_iff steps position reached).mpr stands,
      (stopsWith_iff here stopped cause).mpr blocked⟩
  · rintro ⟨position, reached, first, standing, stops⟩
    have stands := (standsAt_iff steps position reached).mp standing
    obtain ⟨index, here⟩ := stored_of_lt first.inside
    have stopped := (firstUnresolved_iff here stands).mp first
    exact ⟨position, index, reached, here, stands, (stopsWith_iff here stopped cause).mp stops⟩

/-- In every pool a path of two parts resolves exactly if the first part does and the second
resolves from there. A path that does not resolve fails at the first position that it does not
reach: either no structure stands before it, which the error shows, or the structure there has too
few fields, which it reports with the whole path. -/
theorem paths_resolve_step_by_step (pool : Pool) (id : TypeId) :
    (∀ (outer inner : Path) (type : TypeId), outer ≠ [] → inner ≠ [] →
      (pool.resolve id (outer ++ inner) = .ok type ↔
        ∃ middle, pool.resolve id outer = .ok middle ∧ pool.resolve middle inner = .ok type)) ∧
    ∀ (path : Path) (cause : BuildError), path ≠ [] →
      (pool.resolve id path = .error cause ↔
        ∃ (position : Nat) (reached : TypeId), pool.FirstUnresolved id path position ∧
          pool.StandsAt id path position reached ∧ pool.StopsWith path position reached cause) := by
  constructor
  · intro outer inner type first rest
    exact resolve_append_eq_ok_iff pool id type first rest
  · intro path cause steps
    exact resolve_eq_error_iff pool id steps cause

/-- A structure that contains itself and a type that the pool does not have. The path goes around
twice before it leaves the pool, and then it cannot go on. -/
theorem path_around_cycle_leaves_pool :
    let pool : Pool := ⟨ScalarType.all.map .scalar ++ [.record [4, 9, 20]], []⟩
    let cause : BuildError := .typeMismatch "a structure type" "<unknown type 20>"
    ([1, 1] ≠ [] ∧ [2] ≠ [] ∧ [1, 1, 2, 0] ≠ []) ∧
      (∃ middle, pool.resolve 9 [1, 1] = .ok middle ∧ pool.resolve middle [2] = .ok 20) ∧
      ∃ (position : Nat) (reached : TypeId), pool.FirstUnresolved 9 [1, 1, 2, 0] position ∧
        pool.StandsAt 9 [1, 1, 2, 0] position reached ∧
        pool.StopsWith [1, 1, 2, 0] position reached cause := by
  intro pool cause
  obtain ⟨composes, stops⟩ := paths_resolve_step_by_step pool 9
  have resolved : pool.resolve 9 ([1, 1] ++ [2]) = .ok 20 := rfl
  have failed : pool.resolve 9 [1, 1, 2, 0] = .error cause := rfl
  have steps : [1, 1] ≠ [] ∧ [2] ≠ [] ∧ [1, 1, 2, 0] ≠ [] := by decide
  exact ⟨steps, (composes [1, 1] [2] 20 steps.1 steps.2.1).mp resolved,
    (stops [1, 1, 2, 0] cause steps.2.2).mp failed⟩

end KernelIR.Pool
