import KernelIR.Proofs.Assembly
import KernelIR.Proofs.Reads

/-!
Structures that are made of values and read back. The structure is the newest of its versions, one
for each operand, and each version names the one before it, down to a default. Main statement: a
structure can be made of all values whose types are in the pool; nothing is added but its type, its
default and its versions; and from then on each field is read as the operand itself, and what lies
further inside as it is read from the operand.
-/

set_option autoImplicit false

namespace KernelIR.Builder

variable {builder later : Builder}

/-- Where the newest write of a field is known, the field is read as the value that was written, and
what lies inside of the field as it is read from this value. -/
theorem read_of_written (coherent : builder.graph.Coherent builder.pool) {object value : ValueId}
    {index : Nat} {type field : TypeId} {types : List TypeId}
    (typed : builder.graph.type? object = some type)
    (record : builder.pool.types[type]? = some (.record types))
    (listed : types[index]? = some field)
    (last : builder.graph.LastWrite [index] object (.stored value)) :
    read object [index] builder = .ok value builder ∧
      ∀ rest inner, builder.pool.resolve field rest = .ok inner →
        read object (index :: rest) builder = read value rest builder := by
  constructor
  · have found := (Graph.fieldType_eq_ok_iff builder.graph builder.pool object [index] field).mpr
      ⟨type, typed, List.cons_ne_nil index [], Pool.fieldAt?_singleton record listed⟩
    exact read_of_lastWrite coherent found last
  · intro rest inner resolved
    obtain ⟨more, reached⟩ := (Pool.resolve_eq_ok_iff builder.pool field inner rest).mp resolved
    have behind := (Pool.fieldAt?_cons_iff builder.pool type inner index rest).mpr
      ⟨types, field, record, listed, reached⟩
    have found :=
      (Graph.fieldType_eq_ok_iff builder.graph builder.pool object (index :: rest) inner).mpr
        ⟨type, typed, List.cons_ne_nil index rest, behind⟩
    exact read_of_lastWrite coherent found (last.further more)

/-- A structure can be made of values whose types are in the pool, in every builder that a run from
the empty one reaches. It adds a default and one version for each of the values, and at most the
type, which has the types of the values in their order. Whatever is done afterwards, a read of a
field gives the value that was put there and changes nothing, and a read of what lies further inside
comes to the read of the value itself. -/
theorem structures_read_back {given : Builder → TypeId → Prop} {before : Builder}
    (reached : Reaches given empty before) {operands : List ValueId} {types : List TypeId}
    (some : operands ≠ []) (typed : operands.map before.graph.type? = types.map .some)
    (known : ∀ type ∈ types, type < before.pool.size) :
    ∃ type result after, recordOf operands before = .ok result after ∧
      (after.pool = before.pool ∨ after.pool =
        ⟨before.pool.types ++ [.record types],
          before.pool.interned ++ [(types, before.pool.size)]⟩) ∧
      after.block = before.block ∧
      after.graph =
        { values := before.graph.values ++
            (.null :: fieldWrites before.graph.size 0 operands).map fun kind =>
              ⟨kind, type, before.block⟩
          blocks := before.graph.blocks.modify before.block
            (· ++ List.range' before.graph.size (operands.length + 1))
          params := before.graph.params } ∧
      result = before.graph.size + operands.length ∧
      after.graph.type? result = .some type ∧ after.pool.types[type]? = .some (.record types) ∧
      ∀ later, Reaches given after later →
        ∀ (index : Nat) (operand : ValueId), operands[index]? = .some operand →
          read result [index] later = .ok operand later ∧
          ∀ whole rest field, later.graph.type? operand = .some whole →
            later.pool.resolve whole rest = .ok field →
              ∃ part last, read operand rest later = .ok part last ∧
                read result (index :: rest) later = .ok part last := by
  have tidy := reached.tidy
  let type := (before.pool.intern types).1
  let result := before.graph.size + operands.length
  let after := before.withRecord types operands
  obtain ⟨pool, block, graph⟩ := withRecord_eq before types operands
  obtain ⟨resultTyped, record⟩ := withRecord_typed tidy.placed tidy.wellFormed typed known
  have assembled : Assembled before operands result after :=
    withRecord_assembled tidy.placed tidy.wellFormed typed known
  have ok : recordOf operands before = .ok result after :=
    recordOf_of_typed tidy.placed tidy.wellFormed typed known some
  have promised : (Operation.recordOf operands).Promised given before := trivial
  have made : Reaches given empty after :=
    .operation reached promised (Build.state_of_wrapped_ok ok Result.value)
  refine ⟨type, result, after, ok, ?_, block, graph, rfl, resultTyped, record, ?_⟩
  · rw [pool]
    exact Pool.intern_adds_at_most before.pool types
  · intro later ran index operand listed
    have reachedLater := made.trans ran
    have grown := ran.keeps (grown_kept given)
    obtain ⟨field, fieldListed, operandTyped⟩ := typed_of_types typed listed
    have stillTyped := Graph.type?_of_grown (assembled.grown.trans grown).values operandTyped
    obtain ⟨whole, inside⟩ := read_of_written reachedLater.coherent
      (Graph.type?_of_grown grown.values resultTyped) (stored_of_grown grown.types record)
      fieldListed ((assembled.fields listed).of_grown grown.values)
    refine ⟨whole, ?_⟩
    intro other rest inner otherTyped resolved
    rw [stillTyped] at otherTyped
    cases otherTyped
    obtain ⟨part, last, innerOk, -, -⟩ :=
      read_of_resolved reachedLater.coherent reachedLater.tidy.placed stillTyped resolved
    exact ⟨part, last, innerOk, (inside rest inner resolved).trans innerOk⟩

/-- A pair of a parameter with itself, the parameter, and the pair again. -/
theorem operands_of_triple_are_read_back :
    let before : Builder :=
      ⟨⟨[⟨.parameter 0, 4, 0⟩, ⟨.null, 9, 0⟩, ⟨.write 1 [0] 0, 9, 0⟩, ⟨.write 2 [1] 0, 9, 0⟩],
        [[0, 1, 2, 3]], 1⟩, (Pool.scalars.intern [4, 4]).2, 0⟩
    ∃ after, recordOf [3, 0, 3] before = .ok 7 after ∧ after.graph.size = 8 ∧
      read 7 [0] after = .ok 3 after ∧ read 7 [1] after = .ok 0 after ∧
      ∃ part last, read 3 [1] after = .ok part last ∧ read 7 [2, 1] after = .ok part last := by
  intro before
  let parameter : Operation ValueId := .parameter 4
  let pair : Operation ValueId := .recordOf [0, 0]
  let first : Builder := ⟨⟨[⟨.parameter 0, 4, 0⟩], [[0]], 1⟩, Pool.scalars, 0⟩
  have one : Reaches (fun _ _ => True) empty first :=
    (Reaches.start empty).step parameter trivial rfl
  have reached : Reaches (fun _ _ => True) empty before := one.step pair trivial rfl
  have some : ([3, 0, 3] : List ValueId) ≠ [] := List.cons_ne_nil 3 [0, 3]
  have typed : [3, 0, 3].map before.graph.type? = [9, 4, 9].map .some := rfl
  have known : ∀ type ∈ [9, 4, 9], type < before.pool.size := by decide
  obtain ⟨type, result, after, ok, pool, -, graph, rfl, -, -, reads⟩ :=
    structures_read_back reached some typed known
  have size : after.graph.size = 8 := by
    rw [graph]
    rfl
  have still : Reaches (fun _ _ => True) after after := .start after
  obtain ⟨pairRead, inside⟩ := reads after still 2 3 rfl
  have pairTyped : after.graph.type? 3 = .some 9 := by
    rw [graph]
    rfl
  have resolved : before.pool.resolve 9 [1] = .ok 4 := rfl
  have grown : before.pool.types <+: after.pool.types := by
    rcases pool with same | added
    · exact congrArg Pool.types same ▸ List.prefix_rfl
    · rw [added]
      exact List.prefix_append _ _
  exact ⟨after, ok, size, (reads after still 0 3 rfl).1, (reads after still 1 0 rfl).1,
    inside 9 [1] 4 pairTyped (Pool.resolve_of_grown grown resolved)⟩

end KernelIR.Builder
