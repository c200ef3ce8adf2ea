import KernelIR.Graph.Validity
import KernelIR.Proofs.Types

/-!
Valid graphs. The rules that the check of validity reports on are stated one value at a time, and a
graph without a problem is one whose values keep all of them. A graph stays valid when blocks or
types are added, and when a value is appended that keeps the rules itself.
-/

set_option autoImplicit false

namespace KernelIR.Graph

def type? (graph : Graph) (id : ValueId) : Option TypeId := graph.values[id]?.map Value.type

theorem type?_eq_some_iff (graph : Graph) (id : ValueId) (type : TypeId) :
    graph.type? id = some type ↔ ∃ value, graph.values[id]? = some value ∧ value.type = type :=
  Option.map_eq_some_iff

theorem lt_of_type? {graph : Graph} {id : ValueId} {type : TypeId}
    (typed : graph.type? id = some type) : id < graph.size := by
  obtain ⟨value, stored, -⟩ := (type?_eq_some_iff graph id type).mp typed
  exact lt_of_stored stored

theorem typeOf_eq_ok_iff (graph : Graph) (id : ValueId) (type : TypeId) :
    graph.typeOf id = .ok type ↔ graph.type? id = some type := by
  unfold typeOf find type?
  cases graph.values[id]? with
  | none => simp [bind, Except.bind]
  | some value => simp [bind, Except.bind, pure, Except.pure]

theorem typeOf_of_typed {graph : Graph} {id : ValueId} {type : TypeId}
    (typed : graph.type? id = some type) : graph.typeOf id = .ok type :=
  (typeOf_eq_ok_iff graph id type).mpr typed

/-- What a value computes agrees with its type and with the types of its operands. -/
def Typed (graph : Graph) (pool : Pool) (kind : ValueKind) (type : TypeId) : Prop :=
  match kind with
  | .null | .parameter _ => True
  | .constant constant => type = constant.type.id
  | .write object path stored =>
      graph.type? object = some type ∧
        ∃ field, graph.type? stored = some field ∧ pool.resolve type path = .ok field
  | .read object path =>
      ∃ whole, graph.type? object = some whole ∧ pool.resolve whole path = .ok type

structure Lawful (graph : Graph) (pool : Pool) (id : ValueId) (value : Value) : Prop where
  older : ∀ operand ∈ value.kind.operands, operand < id
  listed : ∃ ids, graph.blocks[value.block]? = some ids ∧ id ∈ ids
  known : value.type < pool.size
  typed : graph.Typed pool value.kind value.type

def Valid (graph : Graph) (pool : Pool) : Prop :=
  ∀ (id : ValueId) (value : Value), graph.values[id]? = some value → graph.Lawful pool id value

section Problems

variable (graph : Graph) (pool : Pool) (id : ValueId)

theorem operandProblems_eq_nil_iff (kind : ValueKind) :
    operandProblems id kind = [] ↔ ∀ operand ∈ kind.operands, operand < id := by
  simp [operandProblems, List.filter_eq_nil_iff]

theorem blockProblems_eq_nil_iff (block : BlockId) :
    graph.blockProblems id block = [] ↔ ∃ ids, graph.blocks[block]? = some ids ∧ id ∈ ids := by
  unfold blockProblems
  cases graph.blocks[block]? with
  | none => simp
  | some ids => simp

theorem expectType_eq_nil_iff (expected found : TypeId) :
    expectType id expected found = [] ↔ expected = found := by
  simp [expectType]

theorem accessProblems_eq_nil_iff (object : TypeId) (path : Path)
    (found : TypeId → List Problem) :
    accessProblems pool id object path found = [] ↔
      ∃ field, pool.resolve object path = .ok field ∧ found field = [] := by
  unfold accessProblems
  cases pool.resolve object path with
  | error cause => simp
  | ok field => simp

theorem knownTypes?_cons_iff (operand : ValueId) (operands : List ValueId) (types : List TypeId) :
    graph.knownTypes? pool (operand :: operands) = some types ↔
      ∃ type rest, types = type :: rest ∧ graph.type? operand = some type ∧ type < pool.size ∧
        graph.knownTypes? pool operands = some rest := by
  unfold knownTypes? type?
  rw [List.mapM_cons]
  simp only [Option.bind_eq_bind, Option.bind_eq_some_iff, Option.pure_def, Option.some.injEq]
  cases graph.values[operand]? with
  | none => simp
  | some value =>
      by_cases known : value.type < pool.size
      · simp only [Pool.contains, known, decide_true, if_true, Option.some.injEq, Option.map_some]
        constructor
        · rintro ⟨type, rfl, rest, found, rfl⟩
          exact ⟨value.type, rest, rfl, rfl, known, found⟩
        · rintro ⟨type, rest, rfl, rfl, -, found⟩
          exact ⟨value.type, rfl, rest, found, rfl⟩
      · simp only [Pool.contains, known, decide_false, Bool.false_eq_true, if_false, reduceCtorEq,
          false_and, exists_false, Option.map_some, Option.some.injEq, false_iff]
        rintro ⟨type, rest, -, rfl, small, -⟩
        exact known small

theorem knownTypes?_singleton_iff (operand : ValueId) (types : List TypeId) :
    graph.knownTypes? pool [operand] = some types ↔
      ∃ type, types = [type] ∧ graph.type? operand = some type ∧ type < pool.size := by
  rw [knownTypes?_cons_iff]
  constructor
  · intro ⟨type, rest, same, stored, small, nothing⟩
    cases nothing
    exact ⟨type, same, stored, small⟩
  · intro ⟨type, same, stored, small⟩
    exact ⟨type, [], same, stored, small, rfl⟩

theorem knownTypes?_isSome_iff (operands : List ValueId) :
    (∃ types, graph.knownTypes? pool operands = some types) ↔
      ∀ operand ∈ operands, ∃ type, graph.type? operand = some type ∧ type < pool.size := by
  induction operands with
  | nil => simp [knownTypes?]
  | cons operand operands ih =>
      simp only [knownTypes?_cons_iff, List.forall_mem_cons, ← ih]
      constructor
      · rintro ⟨-, type, rest, -, stored, small, found⟩
        exact ⟨⟨type, stored, small⟩, rest, found⟩
      · rintro ⟨⟨type, stored, small⟩, rest, found⟩
        exact ⟨type :: rest, type, rest, rfl, stored, small, found⟩

theorem typeProblems_eq_nil_iff (value : Value) :
    graph.typeProblems pool id value = [] ↔
      value.type < pool.size ∧
        (∀ operand ∈ value.kind.operands,
          ∃ type, graph.type? operand = some type ∧ type < pool.size) ∧
        graph.Typed pool value.kind value.type := by
  rw [← knownTypes?_isSome_iff]
  unfold typeProblems
  by_cases known : value.type < pool.size
  · rw [if_pos (by simpa [Pool.contains] using known)]
    cases found : graph.knownTypes? pool value.kind.operands with
    | none => cases value.kind <;> simp
    | some types =>
        simp only [known, true_and, Option.some.injEq, exists_eq', Typed]
        generalize value.kind = kind at found ⊢
        cases kind with
        | null => simp
        | parameter index => simp
        | constant constant => exact (expectType_eq_nil_iff id _ _).trans eq_comm
        | write object path stored =>
            obtain ⟨whole, rest, rfl, objectType, -, others⟩ :=
              (knownTypes?_cons_iff graph pool object [stored] types).mp found
            obtain ⟨part, rfl, storedType, -⟩ :=
              (knownTypes?_singleton_iff graph pool stored rest).mp others
            simp only [List.append_eq_nil_iff, expectType_eq_nil_iff, accessProblems_eq_nil_iff,
              objectType, storedType, Option.some.injEq]
            constructor
            · rintro ⟨rfl, field, resolved, rfl⟩
              exact ⟨rfl, field, rfl, resolved⟩
            · rintro ⟨rfl, field, rfl, resolved⟩
              exact ⟨rfl, part, resolved, rfl⟩
        | read object path =>
            obtain ⟨whole, rfl, objectType, -⟩ :=
              (knownTypes?_singleton_iff graph pool object types).mp found
            simp only [accessProblems_eq_nil_iff, expectType_eq_nil_iff, objectType,
              Option.some.injEq, exists_eq_left', exists_eq_right]
  · rw [if_neg (by simpa [Pool.contains] using known)]
    simp [known]

theorem valueProblems_eq_nil_iff (value : Value) :
    graph.valueProblems pool id value = [] ↔
      graph.Lawful pool id value ∧
        ∀ operand ∈ value.kind.operands,
          ∃ type, graph.type? operand = some type ∧ type < pool.size := by
  unfold valueProblems
  simp only [List.append_eq_nil_iff, operandProblems_eq_nil_iff, blockProblems_eq_nil_iff]
  constructor
  · rintro ⟨⟨older, listed⟩, types⟩
    rw [(operandProblems_eq_nil_iff id value.kind).mpr older, List.isEmpty_nil, if_pos rfl,
      typeProblems_eq_nil_iff] at types
    exact ⟨⟨older, listed, types.1, types.2.2⟩, types.2.1⟩
  · rintro ⟨lawful, operands⟩
    refine ⟨⟨lawful.older, lawful.listed⟩, ?_⟩
    rw [(operandProblems_eq_nil_iff id value.kind).mpr lawful.older, List.isEmpty_nil, if_pos rfl,
      typeProblems_eq_nil_iff]
    exact ⟨lawful.known, operands, lawful.typed⟩

end Problems

variable {graph : Graph} {pool : Pool}

theorem Valid.known_of_type? (valid : graph.Valid pool) {id : ValueId} {type : TypeId}
    (typed : graph.type? id = some type) : type < pool.size := by
  obtain ⟨value, stored, rfl⟩ := (type?_eq_some_iff graph id type).mp typed
  exact (valid id value stored).known

theorem verify_eq_nil_iff (graph : Graph) (pool : Pool) :
    graph.verify pool = [] ↔ graph.Valid pool := by
  unfold verify
  rw [List.flatMap_eq_nil_iff]
  constructor
  · intro clean id value stored
    have noProblem := clean (value, id) (List.mk_mem_zipIdx_iff_getElem?.mpr stored)
    exact ((valueProblems_eq_nil_iff graph pool id value).mp noProblem).1
  · rintro valid ⟨value, id⟩ member
    have stored := List.mk_mem_zipIdx_iff_getElem?.mp member
    have lawful := valid id value stored
    refine (valueProblems_eq_nil_iff graph pool id value).mpr ⟨lawful, ?_⟩
    intro operand used
    have inside := Nat.lt_trans (lawful.older operand used) (lt_of_stored stored)
    obtain ⟨older, olderStored⟩ := stored_of_lt inside
    exact ⟨older.type, (type?_eq_some_iff graph operand _).mpr ⟨older, olderStored, rfl⟩,
      (valid operand older olderStored).known⟩

theorem type?_of_grown {later : Graph} (grown : graph.values <+: later.values) {id : ValueId}
    {type : TypeId} (found : graph.type? id = some type) : later.type? id = some type := by
  obtain ⟨value, stored, same⟩ := (type?_eq_some_iff graph id type).mp found
  exact (type?_eq_some_iff later id type).mpr ⟨value, stored_of_grown grown stored, same⟩

/-- Typing looks at operands and at the types that paths lead to, and these stay what they are. -/
theorem Typed.of_grown {later : Graph} {laterPool : Pool} (grown : graph.values <+: later.values)
    (types : pool.types <+: laterPool.types) {kind : ValueKind} {type : TypeId}
    (typed : graph.Typed pool kind type) : later.Typed laterPool kind type := by
  cases kind with
  | null => trivial
  | parameter index => trivial
  | constant constant => exact typed
  | write object path stored =>
      obtain ⟨whole, field, part, found⟩ := typed
      exact ⟨type?_of_grown grown whole, field, type?_of_grown grown part,
        Pool.resolve_of_grown types found⟩
  | read object path =>
      obtain ⟨whole, found, reached⟩ := typed
      exact ⟨whole, type?_of_grown grown found, Pool.resolve_of_grown types reached⟩

theorem Lawful.of_grown {later : Graph} {laterPool : Pool} (grown : graph.values <+: later.values)
    (types : pool.types <+: laterPool.types) {id : ValueId} {value : Value}
    (lawful : graph.Lawful pool id value)
    (listed : ∃ ids, later.blocks[value.block]? = some ids ∧ id ∈ ids) :
    later.Lawful laterPool id value where
  older := lawful.older
  listed := listed
  known := Nat.lt_of_lt_of_le lawful.known types.length_le
  typed := lawful.typed.of_grown grown types

/-- What a value that is appended has to satisfy. -/
structure Fits (graph : Graph) (pool : Pool) (kind : ValueKind) (type : TypeId) : Prop where
  older : ∀ operand ∈ kind.operands, operand < graph.size
  known : type < pool.size
  typed : graph.Typed pool kind type

theorem append_blocks (graph : Graph) (kind : ValueKind) (type : TypeId) (block place : BlockId) :
    (graph.append kind type place).blocks[block]? =
      (graph.blocks[block]?).map fun ids => if place = block then ids ++ [graph.size] else ids := by
  unfold append
  rw [List.getElem?_modify]
  rfl

theorem Valid.append (valid : graph.Valid pool) {kind : ValueKind} {type : TypeId} {block : BlockId}
    (fits : graph.Fits pool kind type) (placed : block < graph.blocks.length) :
    (graph.append kind type block).Valid pool := by
  have grown : graph.values <+: (graph.append kind type block).values := List.prefix_append _ _
  intro id value stored
  rcases (stored_snoc_iff graph.values _ id value).mp stored with old | ⟨rfl, rfl⟩
  · have lawful := valid id value old
    obtain ⟨ids, found, member⟩ := lawful.listed
    refine lawful.of_grown grown List.prefix_rfl ?_
    rw [append_blocks, found]
    refine ⟨_, rfl, ?_⟩
    split
    · exact List.mem_append_left _ member
    · exact member
  · obtain ⟨ids, found⟩ := stored_of_lt placed
    refine ⟨fits.older, ⟨ids ++ [graph.size], ?_, ?_⟩, fits.known,
      fits.typed.of_grown grown List.prefix_rfl⟩
    · rw [append_blocks, found, Option.map_some, if_pos rfl]
    · exact List.mem_append_right _ (List.mem_singleton_self _)

end KernelIR.Graph
