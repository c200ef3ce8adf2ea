import KernelIR.Proofs.Validity

/-!
The check of validity on graphs from elsewhere, where operands, blocks and types may name nothing
and types may contain themselves. Main statement: an inspection that looks values and blocks up
without asking whether they are there gives the problems of the check and never a fault, since each
look-up is behind a rule that was found to hold; there is no problem exactly if all values keep all
rules; and each problem is one that the graph has, at the value which it names.
-/

set_option autoImplicit false

namespace KernelIR

namespace Graph

def allKnown (graph : Graph) (pool : Pool) : List ValueId → Except Fault Bool
  | [] => return true
  | id :: ids => do
      let type ← graph.typeOf id
      if pool.contains type then allKnown graph pool ids else return false

def inspectTypes (graph : Graph) (pool : Pool) (id : ValueId) : Except Fault (List Problem) := do
  let value ← graph.find id
  let known ← graph.allKnown pool (id :: value.kind.operands)
  if known then
    match value.kind with
    | .null | .parameter _ => return []
    | .constant constant => return expectType id constant.type.id value.type
    | .write object path stored => do
        let whole ← graph.typeOf object
        match pool.resolve whole path with
        | .ok field => do
            let part ← graph.typeOf stored
            return expectType id whole value.type ++ expectType id field part
        | .error cause => return expectType id whole value.type ++ [.invalidAccess id cause]
    | .read object path => do
        let whole ← graph.typeOf object
        match pool.resolve whole path with
        | .ok field => return expectType id field value.type
        | .error cause => return [.invalidAccess id cause]
  else return [.unknownType id]

def inspectBlock (graph : Graph) (id : ValueId) (block : BlockId) : Except Fault (List Problem) :=
  if block < graph.blocks.length then do
    let ids ← graph.members block
    return if id ∈ ids then [] else [.notInBlock id]
  else return [.unknownBlock id]

def inspectValue (graph : Graph) (pool : Pool) (id : ValueId) (value : Value) :
    Except Fault (List Problem) := do
  let forward := operandProblems id value.kind
  let placed ← graph.inspectBlock id value.block
  let typed ← if forward.isEmpty then graph.inspectTypes pool id else pure []
  return forward ++ placed ++ typed

/-- The check with look-ups that end in a fault where nothing is found. -/
def inspect (graph : Graph) (pool : Pool) : Except Fault (List Problem) := do
  let problems ← graph.values.zipIdx.mapM fun (value, id) => graph.inspectValue pool id value
  return problems.flatten

section Inspection

variable {graph : Graph} {pool : Pool} {id : ValueId} {value : Value}

theorem type?_of_stored (stored : graph.values[id]? = some value) :
    graph.type? id = some value.type :=
  (type?_eq_some_iff graph id value.type).mpr ⟨value, stored, rfl⟩

theorem type?_of_lt (inside : id < graph.size) : ∃ type, graph.type? id = some type := by
  obtain ⟨value, stored⟩ := stored_of_lt inside
  exact ⟨value.type, type?_of_stored stored⟩

theorem allKnown_cons {type : TypeId} (typed : graph.type? id = some type) (ids : List ValueId) :
    graph.allKnown pool (id :: ids) =
      if pool.contains type then graph.allKnown pool ids else .ok false := by
  rw [allKnown, typeOf_of_typed typed]
  rfl

theorem knownTypes?_cons {type : TypeId} (typed : graph.type? id = some type)
    (ids : List ValueId) :
    graph.knownTypes? pool (id :: ids) =
      if pool.contains type then (graph.knownTypes? pool ids).map (type :: ·) else none := by
  obtain ⟨value, stored, rfl⟩ := (type?_eq_some_iff graph id type).mp typed
  rw [knownTypes?, List.mapM_cons, stored, ← knownTypes?]
  by_cases known : pool.contains value.type
  · simp only [known, if_true, Option.bind_eq_bind, Option.bind_some]
    cases graph.knownTypes? pool ids <;> rfl
  · simp only [known, Bool.false_eq_true, if_false, Option.bind_eq_bind, Option.bind_none]

theorem allKnown_eq {ids : List ValueId} (inside : ∀ id ∈ ids, id < graph.size) :
    graph.allKnown pool ids = .ok (graph.knownTypes? pool ids).isSome := by
  induction ids with
  | nil => rfl
  | cons id ids ih =>
      obtain ⟨type, typed⟩ := type?_of_lt (inside id List.mem_cons_self)
      have rest := ih fun other member => inside other (List.mem_cons_of_mem _ member)
      rw [allKnown_cons typed, knownTypes?_cons typed, rest]
      split
      · rw [Option.isSome_map]
      · rfl

theorem inspectBlock_eq (id : ValueId) (block : BlockId) :
    graph.inspectBlock id block = .ok (graph.blockProblems id block) := by
  unfold inspectBlock blockProblems members
  by_cases inside : block < graph.blocks.length
  · obtain ⟨ids, found⟩ := stored_of_lt inside
    rw [if_pos inside, found]
    rfl
  · rw [if_neg inside, List.getElem?_eq_none (Nat.le_of_not_lt inside)]
    rfl

/-- Operands older than their user are in the graph, so their types can be looked up. -/
theorem inspectTypes_eq (stored : graph.values[id]? = some value)
    (older : ∀ operand ∈ value.kind.operands, operand < id) :
    graph.inspectTypes pool id = .ok (graph.typeProblems pool id value) := by
  have inside : ∀ operand ∈ value.kind.operands, operand < graph.size := fun operand used =>
    Nat.lt_trans (older operand used) (lt_of_stored stored)
  have found : graph.find id = .ok value := by
    unfold find
    rw [stored]
  unfold inspectTypes typeProblems
  rw [found]
  change (graph.allKnown pool (id :: value.kind.operands) >>= _) = _
  rw [allKnown_cons (type?_of_stored stored), allKnown_eq inside]
  by_cases own : pool.contains value.type
  · rw [if_pos own, if_pos own]
    cases known : graph.knownTypes? pool value.kind.operands with
    | none => cases value.kind <;> rfl
    | some types =>
        generalize value.kind = kind at known ⊢
        cases kind with
        | null => rfl
        | parameter index => rfl
        | constant constant => rfl
        | write object path part =>
            obtain ⟨whole, rest, rfl, objectType, -, others⟩ :=
              (knownTypes?_cons_iff graph pool object [part] types).mp known
            obtain ⟨type, rfl, partType, -⟩ :=
              (knownTypes?_singleton_iff graph pool part rest).mp others
            simp only [Option.isSome_some, typeOf_of_typed objectType, typeOf_of_typed partType,
              bind, Except.bind, if_true, accessProblems]
            cases pool.resolve whole path <;> rfl
        | read object path =>
            obtain ⟨whole, rfl, objectType, -⟩ :=
              (knownTypes?_singleton_iff graph pool object types).mp known
            simp only [Option.isSome_some, typeOf_of_typed objectType, bind, Except.bind, if_true,
              accessProblems]
            cases pool.resolve whole path <;> rfl
  · rw [if_neg own, if_neg own]
    rfl

theorem inspectValue_eq (stored : graph.values[id]? = some value) :
    graph.inspectValue pool id value = .ok (graph.valueProblems pool id value) := by
  unfold inspectValue valueProblems
  rw [inspectBlock_eq]
  by_cases forward : operandProblems id value.kind = []
  · have older := (operandProblems_eq_nil_iff id value.kind).mp forward
    rw [forward, inspectTypes_eq stored older]
    rfl
  · have reported : (operandProblems id value.kind).isEmpty = false := by
      simpa using forward
    simp only [reported]
    rfl

theorem inspect_eq (graph : Graph) (pool : Pool) :
    graph.inspect pool = .ok (graph.verify pool) := by
  have each : ∀ entry ∈ graph.values.zipIdx,
      graph.inspectValue pool entry.2 entry.1 = .ok (graph.valueProblems pool entry.2 entry.1) :=
    fun entry member => inspectValue_eq (List.mk_mem_zipIdx_iff_getElem?.mp member)
  have all : graph.values.zipIdx.mapM (fun (value, id) => graph.inspectValue pool id value) =
      .ok (graph.values.zipIdx.map fun (value, id) => graph.valueProblems pool id value) :=
    mapM_eq_ok_map each
  unfold inspect verify
  rw [all, List.flatMap_def]
  rfl

end Inspection

end Graph

def ValueKind.access? : ValueKind → Option (ValueId × Path)
  | .write object path _ => some (object, path)
  | .read object path => some (object, path)
  | _ => none

namespace Graph

/-- What the value computes calls for the type `expected` where there is the type `found`. -/
inductive Requires (graph : Graph) (pool : Pool) : Value → TypeId → TypeId → Prop
  | constant {constant : Constant} {type : TypeId} {block : BlockId} :
      Requires graph pool ⟨.constant constant, type, block⟩ constant.type.id type
  | version {object stored : ValueId} {path : Path} {type whole : TypeId} {block : BlockId}
      (objectType : graph.type? object = some whole) :
      Requires graph pool ⟨.write object path stored, type, block⟩ whole type
  | stored {object stored : ValueId} {path : Path} {type whole field part : TypeId}
      {block : BlockId} (objectType : graph.type? object = some whole)
      (partType : graph.type? stored = some part) (resolved : pool.resolve whole path = .ok field) :
      Requires graph pool ⟨.write object path stored, type, block⟩ field part
  | read {object : ValueId} {path : Path} {type whole field : TypeId} {block : BlockId}
      (objectType : graph.type? object = some whole)
      (resolved : pool.resolve whole path = .ok field) :
      Requires graph pool ⟨.read object path, type, block⟩ field type

/-- The graph has the problem, at the value that the problem names. -/
def Has (graph : Graph) (pool : Pool) : Problem → Prop
  | .forwardOperand id operand =>
      ∃ value, graph.values[id]? = some value ∧ operand ∈ value.kind.operands ∧ id ≤ operand
  | .unknownBlock id =>
      ∃ value, graph.values[id]? = some value ∧ graph.blocks.length ≤ value.block
  | .notInBlock id =>
      ∃ value ids, graph.values[id]? = some value ∧ graph.blocks[value.block]? = some ids ∧ id ∉ ids
  | .unknownType id =>
      ∃ value type, graph.values[id]? = some value ∧ pool.size ≤ type ∧
        (type = value.type ∨ ∃ operand ∈ value.kind.operands, graph.type? operand = some type)
  | .invalidAccess id cause =>
      ∃ value object path whole, graph.values[id]? = some value ∧
        value.kind.access? = some (object, path) ∧ graph.type? object = some whole ∧
        pool.resolve whole path = .error cause
  | .typeMismatch id expected found =>
      ∃ value, graph.values[id]? = some value ∧ graph.Requires pool value expected found ∧
        expected ≠ found

section Reports

variable {graph : Graph} {pool : Pool} {id : ValueId} {value : Value} {problem : Problem}

theorem has_of_operandProblems (stored : graph.values[id]? = some value)
    (reported : problem ∈ operandProblems id value.kind) : graph.Has pool problem := by
  obtain ⟨operand, member, rfl⟩ := List.mem_map.mp reported
  obtain ⟨used, late⟩ := List.mem_filter.mp member
  exact ⟨value, stored, used, of_decide_eq_true late⟩

theorem has_of_blockProblems (stored : graph.values[id]? = some value)
    (reported : problem ∈ graph.blockProblems id value.block) : graph.Has pool problem := by
  unfold blockProblems at reported
  cases found : graph.blocks[value.block]? with
  | none =>
      rw [found] at reported
      cases List.mem_singleton.mp reported
      exact ⟨value, stored, List.getElem?_eq_none_iff.mp found⟩
  | some ids =>
      simp only [found] at reported
      split at reported
      · cases reported
      · next unlisted =>
          cases List.mem_singleton.mp reported
          exact ⟨value, ids, stored, found, unlisted⟩

theorem has_of_expectType {expected found : TypeId} (stored : graph.values[id]? = some value)
    (required : graph.Requires pool value expected found)
    (reported : problem ∈ expectType id expected found) : graph.Has pool problem := by
  unfold expectType at reported
  split at reported
  · cases reported
  · next different =>
      cases List.mem_singleton.mp reported
      exact ⟨value, stored, required, different⟩

theorem has_of_accessProblems {object : ValueId} {path : Path} {whole : TypeId}
    {found : TypeId → List Problem} (stored : graph.values[id]? = some value)
    (access : value.kind.access? = some (object, path))
    (objectType : graph.type? object = some whole)
    (field : ∀ type, pool.resolve whole path = .ok type → problem ∈ found type →
      graph.Has pool problem)
    (reported : problem ∈ accessProblems pool id whole path found) : graph.Has pool problem := by
  unfold accessProblems at reported
  cases resolved : pool.resolve whole path with
  | ok type =>
      rw [resolved] at reported
      exact field type resolved reported
  | error cause =>
      rw [resolved] at reported
      cases List.mem_singleton.mp reported
      exact ⟨value, object, path, whole, stored, access, objectType, resolved⟩

/-- If the operands are in the graph but not all of their types known, one of them is of a type
outside the pool. -/
theorem unknown_operand {operands : List ValueId}
    (inside : ∀ operand ∈ operands, operand < graph.size)
    (unknown : graph.knownTypes? pool operands = none) :
    ∃ operand ∈ operands, ∃ type, graph.type? operand = some type ∧ pool.size ≤ type := by
  by_contra none
  have known : ∀ operand ∈ operands, ∃ type, graph.type? operand = some type ∧
      type < pool.size := by
    intro operand used
    obtain ⟨type, typed⟩ := type?_of_lt (inside operand used)
    refine ⟨type, typed, ?_⟩
    by_contra outside
    exact none ⟨operand, used, type, typed, Nat.le_of_not_lt outside⟩
  obtain ⟨types, found⟩ := (knownTypes?_isSome_iff graph pool operands).mpr known
  rw [unknown] at found
  cases found

theorem has_of_typeProblems (stored : graph.values[id]? = some value)
    (older : ∀ operand ∈ value.kind.operands, operand < id)
    (reported : problem ∈ graph.typeProblems pool id value) : graph.Has pool problem := by
  have inside : ∀ operand ∈ value.kind.operands, operand < graph.size := fun operand used =>
    Nat.lt_trans (older operand used) (lt_of_stored stored)
  unfold typeProblems at reported
  by_cases own : pool.contains value.type
  · rw [if_pos own] at reported
    cases known : graph.knownTypes? pool value.kind.operands with
    | none =>
        obtain ⟨operand, used, type, typed, outside⟩ := unknown_operand inside known
        have only : problem = .unknownType id := by
          rw [known] at reported
          cases made : value.kind <;> rw [made] at reported <;> exact List.mem_singleton.mp reported
        subst only
        exact ⟨value, type, stored, outside, .inr ⟨operand, used, typed⟩⟩
    | some types =>
        rw [known] at reported
        obtain ⟨kind, type, block⟩ := value
        cases kind with
        | null => cases reported
        | parameter index => cases reported
        | constant constant => exact has_of_expectType stored .constant reported
        | write object path part =>
            obtain ⟨whole, rest, rfl, objectType, -, others⟩ :=
              (knownTypes?_cons_iff graph pool object [part] types).mp known
            obtain ⟨partType, rfl, partTyped, -⟩ :=
              (knownTypes?_singleton_iff graph pool part rest).mp others
            rcases List.mem_append.mp reported with version | access
            · exact has_of_expectType stored (.version objectType) version
            · apply has_of_accessProblems stored rfl objectType _ access
              intro field resolved mismatch
              exact has_of_expectType stored (.stored objectType partTyped resolved) mismatch
        | read object path =>
            obtain ⟨whole, rfl, objectType, -⟩ :=
              (knownTypes?_singleton_iff graph pool object types).mp known
            apply has_of_accessProblems stored rfl objectType _ reported
            intro field resolved mismatch
            exact has_of_expectType stored (.read objectType resolved) mismatch
  · rw [if_neg own] at reported
    cases List.mem_singleton.mp reported
    have outside : pool.size ≤ value.type := by
      simpa [Pool.contains] using own
    exact ⟨value, value.type, stored, outside, .inl rfl⟩

theorem has_of_verify (reported : problem ∈ graph.verify pool) : graph.Has pool problem := by
  obtain ⟨⟨value, id⟩, member, found⟩ := List.mem_flatMap.mp reported
  have stored := List.mk_mem_zipIdx_iff_getElem?.mp member
  unfold valueProblems at found
  rcases List.mem_append.mp found with early | types
  · rcases List.mem_append.mp early with forward | block
    · exact has_of_operandProblems stored forward
    · exact has_of_blockProblems stored block
  · split at types
    · next backwards =>
        have older := (operandProblems_eq_nil_iff id value.kind).mp (List.isEmpty_iff.mp backwards)
        exact has_of_typeProblems stored older types
    · cases types

end Reports

/-- On every graph and pool the check looks up only what is there; it finds no problem exactly if
every value is lawful and its operands are of types of the pool; and a problem that it reports is
one that the graph has. -/
theorem check_decides_validity (graph : Graph) (pool : Pool) :
    graph.inspect pool = .ok (graph.verify pool) ∧
      (graph.verify pool = [] ↔ ∀ (id : ValueId) (value : Value), graph.values[id]? = some value →
        graph.Lawful pool id value ∧ ∀ operand ∈ value.kind.operands,
          ∃ type, graph.type? operand = some type ∧ type < pool.size) ∧
      ∀ problem ∈ graph.verify pool, graph.Has pool problem := by
  refine ⟨inspect_eq graph pool, ?_, fun problem reported => has_of_verify reported⟩
  unfold verify
  rw [List.flatMap_eq_nil_iff]
  constructor
  · intro clean id value stored
    have noProblem := clean (value, id) (List.mk_mem_zipIdx_iff_getElem?.mpr stored)
    exact (valueProblems_eq_nil_iff graph pool id value).mp noProblem
  · rintro lawful ⟨value, id⟩ member
    have stored := List.mk_mem_zipIdx_iff_getElem?.mp member
    exact (valueProblems_eq_nil_iff graph pool id value).mpr (lawful id value stored)

/-- Reads of a type that contains itself: one through the cycle, which is fine, one past its only
field, in a block that is not there, and one of a value that does not exist yet. -/
theorem problems_of_cyclic_reads :
    let pool : Pool := ⟨Pool.scalars.types ++ [.record [9]], []⟩
    let graph : Graph := ⟨[⟨.null, 9, 0⟩, ⟨.read 0 [0, 0], 9, 0⟩, ⟨.read 1 [0, 1], 9, 5⟩,
      ⟨.read 7 [0], 40, 0⟩], [[1, 0, 3]], 0⟩
    let access : Problem := .invalidAccess 2 (.outOfRange [0, 1] 1 1)
    graph.inspect pool = .ok [.unknownBlock 2, access, .forwardOperand 3 7] ∧
      access ∈ graph.verify pool ∧ graph.Has pool access := by
  intro pool graph access
  have problems : graph.verify pool = [.unknownBlock 2, access, .forwardOperand 3 7] := by decide
  have reported : access ∈ graph.verify pool := by
    rw [problems]
    exact List.mem_cons_of_mem _ List.mem_cons_self
  have decided := check_decides_validity graph pool
  exact ⟨problems ▸ decided.1, reported, decided.2.2 access reported⟩

end Graph

end KernelIR
