import KernelIR.Proofs.Atomicity

/-!
What a read does to a valid graph. The versions of an object are listed from the newest write back
to the value that was not written, and the first write in the list that is not apart from a path
decides how the path is read; the writes before it make no difference, however many they are. A
field that the type has can always be read: the search ends, its answer is of the type of the field,
and at most the answer itself is added to the graph.
-/

set_option autoImplicit false

namespace KernelIR

namespace Graph

variable {graph : Graph} {pool : Pool}

structure FieldWrite where
  path : Path
  value : ValueId
deriving DecidableEq

/-- The writes that made an object, newest first, and the kind of the value that they began with. -/
inductive History (graph : Graph) : ValueId → List FieldWrite → ValueKind → Prop
  | origin {id : ValueId} {kind : ValueKind} (made : graph.kind? id = some kind)
      (unwritten : ∀ object path value, kind ≠ .write object path value) :
      History graph id [] kind
  | version {id object value : ValueId} {path : Path} {writes : List FieldWrite} {kind : ValueKind}
      (made : graph.kind? id = some (.write object path value))
      (before : History graph object writes kind) :
      History graph id (⟨path, value⟩ :: writes) kind

theorem kind?_of_lt {id : ValueId} (inside : id < graph.size) :
    ∃ kind, graph.kind? id = some kind := by
  obtain ⟨value, stored⟩ := stored_of_lt inside
  exact ⟨value.kind, congrArg (Option.map Value.kind) stored⟩

theorem Backward.history_found (backward : graph.Backward) (id : ValueId)
    (inside : id < graph.size) : ∃ writes kind, graph.History id writes kind := by
  induction id using Nat.strongRecOn with
  | ind id ih =>
      obtain ⟨kind, made⟩ := kind?_of_lt inside
      cases kind with
      | write object path value =>
          have older := backward id _ made object List.mem_cons_self
          obtain ⟨writes, kind, before⟩ := ih object older (Nat.lt_trans older inside)
          exact ⟨⟨path, value⟩ :: writes, kind, .version made before⟩
      | _ => exact ⟨[], _, .origin made (by simp)⟩

/-- Behind writes that are all apart from a path, an object has the same last write of it as the
version before them. -/
theorem History.behind {path : Path} {id : ValueId} {newer older : List FieldWrite}
    {kind : ValueKind} (history : graph.History id (newer ++ older) kind)
    (apart : ∀ write ∈ newer, write.path.Apart path) :
    ∃ object, graph.History object older kind ∧
      ∀ version, graph.LastWrite path object version → graph.LastWrite path id version := by
  induction newer generalizing id with
  | nil => exact ⟨id, history, fun version last => last⟩
  | cons write newer ih =>
      rw [List.forall_mem_cons] at apart
      cases history with
      | version made before =>
          obtain ⟨object, rest, seen⟩ := ih before apart.2
          refine ⟨object, rest, fun version last => ?_⟩
          exact .elsewhere made apart.1 (seen version last)

theorem History.head_made {id : ValueId} {write : FieldWrite} {older : List FieldWrite}
    {kind : ValueKind} (history : graph.History id (write :: older) kind) :
    ∃ object, graph.kind? id = some (.write object write.path write.value) := by
  cases history with
  | version made before => exact ⟨_, made⟩

theorem History.origin_made {id : ValueId} {kind : ValueKind}
    (history : graph.History id [] kind) :
    graph.kind? id = some kind ∧ ∀ object path value, kind ≠ .write object path value := by
  cases history with
  | origin made unwritten => exact ⟨made, unwritten⟩

section FirstOverlap

variable {path : Path} {id : ValueId} {newer older : List FieldWrite} {write : FieldWrite}
  {kind : ValueKind}

theorem History.stored (history : graph.History id (newer ++ write :: older) kind)
    (apart : ∀ other ∈ newer, other.path.Apart path) (same : write.path = path) :
    graph.LastWrite path id (.stored write.value) := by
  obtain ⟨object, rest, seen⟩ := history.behind apart
  obtain ⟨before, made⟩ := rest.head_made
  apply seen
  rw [same] at made
  exact .equal made

theorem History.within (history : graph.History id (newer ++ write :: older) kind)
    (apart : ∀ other ∈ newer, other.path.Apart path) {rest : Path} (more : rest ≠ [])
    (split : path = write.path ++ rest) :
    graph.LastWrite path id (.within write.value rest) := by
  obtain ⟨object, left, seen⟩ := history.behind apart
  obtain ⟨before, made⟩ := left.head_made
  apply seen
  exact .enclosing made more split

theorem History.inside (history : graph.History id (newer ++ write :: older) kind)
    (apart : ∀ other ∈ newer, other.path.Apart path) {rest : Path} (more : rest ≠ [])
    (split : write.path = path ++ rest) : graph.LastWrite path id .undecided := by
  obtain ⟨object, left, seen⟩ := history.behind apart
  obtain ⟨before, made⟩ := left.head_made
  apply seen
  have different : write.path ≠ path := by
    rw [split]
    exact fun same => more (List.append_right_eq_self.mp same)
  exact .inside made different (split ▸ List.prefix_append path rest)

theorem History.unseen {writes : List FieldWrite} (history : graph.History id writes kind)
    (apart : ∀ write ∈ writes, write.path.Apart path) :
    graph.LastWrite path id (if kind = .null then .initial else .undecided) := by
  rw [← List.append_nil writes] at history
  obtain ⟨object, rest, seen⟩ := history.behind apart
  obtain ⟨made, unwritten⟩ := rest.origin_made
  apply seen
  cases kind with
  | null => exact .initial made
  | parameter index => exact .parameter made
  | constant constant => exact .constant made
  | read object inner => exact .read made
  | write object path value => exact absurd rfl (unwritten object path value)

end FirstOverlap

theorem fieldType_eq_ok_iff_resolve {object : ValueId} {whole : TypeId}
    (typed : graph.type? object = some whole) (path : Path) (field : TypeId) :
    graph.fieldType pool object path = .ok field ↔ pool.resolve whole path = .ok field := by
  rw [fieldType_eq_ok_iff, Pool.resolve_eq_ok_iff, typed]
  simp

end Graph

theorem Pool.isRecord_of_resolve {pool : Pool} {whole field : TypeId} {path : Path}
    (resolved : pool.resolve whole path = .ok field) : pool.isRecord whole = true := by
  obtain ⟨some, reached⟩ := (resolve_eq_ok_iff pool whole field path).mp resolved
  cases path with
  | nil => exact absurd rfl some
  | cons index path =>
      obtain ⟨fields, next, stored, -, -⟩ :=
        (fieldAt?_cons_iff pool whole field index path).mp reached
      have record := (fields?_eq_some_iff pool whole fields).mpr stored
      exact Option.isSome_of_eq_some record

namespace Builder

variable {builder : Builder}

theorem read_of_lastWrite (coherent : builder.graph.Coherent builder.pool) {object : ValueId}
    {path : Path} {field : TypeId}
    (found : builder.graph.fieldType builder.pool object path = .ok field) {version : Version} :
    builder.graph.LastWrite path object version → read object path builder =
      match version with
      | .stored value => .ok value builder
      | .within value rest => read value rest builder
      | .initial => null field builder
      | .undecided => append (.read object path) field builder := by
  intro last
  have step := coherent.backward.locateFrom_eq found (builder.graph.size * path.length) last
  unfold read
  rw [Build.bind_apply]
  cases version with
  | within value rest =>
      have same := coherent.locate_within found last
      simp only [Build.ask, same]
      rfl
  | _ =>
      unfold Graph.locate
      simp [Build.ask, step]

/-- Every object of a valid graph has a history, and the first write in it that is not apart from
the path of a field decides how the field is read. If it wrote this field, its value is the result.
If it wrote an enclosing one, the read comes to the read of the rest of the path in the value. If it
wrote inside of the field, a read of the object itself is appended. If there is none, a default is
appended where the history began with one, and else a read of the object. -/
theorem first_overlapping_write_decides (clean : builder.graph.verify builder.pool = [])
    {object : ValueId} {whole field : TypeId} {path : Path}
    (typed : builder.graph.type? object = some whole)
    (resolved : builder.pool.resolve whole path = .ok field) :
    (∃ writes kind, builder.graph.History object writes kind) ∧
    ∀ writes kind, builder.graph.History object writes kind →
      (∀ newer write older, writes = newer ++ write :: older →
        (∀ other ∈ newer, other.path.Apart path) →
          (write.path = path → read object path builder = .ok write.value builder) ∧
          (∀ rest ≠ [], path = write.path ++ rest →
            read object path builder = read write.value rest builder) ∧
          (∀ rest ≠ [], write.path = path ++ rest →
            builder.block < builder.graph.blocks.length →
              read object path builder =
                .ok builder.graph.size (builder.appended (.read object path) field))) ∧
      ((∀ write ∈ writes, write.path.Apart path) →
        builder.block < builder.graph.blocks.length →
          read object path builder = .ok builder.graph.size
            (builder.appended (if kind = .null then .null else .read object path) field)) := by
  have valid := (Graph.verify_eq_nil_iff builder.graph builder.pool).mp clean
  have found := (Graph.fieldType_eq_ok_iff_resolve typed path field).mpr resolved
  refine ⟨valid.backward.history_found object (Graph.lt_of_type? typed), ?_⟩
  intro writes kind history
  constructor
  · intro newer write older split apart
    rw [split] at history
    refine ⟨?_, ?_, ?_⟩
    · intro same
      exact read_of_lastWrite valid.coherent found (history.stored apart same)
    · intro rest more outer
      exact read_of_lastWrite valid.coherent found (history.within apart more outer)
    · intro rest more inner placed
      rw [read_of_lastWrite valid.coherent found (history.inside apart more inner)]
      exact append_of_placed placed _ _
  · intro apart placed
    rw [read_of_lastWrite valid.coherent found (history.unseen apart)]
    by_cases default : kind = .null
    · rw [if_pos default, if_pos default]
      exact append_of_placed placed _ _
    · rw [if_neg default, if_neg default]
      exact append_of_placed placed _ _

/-- The first field of a default pair is replaced, then a field inside of it is written, then the
other field. The newest write does not hide from the first field that it is written in part; in the
version before both, the read goes on in the value that replaced the field, and the other field has
its default. -/
theorem reads_of_rewritten_pair :
    let pool := ((Pool.scalars.intern [4]).2.intern [9, 4]).2
    let builder : Builder :=
      ⟨⟨[⟨.null, 10, 0⟩, ⟨.parameter 0, 4, 0⟩, ⟨.parameter 1, 9, 0⟩, ⟨.write 0 [0] 2, 10, 0⟩,
        ⟨.write 3 [0, 0] 1, 10, 0⟩, ⟨.write 4 [1] 1, 10, 0⟩], [[0, 1, 2, 3, 4, 5]], 2⟩, pool, 0⟩
    read 5 [1] builder = .ok 1 builder ∧
    read 5 [0] builder = .ok 6 (builder.appended (.read 5 [0]) 9) ∧
    read 3 [0, 0] builder = read 2 [0] builder ∧
    read 3 [1] builder = .ok 6 (builder.appended .null 4) := by
  intro pool builder
  have clean : builder.graph.verify builder.pool = [] := by decide
  have placed : builder.block < builder.graph.blocks.length := by decide
  have single : pool.resolve 10 [1] = .ok 4 := rfl
  have pair : pool.resolve 10 [0] = .ok 9 := rfl
  have nested : pool.resolve 10 [0, 0] = .ok 4 := rfl
  have older : builder.graph.type? 3 = some 10 := rfl
  have newest : builder.graph.type? 5 = some 10 := rfl
  have replaced : builder.graph.History 3 [⟨[0], 2⟩] .null :=
    .version rfl (.origin rfl (by simp))
  have rewritten : builder.graph.History 5 [⟨[1], 1⟩, ⟨[0, 0], 1⟩, ⟨[0], 2⟩] .null :=
    .version rfl (.version rfl replaced)
  refine ⟨?_, ?_, ?_, ?_⟩
  · have decided := (first_overlapping_write_decides clean newest single).2 _ _ rewritten
    exact (decided.1 [] ⟨[1], 1⟩ [⟨[0, 0], 1⟩, ⟨[0], 2⟩] rfl (by simp)).1 rfl
  · have decided := (first_overlapping_write_decides clean newest pair).2 _ _ rewritten
    have apart : ∀ other ∈ [(⟨[1], 1⟩ : Graph.FieldWrite)], other.path.Apart [0] := by
      simp [Path.Apart]
    exact (decided.1 [⟨[1], 1⟩] ⟨[0, 0], 1⟩ [⟨[0], 2⟩] rfl apart).2.2 [0] (by simp) rfl placed
  · have decided := (first_overlapping_write_decides clean older nested).2 _ _ replaced
    exact (decided.1 [] ⟨[0], 2⟩ [] rfl (by simp)).2.1 [0] (by simp) rfl
  · have decided := (first_overlapping_write_decides clean older single).2 _ _ replaced
    exact decided.2 (by simp [Path.Apart]) placed

def AddsAtMost (before after : Builder) (type : TypeId) (result : ValueId) : Prop :=
  after = before ∧ result < before.graph.size ∨
    ∃ kind, after = before.appended kind type ∧ result = before.graph.size

theorem answered_addsAtMost {later : Builder} {answer : Answer} {field : TypeId}
    (typed : builder.graph.AnswerTyped builder.pool field answer) {result : ValueId}
    (ended : builder.answered answer = .ok result later) :
    AddsAtMost builder later field result := by
  cases answer with
  | stored value =>
      cases ended
      exact .inl ⟨rfl, Graph.lt_of_type? typed⟩
  | initial type =>
      cases ended
      cases typed
      exact .inr ⟨_, rfl, rfl⟩
  | load object path type =>
      cases ended
      cases typed.1
      exact .inr ⟨_, rfl, rfl⟩

theorem read_of_resolved (coherent : builder.graph.Coherent builder.pool)
    (placed : builder.block < builder.graph.blocks.length) {object : ValueId} {whole field : TypeId}
    (typed : builder.graph.type? object = some whole) {path : Path}
    (resolved : builder.pool.resolve whole path = .ok field) :
    ∃ result later, read object path builder = .ok result later ∧
      later.graph.type? result = some field ∧ AddsAtMost builder later field result := by
  have found := (Graph.fieldType_eq_ok_iff_resolve typed path field).mpr resolved
  obtain ⟨some, reached⟩ := (Pool.resolve_eq_ok_iff builder.pool whole field path).mp resolved
  obtain ⟨answer, outcome, located⟩ := read_found coherent placed found
  have answerTyped := located.typed coherent typed some reached
  obtain ⟨result, later, ended⟩ := builder.answered_ok answer
  exact ⟨result, later, outcome.trans ended, answered_typed answerTyped ended,
    answered_addsAtMost answerTyped ended⟩

/-- So does the read in a stored value with which a read goes on. -/
theorem read_of_walked (coherent : builder.graph.Coherent builder.pool)
    (placed : builder.block < builder.graph.blocks.length) {object : ValueId} {whole field : TypeId}
    (typed : builder.graph.type? object = some whole) {path : Path}
    (resolved : builder.pool.resolve whole path = .ok field) {value : ValueId} {rest : Path}
    (walked : builder.graph.lastWrite path (builder.graph.size + 1) object =
      .ok (.within value rest)) :
    ∃ result later, read value rest builder = .ok result later ∧
      later.graph.type? result = some field := by
  have found := (Graph.fieldType_eq_ok_iff_resolve typed path field).mpr resolved
  have inside := Graph.lt_of_type? typed
  obtain ⟨version, same, last⟩ := coherent.backward.lastWrite_found path (builder.graph.size + 1)
    object inside (Nat.lt_succ_of_lt inside)
  rw [walked] at same
  cases same
  have inner := (last.within_found coherent found).2
  obtain ⟨part, partTyped, -, -⟩ :=
    (Graph.fieldType_eq_ok_iff builder.graph builder.pool value rest field).mp inner
  have innerResolved := (Graph.fieldType_eq_ok_iff_resolve partTyped rest field).mp inner
  obtain ⟨result, later, ok, resultTyped, -⟩ :=
    read_of_resolved coherent placed partTyped innerResolved
  exact ⟨result, later, ok, resultTyped⟩

theorem read_of_unresolved {object : ValueId} {whole : TypeId}
    (typed : builder.graph.type? object = some whole) {path : Path}
    (unresolved : ∀ field, builder.pool.resolve whole path ≠ .ok field) :
    ∃ cause, read object path builder = .error cause builder := by
  cases checked : builder.graph.fieldType builder.pool object path with
  | ok field =>
      have resolved := (Graph.fieldType_eq_ok_iff_resolve typed path field).mp checked
      exact absurd resolved (unresolved field)
  | error failure =>
      cases failure with
      | error cause => exact ⟨cause, read_of_fieldType_error checked⟩
      | fault cause => exact absurd checked (Graph.fieldType_ne_fault typed path cause)

/-- In a valid graph over any pool a read always ends, and it gives a value exactly if the object is
a structure and the path leads to one of its fields. The value is of the type of the field, and at
most the value itself is added; an error adds nothing. Where the read goes on in a stored value,
what is left of the path leads to a field of that value, so it does not fail there. -/
theorem reads_find_their_fields (clean : builder.graph.verify builder.pool = [])
    (placed : builder.block < builder.graph.blocks.length) {object : ValueId} {whole : TypeId}
    (typed : builder.graph.type? object = some whole) (path : Path) :
    (∀ cause, read object path builder ≠ .fault cause) ∧
    ((∃ result later, read object path builder = .ok result later) ↔
      builder.pool.isRecord whole = true ∧ ∃ field, builder.pool.resolve whole path = .ok field) ∧
    (∀ result later, read object path builder = .ok result later →
      ∃ field, builder.pool.resolve whole path = .ok field ∧
        later.graph.type? result = some field ∧ AddsAtMost builder later field result) ∧
    (∀ cause later, read object path builder = .error cause later → later = builder) ∧
    ∀ field value rest, builder.pool.resolve whole path = .ok field →
      builder.graph.lastWrite path (builder.graph.size + 1) object = .ok (.within value rest) →
        ∃ result later, read value rest builder = .ok result later ∧
          later.graph.type? result = some field := by
  have valid := (Graph.verify_eq_nil_iff builder.graph builder.pool).mp clean
  have unchanged : (read object path).Atomic builder := read_atomic object path
  cases resolved : builder.pool.resolve whole path with
  | ok field =>
      have record := Pool.isRecord_of_resolve resolved
      obtain ⟨result, later, ok, resultTyped, adds⟩ :=
        read_of_resolved valid.coherent placed typed resolved
      refine ⟨?_, iff_of_true ⟨result, later, ok⟩ ⟨record, field, rfl⟩, ?_, unchanged, ?_⟩
      · simp [ok]
      · intro other state ended
        rw [ok] at ended
        cases ended
        exact ⟨field, rfl, resultTyped, adds⟩
      · intro inner value rest same walked
        cases same
        exact read_of_walked valid.coherent placed typed resolved walked
  | error cause =>
      have none : ∀ field, builder.pool.resolve whole path ≠ .ok field := by simp [resolved]
      obtain ⟨reported, failed⟩ := read_of_unresolved typed none
      refine ⟨?_, ?_, ?_, unchanged, ?_⟩
      · simp [failed]
      · simp [failed]
      · simp [failed]
      · simp

/-- The type of a node is a structure of one field, and this field is a node again. Behind a write
of the field with another node, a path of three steps is read as two steps in that node. -/
theorem nested_read_of_node :
    let pool : Pool := ⟨Pool.scalars.types ++ [.record [9]], []⟩
    let builder : Builder :=
      ⟨⟨[⟨.parameter 0, 9, 1⟩, ⟨.parameter 1, 9, 1⟩, ⟨.write 0 [0] 1, 9, 1⟩], [[], [0, 1, 2]], 2⟩,
        pool, 1⟩
    (∃ result later, read 2 [0, 0, 0] builder = .ok result later ∧
      later.graph.type? result = some 9 ∧ AddsAtMost builder later 9 result) ∧
    (∃ result later, read 1 [0, 0] builder = .ok result later ∧
      later.graph.type? result = some 9) ∧
    ¬ (∃ result later, read 2 [0, 1] builder = .ok result later) ∧
      ∀ cause, read 2 [0, 1] builder ≠ .fault cause := by
  intro pool builder
  have clean : builder.graph.verify builder.pool = [] := by decide
  have placed : builder.block < builder.graph.blocks.length := by decide
  have typed : builder.graph.type? 2 = some 9 := rfl
  obtain ⟨-, given, kept, -, inside⟩ := reads_find_their_fields clean placed typed [0, 0, 0]
  obtain ⟨safe, refused, -, -, -⟩ := reads_find_their_fields clean placed typed [0, 1]
  have resolved : pool.resolve 9 [0, 0, 0] = .ok 9 := rfl
  have unresolved : ¬ ∃ field, pool.resolve 9 [0, 1] = .ok field := by
    intro found
    obtain ⟨field, found⟩ := found
    cases found
  refine ⟨?_, inside 9 1 [0, 0] resolved rfl, fun ok => unresolved (refused.mp ok).2, safe⟩
  obtain ⟨result, later, ok⟩ := given.mpr ⟨rfl, 9, resolved⟩
  obtain ⟨field, same, resultTyped, adds⟩ := kept result later ok
  rw [resolved] at same
  cases same
  exact ⟨result, later, ok, resultTyped, adds⟩

end Builder

end KernelIR
