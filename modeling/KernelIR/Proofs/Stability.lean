import KernelIR.Proofs.Preservation
import KernelIR.Proofs.Reads
import KernelIR.Proofs.Unfolding

/-!
Reads of equal values, at different times. What a read comes to can be told from the tree of its
object alone: the search for the last write follows the tree as it follows the graph, and the value
that answers the read has the tree that is found. Whether the path leads to a field can be told from
the type of the object, and what is added later changes neither a tree nor a type of the pool. Main
statement: values that are found the same have the same fields, whatever has been done between the
two reads.
-/

set_option autoImplicit false

namespace KernelIR

namespace ValueTree

def type : ValueTree → TypeId
  | .null type => type
  | .parameter _ type => type
  | .constant _ type => type
  | .write _ type _ _ => type
  | .read _ type _ => type

/-- The tree of what a read comes to, from the tree of its object down. The tree at which the path
begins is `whole`; a field that is not known from the writes is read from there. -/
def lookUp (field : TypeId) : ValueTree → Path → ValueTree → ValueTree
  | whole, path, .write written _ object value =>
      if written = path then value
      else match path.remainder? written with
        | some rest => lookUp field value rest value
        | none => if path.encloses written then .read path field whole
                  else lookUp field whole path object
  | _, _, .null _ => .null field
  | whole, path, .parameter _ _ => .read path field whole
  | whole, path, .constant _ _ => .read path field whole
  | whole, path, .read _ _ _ => .read path field whole

def field (type : TypeId) (path : Path) (tree : ValueTree) : ValueTree :=
  tree.lookUp type path tree

end ValueTree

def Version.tree (values : ValueId → ValueTree) (field : TypeId) (whole : ValueTree) (path : Path) :
    Version → ValueTree
  | .stored value => values value
  | .within value rest => (values value).field field rest
  | .initial => .null field
  | .undecided => .read path field whole

def Answer.tree (values : ValueId → ValueTree) : Answer → ValueTree
  | .stored value => values value
  | .initial type => .null type
  | .load object path type => .read path type (values object)

namespace Pool

variable {before after : Pool}

theorem fieldsOf_of_grown (grown : before.types <+: after.types) {id : TypeId}
    (inside : id < before.size) : after.fieldsOf id = before.fieldsOf id := by
  obtain ⟨data, stored⟩ := stored_of_lt inside
  unfold fieldsOf
  rw [stored, stored_of_grown grown stored]

theorem Ordered.walk_of_grown (ordered : before.Ordered) (grown : before.types <+: after.types)
    {id : TypeId} (inside : id < before.size) (whole path : Path) :
    after.walk whole id path = before.walk whole id path := by
  induction path generalizing id with
  | nil => rfl
  | cons index path ih =>
      unfold walk
      rw [fieldsOf_of_grown grown inside]
      cases record : before.fieldsOf id with
      | error found => rfl
      | ok fields =>
          simp only
          cases listed : fields[index]? with
          | none => rfl
          | some field =>
              have stored := (fieldsOf_eq_ok_iff before id fields).mp record
              have older := ordered.older stored field (List.mem_of_getElem? listed)
              exact ih (Nat.lt_trans older inside)

end Pool

namespace Graph

variable {graph : Graph} {pool : Pool}

theorem Backward.tree_of_kind (backward : graph.Backward) {id : ValueId} {kind : ValueKind}
    (made : graph.kind? id = some kind) :
    ∃ type, graph.type? id = some type ∧ graph.tree id = kind.unfold graph.tree type := by
  obtain ⟨value, stored, rfl⟩ := Option.map_eq_some_iff.mp made
  exact ⟨value.type, congrArg (Option.map Value.type) stored, backward.tree_of_stored stored⟩

theorem Backward.tree_type (backward : graph.Backward) {id : ValueId} (inside : id < graph.size) :
    graph.type? id = some (graph.tree id).type := by
  obtain ⟨kind, made⟩ := kind?_of_lt inside
  obtain ⟨type, typed, unfolded⟩ := backward.tree_of_kind made
  rw [typed, unfolded]
  cases kind <;> rfl

theorem LastWrite.tree_eq (backward : graph.Backward) {path : Path} {id : ValueId}
    {version : Version} (last : graph.LastWrite path id version) (field : TypeId)
    (whole : ValueTree) :
    ValueTree.lookUp field whole path (graph.tree id) =
      version.tree graph.tree field whole path := by
  induction last with
  | equal write =>
      obtain ⟨type, -, unfolded⟩ := backward.tree_of_kind write
      rw [unfolded]
      exact if_pos rfl
  | @enclosing id object stored written rest write more split =>
      obtain ⟨type, -, unfolded⟩ := backward.tree_of_kind write
      have outside := (Path.remainder_eq_some_iff path written rest).mpr ⟨more, split⟩
      have different : written ≠ path := by
        rintro rfl
        exact more (List.self_eq_append_right.mp split)
      rw [unfolded]
      simp only [ValueKind.unfold, ValueTree.lookUp, if_neg different, outside]
      rfl
  | inside write different encloses =>
      obtain ⟨type, -, unfolded⟩ := backward.tree_of_kind write
      have within := (Path.encloses_iff _ _).mpr encloses
      rw [unfolded]
      simp only [ValueKind.unfold, ValueTree.lookUp, if_neg different,
        Path.remainder_eq_none_of_enclosed encloses, within, if_true]
      rfl
  | elsewhere write apart before ih =>
      obtain ⟨type, -, unfolded⟩ := backward.tree_of_kind write
      obtain ⟨different, outside, inside⟩ := Path.tests_of_apart apart
      rw [unfolded]
      simp only [ValueKind.unfold, ValueTree.lookUp, if_neg different, outside, inside,
        Bool.false_eq_true, if_false]
      exact ih
  | initial made | parameter made | constant made | read made =>
      obtain ⟨type, -, unfolded⟩ := backward.tree_of_kind made
      rw [unfolded]
      rfl

theorem fieldType_unique {object : ValueId} {path : Path} {whole field other : TypeId}
    (found : graph.fieldType pool object path = .ok field)
    (typed : graph.type? object = some whole) (reached : pool.fieldAt? whole path = some other) :
    other = field := by
  obtain ⟨type, same, -, there⟩ := (fieldType_eq_ok_iff graph pool object path field).mp found
  rw [typed] at same
  cases same
  rw [reached] at there
  exact Option.some.inj there

/-- What the search comes to is what is found in the tree of the object. -/
theorem Located.tree_eq (coherent : graph.Coherent pool) {object : ValueId} {path : Path}
    {answer : Answer} (located : graph.Located pool object path answer) {field : TypeId}
    (found : graph.fieldType pool object path = .ok field) :
    answer.tree graph.tree = (graph.tree object).field field path := by
  induction located with
  | stored last => exact (last.tree_eq coherent.backward field _).symm
  | within last inner ih =>
      rw [ih (last.within_found coherent found).2]
      exact (last.tree_eq coherent.backward field _).symm
  | initial last typed reached =>
      cases fieldType_unique found typed reached
      exact (last.tree_eq coherent.backward _ _).symm
  | load last typed reached =>
      cases fieldType_unique found typed reached
      exact (last.tree_eq coherent.backward _ _).symm

theorem Located.found (coherent : graph.Coherent pool) {object : ValueId} {path : Path}
    {answer : Answer} (located : graph.Located pool object path answer) {field : TypeId}
    (found : graph.fieldType pool object path = .ok field) :
    graph.locate pool object path = .ok answer := by
  induction located with
  | stored last => exact coherent.backward.locateFrom_eq found _ last
  | within last inner ih =>
      rw [coherent.locate_within found last]
      exact ih (last.within_found coherent found).2
  | initial last typed reached =>
      cases fieldType_unique found typed reached
      exact coherent.backward.locateFrom_eq found _ last
  | load last typed reached =>
      cases fieldType_unique found typed reached
      exact coherent.backward.locateFrom_eq found _ last

section Grown

variable {later : Graph} {laterPool : Pool}

theorem Located.of_grown (values : graph.values <+: later.values)
    (types : pool.types <+: laterPool.types) {object : ValueId} {path : Path} {answer : Answer}
    (located : graph.Located pool object path answer) :
    later.Located laterPool object path answer := by
  induction located with
  | stored last => exact .stored (last.of_grown values)
  | within last inner ih => exact .within (last.of_grown values) ih
  | initial last typed reached =>
      exact .initial (last.of_grown values) (type?_of_grown values typed)
        (Pool.fieldAt?_of_grown types reached)
  | load last typed reached =>
      exact .load (last.of_grown values) (type?_of_grown values typed)
        (Pool.fieldAt?_of_grown types reached)

/-- Of a value whose type is in the pool the same fields are found later, and what is wrong with the
others stays the same. -/
theorem fieldType_of_grown (ordered : pool.Ordered) (values : graph.values <+: later.values)
    (types : pool.types <+: laterPool.types) {object : ValueId} {whole : TypeId}
    (typed : graph.type? object = some whole) (known : whole < pool.size) (path : Path) :
    later.fieldType laterPool object path = graph.fieldType pool object path := by
  unfold fieldType Pool.resolve
  rw [typeOf_of_typed typed, typeOf_of_typed (type?_of_grown values typed),
    Failure.lift_ok, ok_bind, ok_bind, Pool.fieldsOf_of_grown types known,
    ordered.walk_of_grown types known]

end Grown

end Graph

namespace Builder

variable {before middle later : Builder}

theorem answered_tree (backward : later.graph.Backward) {answer : Answer} {field : TypeId}
    (typed : before.graph.AnswerTyped before.pool field answer) {result : ValueId}
    (ok : before.answered answer = .ok result later) :
    later.graph.tree result = answer.tree before.graph.tree := by
  cases answer with
  | stored value =>
      cases ok
      rfl
  | initial type =>
      cases ok
      exact backward.tree_of_stored (appended_stored before .null type)
  | load object path type =>
      cases ok
      obtain ⟨-, -, whole, objectTyped, -⟩ := typed
      have unchanged := Graph.tree_of_grown (appended_grows before (.read object path) type)
        (Graph.lt_of_type? objectTyped)
      rw [backward.tree_of_stored (appended_stored before (.read object path) type)]
      exact congrArg (ValueTree.read path type) unchanged

theorem read_tree (reached : Reaches InPool empty before) {object : ValueId} {path : Path}
    {field : TypeId} (found : before.graph.fieldType before.pool object path = .ok field) :
    ∃ result middle, read object path before = .ok result middle ∧
      Reaches InPool before middle ∧ result < middle.graph.size ∧
      middle.graph.tree result = (before.graph.tree object).field field path := by
  obtain ⟨whole, typed, some, resolved⟩ :=
    (Graph.fieldType_eq_ok_iff before.graph before.pool object path field).mp found
  obtain ⟨answer, outcome, located⟩ := read_found reached.coherent reached.tidy.placed found
  have answerTyped := located.typed reached.coherent typed some resolved
  obtain ⟨result, middle, answered⟩ := before.answered_ok answer
  have ok := outcome.trans answered
  have promised : (Operation.read object path).Promised InPool before := trivial
  have ran : Reaches InPool before middle :=
    .operation (.start before) promised (Build.state_of_wrapped_ok ok Result.value)
  refine ⟨result, middle, ok, ran, Graph.lt_of_type? (answered_typed answerTyped answered), ?_⟩
  rw [answered_tree (reached.trans ran).coherent.backward answerTyped answered]
  exact located.tree_eq reached.coherent found

theorem read_again (coherent : later.graph.Coherent later.pool)
    (placed : later.block < later.graph.blocks.length) (grown : Grown before later)
    {object value : ValueId} {path : Path} {field : TypeId}
    (located : before.graph.Located before.pool object path (.stored value))
    (found : later.graph.fieldType later.pool object path = .ok field) :
    read object path later = .ok value later :=
  read_of_located placed ((located.of_grown grown.values grown.types).found coherent found)

theorem located_of_nothing_added (coherent : before.graph.Coherent before.pool)
    (placed : before.block < before.graph.blocks.length) {object result : ValueId} {path : Path}
    (ok : read object path before = .ok result middle)
    (unchanged : middle.graph.size = before.graph.size) :
    before.graph.Located before.pool object path (.stored result) := by
  obtain ⟨field, found⟩ := fieldType_of_read_ok ok
  obtain ⟨answer, outcome, located⟩ := read_found coherent placed found
  have answered := outcome.symm.trans ok
  cases answer with
  | stored value =>
      cases answered
      exact located
  | initial type =>
      cases answered
      rw [appended_size] at unchanged
      exact absurd unchanged (Nat.succ_ne_self _)
  | load object path type =>
      cases answered
      rw [appended_size] at unchanged
      exact absurd unchanged (Nat.succ_ne_self _)

theorem fieldType_of_same (reached : Reaches InPool empty before) {a b : ValueId}
    (inside : a < before.graph.size) (within : b < before.graph.size)
    (same : before.graph.tree a = before.graph.tree b) (ran : Reaches InPool before later)
    (path : Path) :
    later.graph.fieldType later.pool b path = before.graph.fieldType before.pool a path := by
  have sound := (reached.keeps sound_kept empty_sound).1
  have backward := reached.coherent.backward
  have grown := ran.keeps (grown_kept InPool)
  have typed := backward.tree_type inside
  have twinTyped := backward.tree_type within
  rw [← same] at twinTyped
  have known := sound.valid.known_of_type? typed
  rw [Graph.fieldType_of_grown sound.wellFormed.ordered grown.values grown.types twinTyped known]
  exact Graph.fieldType_congr twinTyped typed path

/-- Two values of a graph that are found the same, in a run in which the types of defaults and
parameters are in the pool, have the same fields. Where a read of one fails, a read of the other
fails for the same reason, whatever the run has done between them; else both give values, and these
are found the same. A read that has added nothing gives the same value whenever it is made again,
and never adds anything. -/
theorem same_values_have_same_fields (reached : Reaches InPool empty before) {a b : ValueId}
    (inside : a < before.graph.size) (within : b < before.graph.size)
    (same : before.graph.same a b = .ok true) (path : Path) :
    (∃ cause, read a path before = .error cause before ∧
      ∀ later, Reaches InPool before later → read b path later = .error cause later) ∨
    ∃ result middle, read a path before = .ok result middle ∧
      ∀ later, Reaches InPool middle later → ∃ other last, read b path later = .ok other last ∧
        last.graph.same result other = .ok true ∧
        (a = b → middle.graph.size = before.graph.size → other = result ∧ last = later) := by
  have backward := reached.coherent.backward
  rw [backward.same_eq inside within, Except.ok.injEq, decide_eq_true_eq] at same
  cases found : before.graph.fieldType before.pool a path with
  | error failure =>
      cases failure with
      | fault cause =>
          exact absurd found (Graph.fieldType_ne_fault (backward.tree_type inside) path cause)
      | error cause =>
          refine .inl ⟨cause, read_of_fieldType_error found, ?_⟩
          intro later ran
          have stillWrong := (fieldType_of_same reached inside within same ran path).trans found
          exact read_of_fieldType_error stillWrong
  | ok field =>
      obtain ⟨result, middle, ok, begun, resultInside, resultTree⟩ := read_tree reached found
      refine .inr ⟨result, middle, ok, ?_⟩
      intro later ran
      have between := begun.trans ran
      have reachedLater := reached.trans between
      have grown := between.keeps (grown_kept InPool)
      have stillFound := (fieldType_of_same reached inside within same between path).trans found
      obtain ⟨other, last, again, ended, otherInside, otherTree⟩ :=
        read_tree reachedLater stillFound
      have since := (ran.trans ended).keeps (grown_kept InPool)
      have stillInside := Nat.lt_of_lt_of_le resultInside since.values.length_le
      have lastBackward := (reachedLater.trans ended).coherent.backward
      refine ⟨other, last, again, ?_, ?_⟩
      · -- Each of them is what is found in the one tree that both objects have.
        have trees : last.graph.tree result = last.graph.tree other := by
          rw [otherTree, Graph.tree_of_grown since.values resultInside, resultTree, same,
            Graph.tree_of_grown grown.values within]
        rw [lastBackward.same_eq stillInside otherInside, decide_eq_true trees]
      · rintro rfl unchanged
        have located := located_of_nothing_added reached.coherent reached.tidy.placed ok unchanged
        have answered := read_again reachedLater.coherent reachedLater.tidy.placed grown located
          stillFound
        rw [answered] at again
        cases again
        exact ⟨rfl, rfl⟩

/-- The second halves of two defaults of a pair. A conversion that fails and a parameter come
between the reads. -/
theorem halves_of_two_defaults_are_the_same :
    let before : Builder :=
      ⟨⟨[⟨.null, 9, 0⟩, ⟨.null, 9, 0⟩], [[0, 1]], 0⟩, (Pool.scalars.intern [4, 4]).2, 0⟩
    let host : Host Bool := .composite 2 [.primitive true, .null]
    let middle := before.appended .null 4
    let later := middle.counted.appended (.parameter 0) 4
    read 0 [1] before = .ok 2 middle ∧
      Host.embed (Host.constants .int1) host ((), middle) = .error .nullInstance ((), middle) ∧
      parameter 4 middle = .ok 3 later ∧
      ∃ last, read 1 [1] later = .ok 4 last ∧ last.graph.same 2 4 = .ok true := by
  intro before host middle later
  let pair : Operation ValueId := .recordType [4, 4]
  let default : Operation ValueId := .defaultRecord 9
  let added : Operation ValueId := .parameter 4
  have typed : Reaches InPool empty ⟨Graph.empty, (Pool.scalars.intern [4, 4]).2, 0⟩ :=
    (Reaches.start empty).step pair trivial rfl
  have reached : Reaches InPool empty before :=
    (typed.step default trivial rfl).step default trivial rfl
  have first : read 0 [1] before = .ok 2 middle := rfl
  have acts : Host.ActsByRuns InPool (Host.constants .int1) host ((), middle) :=
    Host.constants_act .int1 host _
  have failed : Host.embed (Host.constants .int1) host ((), middle) =
      .error .nullInstance ((), middle) := rfl
  have ended : (Host.embed (Host.constants .int1) host ((), middle)).state? =
      some ((), middle) := by
    rw [failed]
    rfl
  have tried : Reaches InPool middle middle := .conversion (.start middle) acts ended
  have promised : added.Promised InPool middle := by
    change 4 < middle.pool.size
    decide
  have ran : Reaches InPool middle later := tried.step added promised rfl
  have second : read 1 [1] later = .ok 4 (later.appended .null 4) := rfl
  have same : before.graph.same 0 1 = .ok true := rfl
  refine ⟨first, failed, rfl, _, second, ?_⟩
  rcases same_values_have_same_fields reached (by decide) (by decide) same [1] with
    ⟨cause, wrong, -⟩ | ⟨result, state, ok, agree⟩
  · rw [first] at wrong
    cases wrong
  · rw [first] at ok
    cases ok
    obtain ⟨other, last, again, equal, -⟩ := agree later ran
    rw [second] at again
    cases again
    exact equal

end Builder

end KernelIR
