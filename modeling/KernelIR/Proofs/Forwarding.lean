import KernelIR.Builder.Access
import KernelIR.Proofs.Denotation

/-!
Reads that are answered from the writes before them. Following the versions of an object backwards
is described by a relation with one rule for each way in which a write can lie to the path that is
read. In a valid graph the search always arrives at an answer, and whatever the answer is, it
stands for the part of the object at the path.
-/

set_option autoImplicit false

namespace KernelIR.Graph

def kind? (graph : Graph) (id : ValueId) : Option ValueKind := graph.values[id]?.map Value.kind

theorem kind?_of_grown {graph later : Graph} (grown : graph.values <+: later.values) {id : ValueId}
    {kind : ValueKind} (made : graph.kind? id = some kind) : later.kind? id = some kind := by
  obtain ⟨value, stored, same⟩ := Option.map_eq_some_iff.mp made
  exact Option.map_eq_some_iff.mpr ⟨value, stored_of_grown grown stored, same⟩

theorem kind?_before_grown {graph later : Graph} (grown : graph.values <+: later.values)
    {id : ValueId} {kind : ValueKind} (made : later.kind? id = some kind)
    (inside : id < graph.size) : graph.kind? id = some kind := by
  obtain ⟨value, stored, same⟩ := Option.map_eq_some_iff.mp made
  exact Option.map_eq_some_iff.mpr ⟨value, stored_before_grown grown stored inside, same⟩

theorem kind?_append_iff (graph : Graph) (kind made : ValueKind) (type : TypeId) (block : BlockId)
    (id : ValueId) :
    (graph.append kind type block).kind? id = some made ↔
      graph.kind? id = some made ∨ id = graph.size ∧ made = kind := by
  unfold kind? append
  simp only [Option.map_eq_some_iff, stored_snoc_iff, or_and_right, exists_or]
  apply or_congr_right
  constructor
  · rintro ⟨value, ⟨new, rfl⟩, rfl⟩
    exact ⟨new, rfl⟩
  · rintro ⟨new, rfl⟩
    exact ⟨_, ⟨new, rfl⟩, rfl⟩

/-- What the versions of an object say about the field at a path, newest version first. -/
inductive LastWrite (graph : Graph) (path : Path) : ValueId → Version → Prop
  | equal {id object stored : ValueId} (write : graph.kind? id = some (.write object path stored)) :
      LastWrite graph path id (.stored stored)
  | enclosing {id object stored : ValueId} {written rest : Path}
      (write : graph.kind? id = some (.write object written stored)) (more : rest ≠ [])
      (split : path = written ++ rest) : LastWrite graph path id (.within stored rest)
  | inside {id object stored : ValueId} {written : Path}
      (write : graph.kind? id = some (.write object written stored)) (different : written ≠ path)
      (encloses : path <+: written) : LastWrite graph path id .undecided
  | elsewhere {id object stored : ValueId} {written : Path} {version : Version}
      (write : graph.kind? id = some (.write object written stored)) (apart : written.Apart path)
      (before : LastWrite graph path object version) : LastWrite graph path id version
  | initial {id : ValueId} (null : graph.kind? id = some .null) : LastWrite graph path id .initial
  | parameter {id : ValueId} {index : Nat} (made : graph.kind? id = some (.parameter index)) :
      LastWrite graph path id .undecided
  | constant {id : ValueId} {constant : Constant}
      (made : graph.kind? id = some (.constant constant)) : LastWrite graph path id .undecided
  | read {id object : ValueId} {inner : Path} (made : graph.kind? id = some (.read object inner)) :
      LastWrite graph path id .undecided

variable {graph : Graph} {pool : Pool} {parameters : Assignment}

theorem find_of_stored {id : ValueId} {value : Value} (stored : graph.values[id]? = some value) :
    graph.find id = .ok value := by
  simp [find, stored]

/-- Values are made of older values. -/
def Backward (graph : Graph) : Prop :=
  ∀ (id : ValueId) (kind : ValueKind), graph.kind? id = some kind →
    ∀ operand ∈ kind.operands, operand < id

theorem Valid.backward (valid : graph.Valid pool) : graph.Backward := by
  intro id kind made
  obtain ⟨value, stored, rfl⟩ := Option.map_eq_some_iff.mp made
  exact (valid id value stored).older

/-- Values are made of older values, and what they compute agrees with their types. Unlike in a
valid graph, a default or a parameter may be of any type, and blocks may list anything. -/
structure Coherent (graph : Graph) (pool : Pool) : Prop where
  backward : graph.Backward
  typed : ∀ {id : ValueId} {value : Value}, graph.values[id]? = some value →
    graph.Typed pool value.kind value.type

theorem Valid.coherent (valid : graph.Valid pool) : graph.Coherent pool where
  backward := valid.backward
  typed := fun stored => (valid _ _ stored).typed

/-- Versions are older and older, so with operands pointing backwards the walk ends. -/
theorem Backward.lastWrite_found (backward : graph.Backward) (path : Path) (fuel : Nat)
    (id : ValueId) (inside : id < graph.size) (enough : id < fuel) :
    ∃ version, graph.lastWrite path fuel id = .ok version ∧ graph.LastWrite path id version := by
  induction fuel generalizing id with
  | zero => exact absurd enough (Nat.not_lt_zero id)
  | succ fuel ih =>
      obtain ⟨value, stored⟩ := stored_of_lt inside
      have kind : graph.kind? id = some value.kind := by simp [kind?, stored]
      have older := backward id _ kind
      unfold lastWrite
      rw [find_of_stored stored]
      simp only [bind, Except.bind]
      cases made : value.kind with
      | null => exact ⟨.initial, rfl, .initial (made ▸ kind)⟩
      | parameter index => exact ⟨.undecided, rfl, .parameter (made ▸ kind)⟩
      | constant constant => exact ⟨.undecided, rfl, .constant (made ▸ kind)⟩
      | read object inner => exact ⟨.undecided, rfl, .read (made ▸ kind)⟩
      | write object written part =>
          rw [made] at kind older
          simp only
          by_cases same : written = path
          · subst same
            exact ⟨.stored part, by rw [if_pos rfl]; rfl, .equal kind⟩
          · rw [if_neg same]
            cases outside : path.remainder? written with
            | some rest =>
                obtain ⟨more, split⟩ := (Path.remainder_eq_some_iff path written rest).mp outside
                exact ⟨.within part rest, rfl, .enclosing kind more split⟩
            | none =>
                simp only
                cases encloses : path.encloses written with
                | true =>
                    have initialPart := (Path.encloses_iff path written).mp encloses
                    exact ⟨.undecided, rfl, .inside kind same initialPart⟩
                | false =>
                    -- Only here the walk goes on; the three tests before it leave paths apart.
                    have apart := Path.apart_of_tests same outside encloses
                    have backwards := older object List.mem_cons_self
                    obtain ⟨version, found, before⟩ :=
                      ih object (Nat.lt_trans backwards inside)
                        (Nat.lt_of_lt_of_le backwards (Nat.le_of_lt_succ enough))
                    exact ⟨version, found, .elsewhere kind apart before⟩

theorem lastWrite_of_kind {id : ValueId} {kind : ValueKind} (path : Path) (fuel : Nat) :
    graph.kind? id = some kind → graph.lastWrite path (fuel + 1) id =
      match kind with
      | .write object written stored =>
          if written = path then .ok (.stored stored)
          else match path.remainder? written with
            | some rest => .ok (.within stored rest)
            | none => if path.encloses written then .ok .undecided
                      else graph.lastWrite path fuel object
      | .null => .ok .initial
      | .parameter _ | .constant _ | .read _ _ => .ok .undecided := by
  intro made
  obtain ⟨value, stored, rfl⟩ := Option.map_eq_some_iff.mp made
  rw [lastWrite, find_of_stored stored]
  rfl

theorem LastWrite.found (backward : graph.Backward) {path : Path} {id : ValueId} {version : Version}
    (last : graph.LastWrite path id version) {fuel : Nat} (enough : id < fuel) :
    graph.lastWrite path fuel id = .ok version := by
  induction last generalizing fuel with
  | equal write =>
      obtain ⟨fuel, rfl⟩ := Nat.exists_eq_add_of_lt enough
      rw [lastWrite_of_kind _ _ write]
      exact if_pos rfl
  | @enclosing id object stored written rest write more split =>
      obtain ⟨fuel, rfl⟩ := Nat.exists_eq_add_of_lt enough
      have outside := (Path.remainder_eq_some_iff path written rest).mpr ⟨more, split⟩
      have different : written ≠ path := by
        rintro rfl
        exact more (List.self_eq_append_right.mp split)
      rw [lastWrite_of_kind _ _ write]
      simp only [if_neg different, outside]
  | inside write different encloses =>
      obtain ⟨fuel, rfl⟩ := Nat.exists_eq_add_of_lt enough
      rw [lastWrite_of_kind _ _ write]
      simp only [if_neg different, Path.remainder_eq_none_of_enclosed encloses,
        (Path.encloses_iff _ _).mpr encloses, if_true]
  | elsewhere write apart before ih =>
      obtain ⟨fuel, rfl⟩ := Nat.exists_eq_add_of_lt enough
      obtain ⟨different, outside, inside⟩ := Path.tests_of_apart apart
      have older := backward _ _ write _ List.mem_cons_self
      rw [lastWrite_of_kind _ _ write]
      simp only [if_neg different, outside, inside, Bool.false_eq_true, if_false]
      exact ih (Nat.lt_of_lt_of_le older (Nat.le_add_right _ fuel))
  | initial null =>
      obtain ⟨fuel, rfl⟩ := Nat.exists_eq_add_of_lt enough
      exact lastWrite_of_kind path _ null
  | parameter made =>
      obtain ⟨fuel, rfl⟩ := Nat.exists_eq_add_of_lt enough
      exact lastWrite_of_kind path _ made
  | constant made =>
      obtain ⟨fuel, rfl⟩ := Nat.exists_eq_add_of_lt enough
      exact lastWrite_of_kind path _ made
  | read made =>
      obtain ⟨fuel, rfl⟩ := Nat.exists_eq_add_of_lt enough
      exact lastWrite_of_kind path _ made

theorem LastWrite.of_grown {later : Graph} (grown : graph.values <+: later.values) {path : Path}
    {id : ValueId} {version : Version} (last : graph.LastWrite path id version) :
    later.LastWrite path id version := by
  induction last with
  | equal write => exact .equal (kind?_of_grown grown write)
  | enclosing write more split => exact .enclosing (kind?_of_grown grown write) more split
  | inside write different encloses =>
      exact .inside (kind?_of_grown grown write) different encloses
  | elsewhere write apart before ih => exact .elsewhere (kind?_of_grown grown write) apart ih
  | initial null => exact .initial (kind?_of_grown grown null)
  | parameter made => exact .parameter (kind?_of_grown grown made)
  | constant made => exact .constant (kind?_of_grown grown made)
  | read made => exact .read (kind?_of_grown grown made)

theorem LastWrite.further {path : Path} {id stored : ValueId}
    (last : graph.LastWrite path id (.stored stored)) {rest : Path} (more : rest ≠ []) :
    graph.LastWrite (path ++ rest) id (.within stored rest) := by
  generalize found : Version.stored stored = version at last
  induction last with
  | equal write =>
      cases found
      exact .enclosing write more rfl
  | elsewhere write apart before ih => exact .elsewhere write (apart.further rest) (ih found)
  | _ => cases found

theorem stored_of_kind {id : ValueId} {kind : ValueKind} {type : TypeId}
    (made : graph.kind? id = some kind) (typed : graph.type? id = some type) :
    ∃ block, graph.values[id]? = some ⟨kind, type, block⟩ := by
  obtain ⟨⟨storedKind, storedType, block⟩, stored, rfl⟩ := Option.map_eq_some_iff.mp made
  obtain ⟨other, sameStored, rfl⟩ := (type?_eq_some_iff graph id type).mp typed
  rw [stored] at sameStored
  cases sameStored
  exact ⟨block, stored⟩

theorem Coherent.write_typed (coherent : graph.Coherent pool) {id object stored : ValueId}
    {written : Path} {type : TypeId} (write : graph.kind? id = some (.write object written stored))
    (typed : graph.type? id = some type) :
    graph.type? object = some type ∧ written ≠ [] ∧ ∃ field, graph.type? stored = some field ∧
      pool.fieldAt? type written = some field := by
  obtain ⟨block, found⟩ := stored_of_kind write typed
  obtain ⟨whole, field, part, resolved⟩ := coherent.typed found
  obtain ⟨some, reached⟩ := (Pool.resolve_eq_ok_iff pool type field written).mp resolved
  exact ⟨whole, some, field, part, reached⟩

theorem Backward.denote_write (backward : graph.Backward) {id object stored : ValueId}
    {written : Path} (write : graph.kind? id = some (.write object written stored)) :
    graph.denote pool parameters id =
      (graph.denote pool parameters object).put written (graph.denote pool parameters stored) := by
  obtain ⟨value, found, kind⟩ := Option.map_eq_some_iff.mp write
  rw [denote_of_stored found (backward id _ (congrArg (Option.map Value.kind) found)),
    Value.meaning, kind]

/-- The types of what was found agree with the type of the field, and the path that is left is
shorter than the whole. -/
def VersionTyped (graph : Graph) (pool : Pool) (path : Path) (field : TypeId) : Version → Prop
  | .stored value => graph.type? value = some field
  | .within value rest =>
      rest ≠ [] ∧ rest.length < path.length ∧
        ∃ whole, graph.type? value = some whole ∧ pool.fieldAt? whole rest = some field
  | .initial => True
  | .undecided => True

theorem LastWrite.typed (coherent : graph.Coherent pool) {path : Path} {id : ValueId}
    {version : Version} (last : graph.LastWrite path id version) {type field : TypeId}
    (typed : graph.type? id = some type) (reached : pool.fieldAt? type path = some field) :
    graph.VersionTyped pool path field version := by
  induction last with
  | equal write =>
      obtain ⟨-, -, found, part, same⟩ := coherent.write_typed write typed
      rw [reached] at same
      cases same
      exact part
  | enclosing write more split =>
      obtain ⟨-, some, whole, part, outer⟩ := coherent.write_typed write typed
      have steps := List.length_pos_iff.mpr some
      rw [split, Pool.fieldAt?_append, outer] at reached
      exact ⟨more, by rw [split, List.length_append]; omega, whole, part, reached⟩
  | elsewhere write apart before ih =>
      exact ih (coherent.write_typed write typed).1
  | _ => trivial

def VersionHolds (graph : Graph) (pool : Pool) (parameters : Assignment) (field : TypeId)
    (part : Option Datum) : Version → Prop
  | .stored value => part = some (graph.denote pool parameters value)
  | .within value rest => part = (graph.denote pool parameters value).at? rest
  | .initial => part = some (pool.defaultOf field)
  | .undecided => True

/-- A write is seen by paths inside its own and is not seen by paths apart, so the newest write
that is not apart decides. -/
theorem LastWrite.holds (valid : graph.Valid pool) (ordered : pool.Ordered)
    (assigns : graph.Assigns pool parameters) {path : Path} {id : ValueId} {version : Version}
    (last : graph.LastWrite path id version) {type field : TypeId}
    (typed : graph.type? id = some type) (reached : pool.fieldAt? type path = some field) :
    graph.VersionHolds pool parameters field ((graph.denote pool parameters id).at? path)
      version := by
  have backward := valid.backward
  induction last with
  | @equal id object stored write =>
      obtain ⟨whole, -⟩ := valid.coherent.write_typed write typed
      obtain ⟨old, present, -⟩ := (valid.denote_typed ordered assigns object type whole).at? reached
      have written := Datum.at?_put_append (graph.denote pool parameters stored) [] present
      rw [List.append_nil] at written
      rw [backward.denote_write write]
      exact written
  | @enclosing id object stored written rest write more split =>
      obtain ⟨whole, -, inner, -, outer⟩ := valid.coherent.write_typed write typed
      obtain ⟨old, present, -⟩ := (valid.denote_typed ordered assigns object type whole).at? outer
      rw [backward.denote_write write, split]
      exact Datum.at?_put_append _ _ present
  | elsewhere write apart before ih =>
      obtain ⟨whole, -⟩ := valid.coherent.write_typed write typed
      rw [backward.denote_write write, Datum.at?_put_apart _ _ apart]
      exact ih whole
  | initial null =>
      obtain ⟨block, found⟩ := stored_of_kind null typed
      rw [valid.denote_of_stored found]
      exact ordered.defaultOf_at? reached
  | _ => trivial

/-- What a read of a field comes to, through all stored values that it is read further inside. -/
inductive Located (graph : Graph) (pool : Pool) : ValueId → Path → Answer → Prop
  | stored {object value : ValueId} {path : Path}
      (last : graph.LastWrite path object (.stored value)) :
      Located graph pool object path (.stored value)
  | within {object value : ValueId} {path rest : Path} {answer : Answer}
      (last : graph.LastWrite path object (.within value rest))
      (inner : Located graph pool value rest answer) : Located graph pool object path answer
  | initial {object : ValueId} {path : Path} {whole field : TypeId}
      (last : graph.LastWrite path object .initial) (typed : graph.type? object = some whole)
      (reached : pool.fieldAt? whole path = some field) :
      Located graph pool object path (.initial field)
  | load {object : ValueId} {path : Path} {whole field : TypeId}
      (last : graph.LastWrite path object .undecided) (typed : graph.type? object = some whole)
      (reached : pool.fieldAt? whole path = some field) :
      Located graph pool object path (.load object path field)

theorem fieldType_eq_ok_iff (graph : Graph) (pool : Pool) (object : ValueId) (path : Path)
    (field : TypeId) :
    graph.fieldType pool object path = .ok field ↔
      ∃ whole, graph.type? object = some whole ∧ path ≠ [] ∧
        pool.fieldAt? whole path = some field := by
  unfold fieldType
  rw [bind_eq_ok_iff]
  simp only [Failure.lift_eq_ok_iff, typeOf_eq_ok_iff]
  refine exists_congr fun whole => and_congr_right fun _ => ?_
  rw [← Pool.resolve_eq_ok_iff]
  cases record : pool.fieldsOf whole with
  | ok fields => cases pool.resolve whole path <;> simp
  | error found =>
      have noField : pool.resolve whole path ≠ .ok field := by
        intro resolved
        obtain ⟨some, reached⟩ := (Pool.resolve_eq_ok_iff pool whole field path).mp resolved
        cases path with
        | nil => exact some rfl
        | cons index path =>
            obtain ⟨fields, next, stored, -, -⟩ :=
              (Pool.fieldAt?_cons_iff pool whole field index path).mp reached
            rw [(Pool.fieldsOf_eq_ok_iff pool whole fields).mpr stored] at record
            cases record
      simp [noField]

theorem Backward.locateFrom_eq (backward : graph.Backward) {object : ValueId} {path : Path}
    {field : TypeId} (found : graph.fieldType pool object path = .ok field) (fuel : Nat)
    {version : Version} :
    graph.LastWrite path object version → graph.locateFrom pool (fuel + 1) object path =
      match version with
      | .stored value => .ok (.stored value)
      | .within value rest => graph.locateFrom pool fuel value rest
      | .initial => .ok (.initial field)
      | .undecided => .ok (.load object path field) := by
  intro last
  obtain ⟨whole, typed, -, -⟩ := (fieldType_eq_ok_iff graph pool object path field).mp found
  rw [locateFrom, found, last.found backward (Nat.lt_succ_of_lt (lt_of_type? typed))]
  cases version <;> rfl

theorem LastWrite.within_found (coherent : graph.Coherent pool) {object value : ValueId}
    {path rest : Path} (last : graph.LastWrite path object (.within value rest)) {field : TypeId}
    (found : graph.fieldType pool object path = .ok field) :
    rest.length < path.length ∧ graph.fieldType pool value rest = .ok field := by
  obtain ⟨whole, typed, -, reached⟩ := (fieldType_eq_ok_iff graph pool object path field).mp found
  obtain ⟨more, shorter, inner, valueTyped, innerReached⟩ := last.typed coherent typed reached
  have innerFound := (fieldType_eq_ok_iff graph pool value rest field).mpr
    ⟨inner, valueTyped, more, innerReached⟩
  exact ⟨shorter, innerFound⟩

/-- A read further inside goes on with a shorter path, so the search ends and it finds an answer
wherever the path leads to a field. -/
theorem Coherent.locateFrom_found (coherent : graph.Coherent pool) (fuel : Nat) {object : ValueId}
    {path : Path} {whole field : TypeId} (typed : graph.type? object = some whole)
    (some : path ≠ []) (reached : pool.fieldAt? whole path = .some field)
    (enough : path.length < fuel) :
    ∃ answer, graph.locateFrom pool fuel object path = .ok answer ∧
      graph.Located pool object path answer := by
  -- Whether the fuel is enough is a matter of the path alone: the walk along versions has its own.
  induction fuel generalizing object path whole with
  | zero => exact absurd enough (Nat.not_lt_zero _)
  | succ fuel ih =>
      obtain ⟨version, -, last⟩ := coherent.backward.lastWrite_found path (object + 1) object
        (lt_of_type? typed) (Nat.lt_succ_self object)
      have found := (fieldType_eq_ok_iff graph pool object path field).mpr
        ⟨whole, typed, some, reached⟩
      have versionTyped := last.typed coherent typed reached
      rw [coherent.backward.locateFrom_eq found fuel last]
      cases version with
      | stored value => exact ⟨.stored value, rfl, .stored last⟩
      | initial => exact ⟨.initial field, rfl, .initial last typed reached⟩
      | undecided => exact ⟨.load object path field, rfl, .load last typed reached⟩
      | within value rest =>
          obtain ⟨more, shorter, inner, valueTyped, innerReached⟩ := versionTyped
          obtain ⟨answer, located, innerLocated⟩ :=
            ih valueTyped more innerReached (by omega)
          exact ⟨answer, located, .within last innerLocated⟩

theorem Coherent.locateFrom_enough (coherent : graph.Coherent pool) {fuel more : Nat}
    {object : ValueId} {path : Path} {field : TypeId}
    (found : graph.fieldType pool object path = .ok field)
    (enough : path.length < fuel) (still : path.length < more) :
    graph.locateFrom pool fuel object path = graph.locateFrom pool more object path := by
  induction fuel generalizing object path more with
  | zero => exact absurd enough (Nat.not_lt_zero _)
  | succ fuel ih =>
      obtain ⟨more, rfl⟩ := Nat.exists_eq_add_of_lt still
      obtain ⟨whole, typed, -, -⟩ := (fieldType_eq_ok_iff graph pool object path field).mp found
      obtain ⟨version, -, last⟩ := coherent.backward.lastWrite_found path (object + 1) object
        (lt_of_type? typed) (Nat.lt_succ_self object)
      rw [coherent.backward.locateFrom_eq found fuel last,
        coherent.backward.locateFrom_eq found _ last]
      cases version with
      | within value rest =>
          obtain ⟨shorter, inner⟩ := last.within_found coherent found
          exact ih inner (by omega) (by omega)
      | _ => rfl

theorem steps_lt {object : ValueId} {type : TypeId} (typed : graph.type? object = some type)
    (path : Path) : path.length < graph.size * path.length + 1 := by
  have populated : 0 < graph.size := Nat.lt_of_le_of_lt (Nat.zero_le _) (lt_of_type? typed)
  exact Nat.lt_succ_of_le (Nat.le_mul_of_pos_left path.length populated)

theorem Coherent.locate_found (coherent : graph.Coherent pool) {object : ValueId} {path : Path}
    {whole field : TypeId} (typed : graph.type? object = some whole) (some : path ≠ [])
    (reached : pool.fieldAt? whole path = .some field) :
    ∃ answer, graph.locate pool object path = .ok answer ∧
      graph.Located pool object path answer :=
  coherent.locateFrom_found _ typed some reached (steps_lt typed path)

theorem Coherent.locate_within (coherent : graph.Coherent pool) {object value : ValueId}
    {path rest : Path} {field : TypeId} (found : graph.fieldType pool object path = .ok field)
    (last : graph.LastWrite path object (.within value rest)) :
    graph.locate pool object path = graph.locate pool value rest := by
  obtain ⟨whole, typed, -, -⟩ := (fieldType_eq_ok_iff graph pool object path field).mp found
  obtain ⟨shorter, inner⟩ := last.within_found coherent found
  obtain ⟨part, partTyped, -, -⟩ := (fieldType_eq_ok_iff graph pool value rest field).mp inner
  have room := steps_lt typed path
  unfold locate
  rw [coherent.backward.locateFrom_eq found _ last]
  exact coherent.locateFrom_enough inner (by omega) (steps_lt partTyped rest)

/-- What is wrong with the field is found out before any version is looked at. -/
theorem locate_of_fieldType_error {object : ValueId} {path : Path} {cause : Failure}
    (wrong : graph.fieldType pool object path = .error cause) :
    graph.locate pool object path = .error cause := by
  unfold locate locateFrom
  rw [wrong]
  rfl

theorem fieldType_lt (ordered : pool.Ordered) {object : ValueId} {path : Path} {field : TypeId}
    (found : graph.fieldType pool object path = .ok field) : field < pool.size := by
  obtain ⟨whole, -, some, reached⟩ := (fieldType_eq_ok_iff graph pool object path field).mp found
  cases path with
  | nil => exact absurd rfl some
  | cons index path =>
      obtain ⟨fields, next, stored, -, -⟩ :=
        (Pool.fieldAt?_cons_iff pool whole field index path).mp reached
      exact ordered.fieldAt?_lt (lt_of_stored stored) reached

theorem older_of_fieldType {object : ValueId} {path : Path} {field : TypeId}
    (found : graph.fieldType pool object path = .ok field) :
    ∀ operand ∈ (ValueKind.read object path).operands, operand < graph.size := by
  intro operand used
  obtain ⟨whole, typed, -, -⟩ := (fieldType_eq_ok_iff graph pool object path field).mp found
  cases List.mem_singleton.mp used
  exact lt_of_type? typed

def AnswerChecked (graph : Graph) (pool : Pool) : Answer → Prop
  | .stored _ => True
  | .initial type => ∃ object path, graph.fieldType pool object path = .ok type
  | .load object path type => graph.fieldType pool object path = .ok type

theorem locateFrom_checked {fuel : Nat} {object : ValueId} {path : Path} {answer : Answer}
    (located : graph.locateFrom pool fuel object path = .ok answer) :
    graph.AnswerChecked pool answer := by
  induction fuel generalizing object path with
  | zero => cases located
  | succ fuel ih =>
      unfold locateFrom at located
      obtain ⟨field, found, located⟩ := (bind_eq_ok_iff _ _ answer).mp located
      obtain ⟨version, -, located⟩ := (bind_eq_ok_iff _ _ answer).mp located
      cases version with
      | stored value =>
          cases located
          trivial
      | within value rest => exact ih located
      | initial =>
          cases located
          exact ⟨object, path, found⟩
      | undecided =>
          cases located
          exact found

def AnswerTyped (graph : Graph) (pool : Pool) (field : TypeId) : Answer → Prop
  | .stored value => graph.type? value = some field
  | .initial type => type = field
  | .load object path type =>
      type = field ∧ path ≠ [] ∧
        ∃ whole, graph.type? object = some whole ∧ pool.fieldAt? whole path = some field

theorem Located.typed (coherent : graph.Coherent pool) {object : ValueId} {path : Path}
    {answer : Answer} (located : graph.Located pool object path answer) {whole field : TypeId}
    (typed : graph.type? object = some whole) (some : path ≠ [])
    (reached : pool.fieldAt? whole path = .some field) : graph.AnswerTyped pool field answer := by
  induction located generalizing whole with
  | stored last => exact last.typed coherent typed reached
  | within last inner ih =>
      obtain ⟨more, -, wholeInner, valueTyped, innerReached⟩ := last.typed coherent typed reached
      exact ih valueTyped more innerReached
  | initial last found there =>
      rw [typed] at found
      cases found
      rw [reached] at there
      cases there
      rfl
  | load last found there =>
      rw [typed] at found
      cases found
      rw [reached] at there
      cases there
      exact ⟨rfl, some, _, typed, reached⟩

def AnswerHolds (graph : Graph) (pool : Pool) (parameters : Assignment) (part : Option Datum) :
    Answer → Prop
  | .stored value => part = some (graph.denote pool parameters value)
  | .initial type => part = some (pool.defaultOf type)
  | .load object path _ => part = (graph.denote pool parameters object).at? path

theorem Located.holds (valid : graph.Valid pool) (ordered : pool.Ordered)
    (assigns : graph.Assigns pool parameters) {object : ValueId} {path : Path} {answer : Answer}
    (located : graph.Located pool object path answer) {whole field : TypeId}
    (typed : graph.type? object = some whole) (reached : pool.fieldAt? whole path = some field) :
    graph.AnswerHolds pool parameters ((graph.denote pool parameters object).at? path) answer := by
  induction located generalizing whole with
  | stored last => exact last.holds valid ordered assigns typed reached
  | @within object value path rest answer last inner ih =>
      obtain ⟨-, -, wholeInner, valueTyped, innerReached⟩ :=
        last.typed valid.coherent typed reached
      have same : (graph.denote pool parameters object).at? path =
          (graph.denote pool parameters value).at? rest :=
        last.holds valid ordered assigns typed reached
      rw [same]
      exact ih valueTyped innerReached
  | initial last found there =>
      rw [typed] at found
      cases found
      exact last.holds valid ordered assigns typed there
  | load last found there => rfl

end KernelIR.Graph

namespace KernelIR.Builder

def appended (builder : Builder) (kind : ValueKind) (type : TypeId) : Builder :=
  { builder with graph := builder.graph.append kind type builder.block }

theorem append_of_placed {builder : Builder} (placed : builder.block < builder.graph.blocks.length)
    (kind : ValueKind) (type : TypeId) :
    append kind type builder = .ok builder.graph.size (builder.appended kind type) := by
  unfold append
  rw [if_pos placed]
  rfl

theorem append_eq_ok {builder later : Builder} {kind : ValueKind} {type : TypeId} {result : ValueId}
    (ok : append kind type builder = .ok result later) :
    builder.block < builder.graph.blocks.length ∧ result = builder.graph.size ∧
      later = builder.appended kind type := by
  unfold append at ok
  split at ok
  · next placed =>
      cases ok
      exact ⟨placed, rfl, rfl⟩
  · cases ok

theorem appended_grows (builder : Builder) (kind : ValueKind) (type : TypeId) :
    builder.graph.values <+: (builder.appended kind type).graph.values :=
  List.prefix_append _ _

theorem appended_placed {builder : Builder} (placed : builder.block < builder.graph.blocks.length)
    (kind : ValueKind) (type : TypeId) :
    (builder.appended kind type).block < (builder.appended kind type).graph.blocks.length :=
  Nat.lt_of_lt_of_eq placed (List.length_modify ..).symm

theorem appended_size (builder : Builder) (kind : ValueKind) (type : TypeId) :
    (builder.appended kind type).graph.size = builder.graph.size + 1 := List.length_append

theorem appended_stored (builder : Builder) (kind : ValueKind) (type : TypeId) :
    (builder.appended kind type).graph.values[builder.graph.size]? =
      some ⟨kind, type, builder.block⟩ :=
  (stored_snoc_iff builder.graph.values _ _ _).mpr (.inr ⟨rfl, rfl⟩)

theorem appended_type (builder : Builder) (kind : ValueKind) (type : TypeId) :
    (builder.appended kind type).graph.type? builder.graph.size = some type :=
  (Graph.type?_eq_some_iff _ _ type).mpr ⟨_, appended_stored builder kind type, rfl⟩

theorem appended_kind (builder : Builder) (kind : ValueKind) (type : TypeId) :
    (builder.appended kind type).graph.kind? builder.graph.size = some kind :=
  congrArg (Option.map Value.kind) (appended_stored builder kind type)

theorem denote_appended {builder : Builder} (valid : builder.graph.Valid builder.pool)
    (parameters : Assignment) {kind : ValueKind} (type : TypeId)
    (older : ∀ operand ∈ kind.operands, operand < builder.graph.size) :
    (builder.appended kind type).graph.denote builder.pool parameters builder.graph.size =
      Value.meaning builder.pool parameters builder.graph.size
        (builder.graph.denote builder.pool parameters) ⟨kind, type, builder.block⟩ := by
  rw [Graph.denote_of_stored (appended_stored builder kind type) older]
  apply Value.meaning_congr
  intro operand used
  exact valid.denote_of_grown (appended_grows builder kind type) List.prefix_rfl
    (older operand used)

def answered (builder : Builder) : Answer → Outcome Builder ValueId
  | .stored value => .ok value builder
  | .initial type => .ok builder.graph.size (builder.appended .null type)
  | .load object path type =>
      .ok builder.graph.size (builder.appended (.read object path) type)

theorem answered_ok (builder : Builder) (answer : Answer) :
    ∃ result later, builder.answered answer = .ok result later := by
  cases answer with
  | stored value => exact ⟨_, _, rfl⟩
  | initial type => exact ⟨_, _, rfl⟩
  | load object path type => exact ⟨_, _, rfl⟩

theorem read_of_located {builder : Builder} (placed : builder.block < builder.graph.blocks.length)
    {object : ValueId} {path : Path} {answer : Answer}
    (found : builder.graph.locate builder.pool object path = .ok answer) :
    read object path builder = builder.answered answer := by
  unfold read
  rw [Build.bind_apply]
  simp only [Build.ask, found]
  cases answer with
  | stored value => rfl
  | initial type => exact append_of_placed placed .null type
  | load object path type => exact append_of_placed placed (.read object path) type

theorem read_found {builder : Builder} (coherent : builder.graph.Coherent builder.pool)
    (placed : builder.block < builder.graph.blocks.length) {object : ValueId} {path : Path}
    {field : TypeId} (found : builder.graph.fieldType builder.pool object path = .ok field) :
    ∃ answer, read object path builder = builder.answered answer ∧
      builder.graph.Located builder.pool object path answer := by
  obtain ⟨whole, typed, some, reached⟩ :=
    (Graph.fieldType_eq_ok_iff builder.graph builder.pool object path field).mp found
  obtain ⟨answer, located, last⟩ := coherent.locate_found typed some reached
  exact ⟨answer, read_of_located placed located, last⟩

theorem read_of_fieldType_error {builder : Builder} {object : ValueId} {path : Path}
    {cause : BuildError}
    (wrong : builder.graph.fieldType builder.pool object path = .error (.error cause)) :
    read object path builder = .error cause builder := by
  unfold read
  rw [Build.bind_apply]
  simp only [Build.ask, Graph.locate_of_fieldType_error wrong]

theorem fieldType_of_read_ok {builder later : Builder} {object result : ValueId} {path : Path}
    (ok : read object path builder = .ok result later) :
    ∃ field, builder.graph.fieldType builder.pool object path = .ok field := by
  cases wrong : builder.graph.fieldType builder.pool object path with
  | ok field => exact ⟨field, rfl⟩
  | error cause =>
      unfold read at ok
      rw [Build.bind_apply] at ok
      simp only [Build.ask, Graph.locate_of_fieldType_error wrong] at ok
      cases cause <;> cases ok

theorem answered_denotes {builder later : Builder} (valid : builder.graph.Valid builder.pool)
    {parameters : Assignment} {answer : Answer} {field : TypeId} {part : Option Datum}
    (present : part.isSome) (typed : builder.graph.AnswerTyped builder.pool field answer)
    (holds : builder.graph.AnswerHolds builder.pool parameters part answer) {result : ValueId}
    (ok : builder.answered answer = .ok result later) :
    part = some (later.graph.denote later.pool parameters result) := by
  cases answer with
  | stored value =>
      cases ok
      exact holds
  | initial type =>
      cases ok
      apply holds.trans
      have noOperand : ∀ operand ∈ ValueKind.null.operands, operand < builder.graph.size :=
        List.forall_mem_nil _
      exact congrArg some (denote_appended valid parameters type noOperand).symm
  | load object path type =>
      cases ok
      obtain ⟨-, -, whole, objectTyped, -⟩ := typed
      have older : ∀ operand ∈ (ValueKind.read object path).operands,
          operand < builder.graph.size := by
        intro operand used
        cases List.mem_singleton.mp used
        exact Graph.lt_of_type? objectTyped
      have computed := denote_appended valid parameters type older
      obtain ⟨datum, same⟩ := Option.isSome_iff_exists.mp present
      have read : (builder.graph.denote builder.pool parameters object).at? path = some datum :=
        holds.symm.trans same
      rw [same]
      refine congrArg some (Eq.trans ?_ computed.symm)
      simp only [Value.meaning, read, Option.getD_some]

theorem answered_typed {builder later : Builder} {answer : Answer} {field : TypeId}
    (typed : builder.graph.AnswerTyped builder.pool field answer) {result : ValueId}
    (ok : builder.answered answer = .ok result later) : later.graph.type? result = some field := by
  cases answer with
  | stored value =>
      cases ok
      exact typed
  | initial type =>
      cases ok
      cases typed
      exact appended_type builder .null _
  | load object path type =>
      cases ok
      obtain ⟨rfl, -, -⟩ := typed
      exact appended_type builder _ type

/-- Whatever a read gives in a valid graph, an older value or a new one, stands for the part of the
object at the path, for all data of the parameters. -/
theorem read_denotes_part {builder later : Builder}
    (clean : builder.graph.verify builder.pool = []) (ordered : builder.pool.Ordered)
    (placed : builder.block < builder.graph.blocks.length) {object result : ValueId} {path : Path}
    (ok : read object path builder = .ok result later) :
    result < later.graph.size ∧ ∀ parameters, builder.graph.Assigns builder.pool parameters →
      (builder.graph.denote builder.pool parameters object).at? path =
        some (later.graph.denote later.pool parameters result) := by
  have valid := (Graph.verify_eq_nil_iff builder.graph builder.pool).mp clean
  obtain ⟨field, found⟩ := fieldType_of_read_ok ok
  obtain ⟨answer, outcome, located⟩ := read_found valid.coherent placed found
  obtain ⟨whole, typed, some, reached⟩ :=
    (Graph.fieldType_eq_ok_iff builder.graph builder.pool object path field).mp found
  have answerTyped := located.typed valid.coherent typed some reached
  have ended := outcome.symm.trans ok
  refine ⟨Graph.lt_of_type? (answered_typed answerTyped ended), ?_⟩
  intro parameters assigns
  obtain ⟨part, present, -⟩ := (valid.denote_typed ordered assigns object whole typed).at? reached
  exact answered_denotes valid (Option.isSome_of_eq_some present) answerTyped
    (located.holds valid ordered assigns typed reached) ended

/-- A field of a replaced field, behind a write elsewhere, is read from the value that replaced
it. -/
theorem read_inside_replaced_field :
    let pool := ((Pool.scalars.intern [4]).2.intern [9, 4]).2
    let builder : Builder :=
      ⟨⟨[⟨.parameter 0, 10, 0⟩, ⟨.parameter 1, 4, 0⟩, ⟨.parameter 2, 9, 0⟩, ⟨.write 0 [0] 2, 10, 0⟩,
        ⟨.write 3 [1] 1, 10, 0⟩], [[0, 1, 2, 3, 4]], 3⟩, pool, 0⟩
    let later := builder.appended (.read 2 [0]) 4
    read 4 [0, 0] builder = .ok 5 later ∧
      (builder.graph.denote pool (builder.graph.defaultInputs pool) 4).at? [0, 0] =
        some (later.graph.denote pool (builder.graph.defaultInputs pool) 5) := by
  intro pool builder later
  have single := Pool.scalars_wellFormed.intern
    (by decide : ∀ field ∈ [4], field < Pool.scalars.size)
  have nested := single.intern
    (by decide : ∀ field ∈ [9, 4], field < (Pool.scalars.intern [4]).2.size)
  have clean : builder.graph.verify builder.pool = [] := by decide
  have valid := (Graph.verify_eq_nil_iff builder.graph pool).mp clean
  have ok : read 4 [0, 0] builder = .ok 5 later := rfl
  exact ⟨ok, (read_denotes_part clean nested.ordered Nat.one_pos ok).2 _
    (valid.defaultInputs_assigns nested.ordered)⟩

end KernelIR.Builder
