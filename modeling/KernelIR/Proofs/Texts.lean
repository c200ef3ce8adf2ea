import KernelIR.Proofs.Sharing
import KernelIR.Proofs.Words
import Mathlib

/-!
Texts of types can be read back. Names of types have no comma and no brace in them, so a name ends
where what follows it begins, a structure ends at the brace that closes it, and a tree is known by
its text. Main statement: in every pool made from the scalar types by interning and by rollbacks to
any marks, each handle has a text, also one that the pool does not have, and no two handles have
the same; so a write that is refused never reports the same text for two types.
-/

set_option autoImplicit false

namespace KernelIR

theorem ScalarType.name_injective {type other : ScalarType} (same : type.name = other.name) :
    type = other := by
  have first : ∀ type : ScalarType, all.find? (fun own => own.name = type.name) = some type := by
    intro type
    cases type <;> decide
  have found := first type
  rw [same, first other] at found
  exact (Option.some.inj found).symm

theorem Pool.unknownText_injective {id other : TypeId}
    (same : unknownText id = unknownText other) : id = other := by
  unfold unknownText at same
  rw [String.append_left_inj, String.append_right_inj] at same
  exact Nat.repr_injective same

namespace TypeTree

def Letter (c : Char) : Prop := c ≠ ',' ∧ c ≠ '\x7b' ∧ c ≠ '\x7d'

instance (c : Char) : Decidable (Letter c) := inferInstanceAs (Decidable (_ ∧ _ ∧ _))

def Boundary (rest : List Char) : Prop := ∀ c ∈ rest.head?, ¬ Letter c

theorem boundary_nil : Boundary [] := by
  intro c member
  cases member

theorem boundary_cons {c : Char} (sign : ¬ Letter c) (rest : List Char) : Boundary (c :: rest) := by
  intro first member
  cases member
  exact sign

inductive Leaf : TypeTree → Prop
  | unknown (id : TypeId) : Leaf (.unknown id)
  | scalar (type : ScalarType) : Leaf (.scalar type)

theorem leaf_or_record (tree : TypeTree) : tree.Leaf ∨ ∃ fields, tree = .record fields := by
  cases tree with
  | unknown id => exact .inl (.unknown id)
  | scalar type => exact .inl (.scalar type)
  | record fields => exact .inr ⟨fields, rfl⟩

theorem digit_letter {c : Char} (digit : c.isDigit = true) : Letter c := by
  refine ⟨?_, ?_, ?_⟩
  all_goals
    rintro rfl
    exact absurd digit (by decide)

theorem forall_mem_unknownText {Holds : Char → Prop} (id : TypeId)
    (before : ∀ c ∈ "<unknown type ".toList, Holds c) (after : ∀ c ∈ ">".toList, Holds c)
    (digits : ∀ c : Char, c.isDigit = true → Holds c) :
    ∀ c ∈ (Pool.unknownText id).toList, Holds c := by
  intro c member
  simp only [Pool.unknownText, String.toList_append, List.mem_append] at member
  rcases member with (early | digit) | late
  · exact before c early
  · exact digits c (number_digits c digit)
  · exact after c late

theorem unknownText_letters (id : TypeId) : ∀ c ∈ (Pool.unknownText id).toList, Letter c :=
  forall_mem_unknownText id (by simp [Letter]) (by simp [Letter]) fun _ => digit_letter

theorem unknownText_head (id : TypeId) : (Pool.unknownText id).toList.head? = some '<' := by
  simp [Pool.unknownText]

theorem name_ne_unknownText (type : ScalarType) (id : TypeId) :
    type.name ≠ Pool.unknownText id := by
  intro same
  have head := unknownText_head id
  rw [← same] at head
  cases type <;> simp [ScalarType.name] at head

theorem record_text (fields : List TypeTree) (rest : List Char) :
    (record fields).text.toList ++ rest =
      '\x7b' :: ((listText fields).toList ++ '\x7d' :: rest) := by
  simp [text]

namespace Leaf

variable {tree other : TypeTree} {rest rest' : List Char}

theorem letters (leaf : tree.Leaf) : ∀ c ∈ tree.text.toList, Letter c := by
  cases leaf with
  | unknown id => exact unknownText_letters id
  | scalar type => cases type <;> simp [text, ScalarType.name, Letter]

theorem text_ne_nil (leaf : tree.Leaf) : tree.text.toList ≠ [] := by
  cases leaf with
  | unknown id => simp [text, Pool.unknownText]
  | scalar type => cases type <;> simp [text, ScalarType.name]

theorem text_injective (leaf : tree.Leaf) (otherLeaf : other.Leaf) (same : tree.text = other.text) :
    tree = other := by
  cases leaf with
  | unknown id =>
      cases otherLeaf with
      | unknown twin => rw [Pool.unknownText_injective same]
      | scalar type => exact absurd same.symm (name_ne_unknownText type id)
  | scalar type =>
      cases otherLeaf with
      | unknown id => exact absurd same (name_ne_unknownText type id)
      | scalar twin => rw [ScalarType.name_injective same]

theorem append_ne_sign (leaf : tree.Leaf) {c : Char} (sign : ¬ Letter c) :
    tree.text.toList ++ rest ≠ c :: rest' := by
  intro same
  cases word : tree.text.toList with
  | nil => exact leaf.text_ne_nil word
  | cons first others =>
      rw [word] at same
      injection same with head tail
      have letter := leaf.letters first (word ▸ List.mem_cons_self)
      exact sign (head ▸ letter)

theorem append_injective (leaf : tree.Leaf) (boundary : Boundary rest) (boundary' : Boundary rest')
    (same : tree.text.toList ++ rest = other.text.toList ++ rest') :
    tree = other ∧ rest = rest' := by
  rcases other.leaf_or_record with otherLeaf | ⟨fields, rfl⟩
  · obtain ⟨words, rests⟩ :=
      word_append_injective leaf.letters otherLeaf.letters boundary boundary' same
    exact ⟨leaf.text_injective otherLeaf (String.toList_inj.mp words), rests⟩
  · rw [record_text] at same
    exact absurd same (leaf.append_ne_sign (by decide))

end Leaf

def afterField : List TypeTree → List Char → List Char
  | [], rest => '\x7d' :: rest
  | fields, rest => ',' :: ' ' :: ((listText fields).toList ++ '\x7d' :: rest)

theorem boundary_afterField (fields : List TypeTree) (rest : List Char) :
    Boundary (afterField fields rest) := by
  cases fields with
  | nil => exact boundary_cons (by decide) _
  | cons field fields => exact boundary_cons (by decide) _

theorem listText_cons (field : TypeTree) (fields : List TypeTree) (rest : List Char) :
    (listText (field :: fields)).toList ++ '\x7d' :: rest =
      field.text.toList ++ afterField fields rest := by
  cases fields with
  | nil => rw [listText, afterField]
  | cons next fields => simp [listText, afterField]

theorem text_append_ne_close (tree : TypeTree) (rest rest' : List Char) :
    tree.text.toList ++ rest ≠ '\x7d' :: rest' := by
  rcases tree.leaf_or_record with leaf | ⟨fields, rfl⟩
  · exact leaf.append_ne_sign (by decide)
  · rw [record_text]
    simp

mutual

/-- The text of a type and what follows it are told apart. -/
theorem text_append_injective (tree other : TypeTree) {rest rest' : List Char}
    (boundary : Boundary rest) (boundary' : Boundary rest')
    (same : tree.text.toList ++ rest = other.text.toList ++ rest') :
    tree = other ∧ rest = rest' := by
  cases tree with
  | unknown id => exact (Leaf.unknown id).append_injective boundary boundary' same
  | scalar type => exact (Leaf.scalar type).append_injective boundary boundary' same
  | record fields =>
      rcases other.leaf_or_record with leaf | ⟨others, rfl⟩
      · rw [record_text] at same
        exact absurd same.symm (leaf.append_ne_sign (by decide))
      · rw [record_text, record_text] at same
        injection same with _ inside
        obtain ⟨fieldsSame, rests⟩ := fields_append_injective fields others inside
        exact ⟨congrArg record fieldsSame, rests⟩

theorem fields_append_injective (fields others : List TypeTree) {rest rest' : List Char}
    (same : (listText fields).toList ++ '\x7d' :: rest =
      (listText others).toList ++ '\x7d' :: rest') : fields = others ∧ rest = rest' := by
  cases fields with
  | nil =>
      cases others with
      | nil =>
          injection same with _ rests
          exact ⟨rfl, rests⟩
      | cons other others =>
          rw [listText_cons] at same
          exact absurd same.symm (text_append_ne_close other _ rest)
  | cons tree fields =>
      cases others with
      | nil =>
          rw [listText_cons] at same
          exact absurd same (text_append_ne_close tree _ rest')
      | cons other others =>
          rw [listText_cons, listText_cons] at same
          -- After the first fields both texts close the structure, or both go on with a comma.
          obtain ⟨rfl, after⟩ := text_append_injective tree other
            (boundary_afterField fields rest) (boundary_afterField others rest') same
          cases fields with
          | nil =>
              cases others with
              | nil =>
                  injection after with _ rests
                  exact ⟨rfl, rests⟩
              | cons next others => simp [afterField] at after
          | cons next fields =>
              cases others with
              | nil => simp [afterField] at after
              | cons next' others =>
                  injection after with _ after
                  injection after with _ after
                  obtain ⟨fieldsSame, rests⟩ :=
                    fields_append_injective (next :: fields) (next' :: others) after
                  exact ⟨congrArg (tree :: ·) fieldsSame, rests⟩

end

theorem text_injective {tree other : TypeTree} (same : tree.text = other.text) : tree = other := by
  have whole : tree.text.toList ++ [] = other.text.toList ++ [] := by rw [same]
  exact (text_append_injective tree other boundary_nil boundary_nil whole).1

end TypeTree

/-- The texts of an error where a structure was wanted and a type without fields was met. -/
def WantsRecord (expected found : String) : Prop :=
  expected ∈ ["a structure type", "a structure value"] ∧
    ∃ leaf : TypeTree, leaf.Leaf ∧ found = leaf.text

theorem WantsRecord.differ {expected found : String} (wants : WantsRecord expected found) :
    expected ≠ found := by
  obtain ⟨phrase, leaf, isLeaf, rfl⟩ := wants
  intro same
  rw [same] at phrase
  cases isLeaf with
  | unknown id =>
      have first : ∀ text ∈ ["a structure type", "a structure value"],
          text.toList.head? ≠ some '<' := by simp
      exact first _ phrase (TypeTree.unknownText_head id)
  | scalar type => cases type <;> simp [TypeTree.text, ScalarType.name] at phrase

namespace Pool

variable {pool : Pool}

theorem fieldsOf_eq_error {id : TypeId} {found : String}
    (missing : pool.fieldsOf id = .error found) :
    ∃ leaf : TypeTree, leaf.Leaf ∧ found = leaf.text := by
  unfold fieldsOf at missing
  split at missing
  · cases missing
  · next type _ =>
      cases missing
      exact ⟨.scalar type, .scalar type, rfl⟩
  · cases missing
    exact ⟨.unknown id, .unknown id, rfl⟩

theorem walk_mismatch {whole path : Path} {id : TypeId} {expected found : String}
    (failed : pool.walk whole id path = .error (.typeMismatch expected found)) :
    WantsRecord expected found := by
  induction path generalizing id with
  | nil => cases failed
  | cons index path ih =>
      unfold walk at failed
      cases record : pool.fieldsOf id with
      | error other =>
          rw [record] at failed
          cases failed
          exact ⟨List.mem_cons_self, fieldsOf_eq_error record⟩
      | ok fields =>
          cases member : fields[index]? with
          | none =>
              simp only [record, member] at failed
              cases failed
          | some field =>
              simp only [record, member] at failed
              exact ih failed

theorem resolve_mismatch {path : Path} {id : TypeId} {expected found : String}
    (failed : pool.resolve id path = .error (.typeMismatch expected found)) :
    WantsRecord expected found := by
  unfold resolve at failed
  split at failed
  · cases failed
  · exact walk_mismatch failed

theorem Canonical.render?_injective (canonical : pool.Canonical) {id other : TypeId}
    (same : pool.render? id = pool.render? other) : id = other := by
  obtain ⟨tree, found⟩ := canonical.founded.tree?_found id
  obtain ⟨twin, twinFound⟩ := canonical.founded.tree?_found other
  unfold render? at same
  rw [found, twinFound] at same
  have equal : tree = twin := TypeTree.text_injective (Option.some.inj same)
  rw [equal] at found
  exact canonical.treeFrom?_injective found twinFound

/-- Pools made from the scalar types. Each field of a structure must be a type of the pool; a
rollback may go back to any mark. -/
inductive Made : Pool → Prop
  | scalars : Made Pool.scalars
  | intern {pool : Pool} (made : pool.Made) {fields : List TypeId}
      (known : ∀ field ∈ fields, field < pool.size) : Made (pool.intern fields).2
  | rollback {pool : Pool} (made : pool.Made) (mark : Nat) : Made (pool.rollback mark)

theorem Made.canonical (made : pool.Made) : pool.Canonical := by
  induction made with
  | scalars => exact scalars_wellFormed.canonical
  | intern _ known ih => exact ih.intern known
  | rollback _ mark ih => exact ih.rollback mark

theorem made_kept (given : Builder → TypeId → Prop) :
    Kept given fun before after => before.pool.Made → after.pool.Made where
  refl _ made := made
  trans first second made := second (first made)
  change changed made := by
    cases changed with
    | intern known => exact .intern made known
    | _ => exact made
  undone ran made := .rollback (ran made) _

end Pool

theorem Graph.fieldType_mismatch {graph : Graph} {pool : Pool} {object : ValueId} {path : Path}
    {expected found : String}
    (failed : graph.fieldType pool object path = .error (.error (.typeMismatch expected found))) :
    WantsRecord expected found := by
  unfold fieldType at failed
  rcases (bind_eq_error_iff _ _ _).mp failed with noObject | ⟨type, -, failed⟩
  · exact absurd noObject (Failure.lift_ne_error _ _)
  · cases record : pool.fieldsOf type with
    | error other =>
        rw [record] at failed
        cases failed
        exact ⟨List.mem_cons_of_mem _ List.mem_cons_self, Pool.fieldsOf_eq_error record⟩
    | ok fields =>
        rw [record] at failed
        cases resolved : pool.resolve type path with
        | ok field =>
            rw [resolved] at failed
            cases failed
        | error cause =>
            rw [resolved] at failed
            cases failed
            exact Pool.resolve_mismatch resolved

namespace Builder

variable {builder later : Builder} {object value : ValueId} {path : Path}

theorem render?_of_typeText {type : TypeId} {shown : String}
    (found : builder.typeText type = .ok shown) : builder.pool.render? type = some shown := by
  unfold typeText at found
  cases text : builder.pool.render? type with
  | none =>
      rw [text] at found
      cases found
  | some own =>
      rw [text] at found
      cases found
      rfl

theorem typeText_ne_error (type : TypeId) (cause : BuildError) :
    builder.typeText type ≠ .error (.error cause) := by
  unfold typeText
  cases builder.pool.render? type <;> simp

theorem writeType_mismatch {expected found : String}
    (failed : builder.writeType object path value =
      .error (.error (.typeMismatch expected found))) :
    WantsRecord expected found ∨ ∃ field type : TypeId, field ≠ type ∧
      builder.pool.render? field = some expected ∧ builder.pool.render? type = some found := by
  unfold writeType at failed
  rcases (bind_eq_error_iff _ _ _).mp failed with noField | ⟨field, -, failed⟩
  · exact .inl (Graph.fieldType_mismatch noField)
  rcases (bind_eq_error_iff _ _ _).mp failed with noValue | ⟨type, -, failed⟩
  · exact absurd noValue (Failure.lift_ne_error _ _)
  by_cases same : field = type
  · rw [if_pos same] at failed
    exact absurd failed (Failure.lift_ne_error _ _)
  · rw [if_neg same] at failed
    rcases (bind_eq_error_iff _ _ _).mp failed with hidden | ⟨wanted, first, failed⟩
    · exact absurd hidden (typeText_ne_error field _)
    rcases (bind_eq_error_iff _ _ _).mp failed with hidden | ⟨met, second, thrown⟩
    · exact absurd hidden (typeText_ne_error type _)
    cases thrown
    exact .inr ⟨field, type, same, render?_of_typeText first, render?_of_typeText second⟩

theorem writeType_of_write_error {cause : BuildError}
    (failed : write object path value builder = .error cause later) :
    builder.writeType object path value = .error (.error cause) := by
  unfold write at failed
  rw [Build.bind_apply] at failed
  unfold Build.ask at failed
  cases answer : builder.writeType object path value with
  | ok type =>
      simp only [answer, append] at failed
      split at failed <;> cases failed
  | error failure =>
      cases failure with
      | fault other =>
          simp only [answer] at failed
          cases failed
      | error other =>
          simp only [answer] at failed
          cases failed
          rfl

theorem write_mismatch_differs (canonical : builder.pool.Canonical) {expected found : String}
    (failed : write object path value builder = .error (.typeMismatch expected found) later) :
    expected ≠ found := by
  rcases writeType_mismatch (writeType_of_write_error failed) with
    wants | ⟨field, type, different, first, second⟩
  · exact wants.differ
  · rintro rfl
    exact different (canonical.render?_injective (first.trans second.symm))

end Builder

namespace Pool

/-- In a pool made from the scalar types every handle has a text, and handles with the same text
are the same; a write that is refused over any graph shows different texts for what was expected
and what was found; and the pools that builders make from it are again of this kind. -/
theorem types_render_unambiguously {pool : Pool} (made : pool.Made) :
    (∀ id : TypeId, ∃ text, pool.render? id = some text) ∧
      (∀ id other : TypeId, pool.render? id = pool.render? other ↔ id = other) ∧
      (∀ (graph : Graph) (block : BlockId) (object : ValueId) (path : Path) (value : ValueId)
        (expected found : String) (later : Builder),
        Builder.write object path value ⟨graph, pool, block⟩ =
            .error (.typeMismatch expected found) later → expected ≠ found) ∧
      ∀ (given : Builder → TypeId → Prop) (graph : Graph) (block : BlockId) (later : Builder),
        Reaches given ⟨graph, pool, block⟩ later → later.pool.Made := by
  have canonical := made.canonical
  refine ⟨canonical.founded.render?_found, ?_, ?_, ?_⟩
  · intro id other
    exact ⟨canonical.render?_injective, congrArg pool.render?⟩
  · intro graph block object path value expected found later failed
    exact Builder.write_mismatch_differs canonical failed
  · intro given graph block later reached
    exact reached.keeps (made_kept given) made

/-- Structures of empty structures, one of them made after a rollback. A write of the one that holds
an empty structure, where the empty structure itself is expected, shows both. -/
theorem nested_empty_structures_look_different :
    let first : Pool := ((scalars.intern []).2.intern [9, 9]).2
    let pool : Pool := (((first.rollback 10).intern [9]).2.intern [9, 10]).2
    let builder : Builder := ⟨(Graph.empty.append .null 11 0).append .null 10 0, pool, 0⟩
    let expected := "\x7b\x7d"
    let found := "\x7b\x7b\x7d\x7d"
    pool.Made ∧ Builder.write 0 [0] 1 builder = .error (.typeMismatch expected found) builder ∧
      expected ≠ found ∧ (pool.render? 10 = pool.render? 12 ↔ 10 = 12) := by
  intro first pool builder expected found
  have firstMade : first.Made := .intern (.intern .scalars (by decide)) (by decide)
  have made : pool.Made := .intern (.intern (.rollback firstMade 10) (by decide)) (by decide)
  have refused :
      Builder.write 0 [0] 1 builder = .error (.typeMismatch expected found) builder := rfl
  obtain ⟨-, injective, differ, -⟩ := types_render_unambiguously made
  exact ⟨made, refused, differ builder.graph 0 0 [0] 1 expected found builder refused,
    injective 10 12⟩

end Pool

end KernelIR
