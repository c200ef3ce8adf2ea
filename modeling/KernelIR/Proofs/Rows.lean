import KernelIR.Graph.Dump
import KernelIR.Proofs.Literals
import KernelIR.Proofs.Texts

/-!
The rows of a dump, one for each block and one for each value under the block that lists it. No row
holds a line feed, and no type a sign of equality, so a row and its parts are known by its text; and
blocks are known by their rows, since a block goes on until the row of the next one.
-/

set_option autoImplicit false

namespace KernelIR

namespace TypeTree

/-- Characters that texts of types do without: those that end them in a dump, or end its lines. -/
def Ending (c : Char) : Prop := c = '=' ∨ c = '\n'

instance (c : Char) : Decidable (Ending c) := inferInstanceAs (Decidable (_ ∨ _))

theorem leaf_no_ending {tree : TypeTree} (leaf : tree.Leaf) :
    ∀ c ∈ tree.text.toList, ¬ Ending c := by
  cases leaf with
  | scalar type => cases type <;> simp [text, ScalarType.name, Ending]
  | unknown id =>
      have digits : ∀ c : Char, c.isDigit = true → ¬ Ending c := by
        rintro c digit (rfl | rfl)
        · exact absurd digit (by decide)
        · exact absurd digit (by decide)
      exact forall_mem_unknownText id (by simp [Ending]) (by simp [Ending]) digits

mutual

theorem text_no_ending (tree : TypeTree) : ∀ c ∈ tree.text.toList, ¬ Ending c := by
  cases tree with
  | unknown id => exact leaf_no_ending (.unknown id)
  | scalar type => exact leaf_no_ending (.scalar type)
  | record fields =>
      intro c member
      simp only [text, String.toList_append, List.mem_append] at member
      rcases member with (opening | inside) | closing
      · rw [List.mem_singleton.mp opening]
        decide
      · exact fields_no_ending fields c inside
      · rw [List.mem_singleton.mp closing]
        decide

theorem fields_no_ending (fields : List TypeTree) : ∀ c ∈ (listText fields).toList, ¬ Ending c := by
  match fields with
  | [] => simp [listText]
  | [tree] =>
      rw [listText]
      exact text_no_ending tree
  | tree :: next :: trees =>
      intro c member
      have comma : ∀ c ∈ ", ".toList, ¬ Ending c := by simp [Ending]
      simp only [listText, String.toList_append, List.mem_append] at member
      rcases member with (first | between) | rest
      · exact text_no_ending tree c first
      · exact comma c between
      · exact fields_no_ending (next :: trees) c rest

end

theorem text_oneLine (tree : TypeTree) : OneLine tree.text :=
  fun member => tree.text_no_ending _ member (.inr rfl)

theorem text_no_equality (tree : TypeTree) : '=' ∉ tree.text.toList :=
  fun member => tree.text_no_ending _ member (.inl rfl)

end TypeTree

inductive Row where
  | block (index : BlockId)
  | value (id : ValueId) (type : TypeTree) (computes : String)

namespace Row

def text : Row → String
  | .block index => "block " ++ toString index ++ ":"
  | .value id type computes =>
      "  " ++ ValueId.text id ++ ": " ++ type.text ++ " = " ++ computes

def IsValue : Row → Prop
  | .block _ => False
  | .value _ _ _ => True

def subject : Row → Nat
  | .block index => index
  | .value id _ _ => id

def Whole : Row → Prop
  | .block _ => True
  | .value _ _ computes => OneLine computes

theorem text_oneLine {row : Row} (whole : row.Whole) : OneLine row.text := by
  cases row with
  | block index =>
      have start : OneLine "block " := by decide
      exact (start.append (number_oneLine index)).append (by decide)
  | value id type computes =>
      have start : OneLine "  " := by decide
      have colon : OneLine ": " := by decide
      have equality : OneLine " = " := by decide
      have named : OneLine (ValueId.text id) := OneLine.append (by decide) (number_oneLine id)
      have typed := ((start.append named).append colon).append type.text_oneLine
      exact (typed.append equality).append whole

theorem block_toList (index : BlockId) :
    (block index).text.toList = "block ".toList ++ ((toString index).toList ++ [':']) := by
  simp [text]

theorem value_toList (id : ValueId) (type : TypeTree) (computes : String) :
    (value id type computes).text.toList =
      ' ' :: ' ' :: '%' :: ((toString id).toList ++
        ':' :: ' ' :: ((type.text.toList ++ [' ']) ++ '=' :: ' ' :: computes.toList)) := by
  simp [text, ValueId.text]

theorem block_ne_value (index : BlockId) (id : ValueId) (type : TypeTree) (computes : String) :
    (block index).text ≠ (value id type computes).text := by
  intro same
  have lists := congrArg String.toList same
  rw [block_toList, value_toList] at lists
  simp at lists

theorem text_injective {row other : Row} (same : row.text = other.text) : row = other := by
  have colon : ':'.isDigit = false := by decide
  have lists := congrArg String.toList same
  cases row with
  | block index =>
      cases other with
      | block twin =>
          rw [block_toList, block_toList] at lists
          have numbers := List.append_cancel_left lists
          rw [(number_marked_injective colon numbers).1]
      | value id type computes => exact absurd same (block_ne_value index id type computes)
  | value id type computes =>
      cases other with
      | block twin => exact absurd same.symm (block_ne_value twin id type computes)
      | value id' type' computes' =>
          rw [value_toList, value_toList] at lists
          injection lists with _ lists
          injection lists with _ lists
          injection lists with _ named
          obtain ⟨rfl, behind⟩ := number_marked_injective colon named
          injection behind with _ typed
          have noEquality (tree : TypeTree) : '=' ∉ tree.text.toList ++ [' '] := by
            simp [tree.text_no_equality]
          obtain ⟨types, kinds⟩ := marked_append_injective (noEquality type) (noEquality type') typed
          injection kinds with _ kinds
          rw [TypeTree.text_injective (String.toList_inj.mp (List.append_cancel_right types)),
            String.toList_inj.mp kinds]

def ofBlocks (row : ValueId → Row) (blocks : List (List ValueId)) (start : Nat) : List Row :=
  (blocks.zipIdx start).flatMap fun entry => .block entry.2 :: entry.1.map row

theorem ofBlocks_cons (row : ValueId → Row) (ids : List ValueId) (blocks : List (List ValueId))
    (start : Nat) :
    ofBlocks row (ids :: blocks) start =
      .block start :: (ids.map row ++ ofBlocks row blocks (start + 1)) := by
  unfold ofBlocks
  rw [List.zipIdx_cons, List.flatMap_cons, List.cons_append]

theorem ofBlocks_ends (row : ValueId → Row) (blocks : List (List ValueId)) (start : Nat) :
    ∀ first ∈ (ofBlocks row blocks start).head?, ¬ first.IsValue := by
  intro first member
  cases blocks with
  | nil => cases member
  | cons ids blocks =>
      rw [ofBlocks_cons] at member
      cases member
      exact id

/-- The blocks are known by their rows, and each value that they list by its own row. -/
theorem ofBlocks_injective {row row' : ValueId → Row}
    (own : ∀ id, (row id).IsValue ∧ (row id).subject = id)
    (own' : ∀ id, (row' id).IsValue ∧ (row' id).subject = id)
    {blocks others : List (List ValueId)} {start : Nat}
    (same : ofBlocks row blocks start = ofBlocks row' others start) :
    blocks = others ∧ ∀ ids ∈ blocks, ∀ id ∈ ids, row id = row' id := by
  have values {row : ValueId → Row} (own : ∀ id, (row id).IsValue ∧ (row id).subject = id)
      (ids : List ValueId) : ∀ first ∈ ids.map row, first.IsValue := by
    intro first member
    obtain ⟨id, -, rfl⟩ := List.mem_map.mp member
    exact (own id).1
  have subjects {row : ValueId → Row} (own : ∀ id, (row id).IsValue ∧ (row id).subject = id)
      (ids : List ValueId) : (ids.map row).map subject = ids := by
    rw [List.map_map]
    exact List.map_id'' (fun id => (own id).2) ids
  induction blocks generalizing others start with
  | nil =>
      cases others with
      | nil => exact ⟨rfl, List.forall_mem_nil _⟩
      | cons ids others =>
          rw [ofBlocks_cons] at same
          cases same
  | cons ids blocks ih =>
      cases others with
      | nil =>
          rw [ofBlocks_cons] at same
          cases same
      | cons twins others =>
          rw [ofBlocks_cons, ofBlocks_cons] at same
          injection same with _ same
          -- The values of the first block end where the row of the next block begins.
          obtain ⟨first, rest⟩ := word_append_injective (values own ids) (values own' twins)
            (ofBlocks_ends row blocks (start + 1)) (ofBlocks_ends row' others (start + 1)) same
          have listed := congrArg (List.map subject) first
          rw [subjects own, subjects own'] at listed
          rw [← listed] at first
          obtain ⟨equal, rows⟩ := ih rest
          rw [← listed, equal]
          refine ⟨rfl, ?_⟩
          rw [List.forall_mem_cons]
          exact ⟨List.map_inj_left.mp first, equal ▸ rows⟩

end Row

end KernelIR
