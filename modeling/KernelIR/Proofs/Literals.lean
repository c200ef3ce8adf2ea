import KernelIR.Graph.Dump
import KernelIR.Proofs.Words

/-!
Constants, paths and kinds of values are known by their texts. The text of a constant does not name
its type, so it is read at a type. The wider floating-point types are left out: all their words that
are no number have one text. What a value computes is told by its mnemonic, numbers end at a blank or
a bracket, and a path at the bracket that closes it.
-/

set_option autoImplicit false

namespace KernelIR

theorem integer_oneLine (value : Int) : OneLine (toString value) := by
  rw [Int.toString_eq_repr, Int.repr_eq_if]
  split
  · exact number_oneLine _
  · exact OneLine.append (by decide) (number_oneLine _)

namespace Constant

def hexDigits : List Char := "0123456789abcdef".toList

def hexValue (digits : List Char) : Nat :=
  digits.foldl (fun value digit => 16 * value + hexDigits.idxOf digit) 0

theorem digitChar_place : ∀ digit < 16, hexDigits.idxOf (Nat.digitChar digit) = digit := by
  decide

theorem digitChar_mem : ∀ digit < 16, Nat.digitChar digit ∈ hexDigits := by
  decide

theorem hexValue_snoc (digits : List Char) (digit : Char) :
    hexValue (digits ++ [digit]) = 16 * hexValue digits + hexDigits.idxOf digit := by
  unfold hexValue
  rw [List.foldl_append, List.foldl_cons, List.foldl_nil]

theorem hexValue_zeros (count : Nat) (digits : List Char) :
    hexValue (List.replicate count '0' ++ digits) = hexValue digits := by
  induction count with
  | zero => rfl
  | succ count ih => exact ih

theorem hexValue_toDigits (number : Nat) : hexValue (Nat.toDigits 16 number) = number := by
  induction number using Nat.strongRecOn with
  | ind number ih =>
      rw [Nat.toDigits_eq_if (by decide)]
      split
      · next small =>
          have place := digitChar_place number small
          simp [hexValue, place]
      · next large =>
          have before := ih (number / 16) (by omega)
          rw [hexValue_snoc, before, digitChar_place _ (Nat.mod_lt number (by decide))]
          exact Nat.div_add_mod number 16

theorem mem_toDigits (number : Nat) : ∀ digit ∈ Nat.toDigits 16 number, digit ∈ hexDigits := by
  induction number using Nat.strongRecOn with
  | ind number ih =>
      rw [Nat.toDigits_eq_if (by decide)]
      intro digit member
      split at member
      · next small =>
          rw [List.mem_singleton.mp member]
          exact digitChar_mem number small
      · next large =>
          rcases List.mem_append.mp member with before | last
          · exact ih (number / 16) (by omega) digit before
          · rw [List.mem_singleton.mp last]
            exact digitChar_mem _ (Nat.mod_lt number (by decide))

theorem hex16_toList (bits : BitVec 16) :
    ∃ count, (hex16 bits).toList =
      '0' :: 'x' :: (List.replicate count '0' ++ Nat.toDigits 16 bits.toNat) :=
  ⟨_, String.toList_ofList⟩

theorem hex16_injective {bits other : BitVec 16} (same : hex16 bits = hex16 other) :
    bits = other := by
  obtain ⟨count, text⟩ := hex16_toList bits
  obtain ⟨count', text'⟩ := hex16_toList other
  rw [same, text'] at text
  injection text with _ text
  injection text with _ digits
  have values := congrArg hexValue digits
  rw [hexValue_zeros, hexValue_zeros, hexValue_toDigits, hexValue_toDigits] at values
  exact BitVec.eq_of_toNat_eq values.symm

theorem hex16_oneLine (bits : BitVec 16) : OneLine (hex16 bits) := by
  obtain ⟨count, text⟩ := hex16_toList bits
  unfold OneLine
  rw [text]
  intro member
  have noDigit : '\n' ∉ hexDigits := by decide
  have notInDigits : '\n' ∉ Nat.toDigits 16 bits.toNat := fun inside =>
    noDigit (mem_toDigits _ _ inside)
  simp [notInDigits] at member

theorem signed_text_injective {width : Nat} {value other : Signed width}
    (same : toString value.val = toString other.val) : value = other := by
  rw [Int.toString_eq_repr, Int.toString_eq_repr] at same
  exact Signed.ext_val (Int.repr_inj.mp same)

/-- Constants of which the text shows every bit. -/
def Exact (constant : Constant) : Prop := constant.type ≠ .f32 ∧ constant.type ≠ .f64

instance (constant : Constant) : Decidable constant.Exact := inferInstanceAs (Decidable (_ ∧ _))

variable {constant other : Constant}

theorem text_injective (exact : constant.Exact) (type : constant.type = other.type)
    (same : constant.text = other.text) : constant = other := by
  cases constant with
  | int1 value =>
      cases other with
      | int1 twin =>
          revert same
          cases value <;> cases twin <;> decide
      | _ => cases type
  | int8 value =>
      cases other with
      | int8 twin => rw [signed_text_injective same]
      | _ => cases type
  | int16 value =>
      cases other with
      | int16 twin => rw [signed_text_injective same]
      | _ => cases type
  | int32 value =>
      cases other with
      | int32 twin => rw [signed_text_injective same]
      | _ => cases type
  | int64 value =>
      cases other with
      | int64 twin => rw [signed_text_injective same]
      | _ => cases type
  | float16 bits =>
      cases other with
      | float16 twin => rw [hex16_injective same]
      | _ => cases type
  | float32 bits => exact absurd rfl exact.1
  | float64 bits => exact absurd rfl exact.2

/-- Two words that are no number. -/
example : (float32 0x7fc00000).text = (float32 0x7fc00001).text := by decide

theorem text_oneLine (exact : constant.Exact) : OneLine constant.text := by
  cases constant with
  | int1 value => cases value <;> decide
  | int8 value => exact integer_oneLine value.val
  | int16 value => exact integer_oneLine value.val
  | int32 value => exact integer_oneLine value.val
  | int64 value => exact integer_oneLine value.val
  | float16 bits => exact hex16_oneLine bits
  | float32 bits => exact absurd rfl exact.1
  | float64 bits => exact absurd rfl exact.2

end Constant

namespace Path

/-- What stands behind a step of a path, up to `rest`. -/
def afterStep : Path → List Char → List Char
  | [], rest => ']' :: rest
  | index :: path, rest => ',' :: ' ' :: ((toString index).toList ++ afterStep path rest)

theorem text_nil (rest : List Char) : (text []).toList ++ rest = '[' :: ']' :: rest := by
  simp [text]

theorem steps_text (index : Nat) (path : Path) (rest : List Char) :
    (", ".intercalate ((index :: path).map toString)).toList ++ ']' :: rest =
      (toString index).toList ++ afterStep path rest := by
  induction path generalizing index with
  | nil => simp [afterStep]
  | cons next path ih =>
      rw [List.map_cons, List.map_cons, String.intercalate_cons_cons, ← List.map_cons, afterStep,
        ← ih next]
      simp

theorem text_cons (index : Nat) (path : Path) (rest : List Char) :
    (text (index :: path)).toList ++ rest =
      '[' :: ((toString index).toList ++ afterStep path rest) := by
  rw [← steps_text, text]
  simp

theorem afterStep_ends (path : Path) (rest : List Char) :
    ∀ first ∈ (afterStep path rest).head?, ¬ first.isDigit = true := by
  cases path with
  | nil => exact not_digit_of_head (by decide) rest
  | cons index path => exact not_digit_of_head (by decide) _

theorem afterStep_injective {path other : Path} {rest rest' : List Char}
    (same : afterStep path rest = afterStep other rest') : path = other ∧ rest = rest' := by
  induction path generalizing other with
  | nil =>
      cases other with
      | nil =>
          injection same with _ rests
          exact ⟨rfl, rests⟩
      | cons index other => simp [afterStep] at same
  | cons index path ih =>
      cases other with
      | nil => simp [afterStep] at same
      | cons twin other =>
          injection same with _ same
          injection same with _ same
          obtain ⟨rfl, after⟩ := number_append_injective (afterStep_ends path rest)
            (afterStep_ends other rest') same
          obtain ⟨rfl, rests⟩ := ih after
          exact ⟨rfl, rests⟩

theorem text_append_injective {path other : Path} {rest rest' : List Char}
    (same : path.text.toList ++ rest = other.text.toList ++ rest') :
    path = other ∧ rest = rest' := by
  cases path with
  | nil =>
      cases other with
      | nil =>
          rw [text_nil, text_nil] at same
          injection same with _ same
          injection same with _ rests
          exact ⟨rfl, rests⟩
      | cons index other =>
          rw [text_nil, text_cons] at same
          injection same with _ same
          exact absurd same.symm (number_append_ne (by decide) _ _)
  | cons index path =>
      cases other with
      | nil =>
          rw [text_cons, text_nil] at same
          injection same with _ same
          exact absurd same (number_append_ne (by decide) _ _)
      | cons twin other =>
          rw [text_cons, text_cons] at same
          injection same with _ same
          obtain ⟨rfl, after⟩ := number_append_injective (afterStep_ends path rest)
            (afterStep_ends other rest') same
          obtain ⟨rfl, rests⟩ := afterStep_injective after
          exact ⟨rfl, rests⟩

theorem afterStep_oneLine (path : Path) {rest : List Char} (clear : '\n' ∉ rest) :
    '\n' ∉ afterStep path rest := by
  induction path with
  | nil => simp [afterStep, clear]
  | cons index path ih =>
      have digits : '\n' ∉ (toString index).toList := number_oneLine index
      simp [afterStep, ih, -Nat.toString_eq_repr, digits]

theorem text_oneLine (path : Path) : OneLine path.text := by
  unfold OneLine
  rw [← List.append_nil path.text.toList]
  cases path with
  | nil =>
      rw [text_nil]
      decide
  | cons index path =>
      rw [text_cons]
      have digits : '\n' ∉ (toString index).toList := number_oneLine index
      have after : '\n' ∉ afterStep path [] := afterStep_oneLine path (by decide)
      rw [List.mem_cons, List.mem_append]
      simp only [digits, after, or_self, or_false]
      decide

end Path

namespace ValueKind

def text (kind : ValueKind) : String := kind.mnemonic ++ kind.arguments

variable {kind other : ValueKind}

theorem mnemonic_word (kind : ValueKind) : ∀ c ∈ kind.mnemonic.toList, c ≠ ' ' := by
  cases kind <;> simp [mnemonic]

theorem mnemonic_oneLine (kind : ValueKind) : OneLine kind.mnemonic := by
  cases kind <;> simp [OneLine, mnemonic]

theorem arguments_ends (kind : ValueKind) : ∀ c ∈ kind.arguments.toList.head?, ¬ c ≠ ' ' := by
  cases kind <;> simp [arguments]

theorem text_parts (same : kind.text = other.text) :
    kind.mnemonic = other.mnemonic ∧ kind.arguments = other.arguments := by
  have texts := congrArg String.toList same
  unfold text at texts
  rw [String.toList_append, String.toList_append] at texts
  obtain ⟨names, rests⟩ := word_append_injective kind.mnemonic_word other.mnemonic_word
    kind.arguments_ends other.arguments_ends texts
  exact ⟨String.toList_inj.mp names, String.toList_inj.mp rests⟩

theorem write_arguments (object : ValueId) (path : Path) (value : ValueId) :
    (write object path value).arguments.toList =
      ' ' :: '%' :: ((toString object).toList ++
        ' ' :: (path.text.toList ++ ' ' :: '%' :: (toString value).toList)) := by
  simp [arguments, ValueId.text]

theorem read_arguments (object : ValueId) (path : Path) :
    (read object path).arguments.toList =
      ' ' :: '%' :: ((toString object).toList ++ ' ' :: path.text.toList) := by
  simp [arguments, ValueId.text]

/-- The kind is known by its text, if a constant is known by its own. -/
theorem text_injective
    (constants : ∀ constant twin, kind = .constant constant → other = .constant twin →
      constant.text = twin.text → constant = twin)
    (same : kind.text = other.text) : kind = other := by
  obtain ⟨names, rests⟩ := text_parts same
  have lists := congrArg String.toList rests
  have blank : ' '.isDigit = false := by decide
  cases kind with
  | null =>
      cases other with
      | null => rfl
      | _ => simp [mnemonic] at names
  | parameter index =>
      cases other with
      | parameter twin =>
          simp only [arguments, String.append_right_inj] at rests
          rw [Nat.repr_injective rests]
      | _ => simp [mnemonic] at names
  | constant value =>
      cases other with
      | constant twin =>
          simp only [arguments, String.append_right_inj] at rests
          rw [constants value twin rfl rfl rests]
      | _ => simp [mnemonic] at names
  | write object path value =>
      cases other with
      | write object' path' value' =>
          rw [write_arguments, write_arguments] at lists
          injection lists with _ lists
          injection lists with _ operands
          obtain ⟨rfl, texts⟩ := number_marked_injective blank operands
          obtain ⟨rfl, last⟩ := Path.text_append_injective texts
          injection last with _ last
          injection last with _ digits
          rw [Nat.repr_injective (String.toList_inj.mp digits)]
      | _ => simp [mnemonic] at names
  | read object path =>
      cases other with
      | read object' path' =>
          rw [read_arguments, read_arguments] at lists
          injection lists with _ lists
          injection lists with _ operands
          obtain ⟨rfl, texts⟩ := number_marked_injective blank operands
          rw [← List.append_nil path.text.toList, ← List.append_nil path'.text.toList] at texts
          rw [(Path.text_append_injective texts).1]
      | _ => simp [mnemonic] at names

theorem text_oneLine (exact : ∀ constant, kind = .constant constant → constant.Exact) :
    OneLine kind.text := by
  have blank : OneLine " " := by decide
  have operand (id : ValueId) : OneLine (ValueId.text id) :=
    OneLine.append (by decide) (number_oneLine id)
  apply kind.mnemonic_oneLine.append
  cases kind with
  | null => decide
  | parameter index => exact blank.append (number_oneLine index)
  | constant value => exact blank.append (Constant.text_oneLine (exact value rfl))
  | write object path value =>
      have read := ((blank.append (operand object)).append blank).append path.text_oneLine
      exact (read.append blank).append (operand value)
  | read object path => exact ((blank.append (operand object)).append blank).append path.text_oneLine

end ValueKind

end KernelIR
