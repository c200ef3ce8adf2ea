import Mathlib

/-!
Texts that are told apart from what is written behind them. A word ends before the first letter
that it cannot have, a number before what is no digit, and a line at its line feed, so the words of
a line, and the lines of a text, are known by it.
-/

set_option autoImplicit false

namespace KernelIR

variable {α : Type}

/-- A word goes on as long as there are letters. -/
theorem word_append_injective {Letter : α → Prop} {word other rest rest' : List α}
    (letters : ∀ c ∈ word, Letter c) (letters' : ∀ c ∈ other, Letter c)
    (ends : ∀ c ∈ rest.head?, ¬ Letter c) (ends' : ∀ c ∈ rest'.head?, ¬ Letter c)
    (same : word ++ rest = other ++ rest') : word = other ∧ rest = rest' := by
  induction word generalizing other with
  | nil =>
      cases other with
      | nil => exact ⟨rfl, same⟩
      | cons c other =>
          rw [List.nil_append] at same
          rw [same] at ends
          exact absurd (letters' c List.mem_cons_self) (ends c rfl)
  | cons c word ih =>
      cases other with
      | nil =>
          rw [List.nil_append] at same
          rw [← same] at ends'
          exact absurd (letters c List.mem_cons_self) (ends' c rfl)
      | cons d other =>
          rw [List.forall_mem_cons] at letters letters'
          injection same with head tail
          obtain ⟨words, rests⟩ := ih letters.2 letters'.2 tail
          exact ⟨by rw [head, words], rests⟩

theorem marked_append_injective {mark : α} {word other rest rest' : List α}
    (outside : mark ∉ word) (outside' : mark ∉ other)
    (same : word ++ mark :: rest = other ++ mark :: rest') : word = other ∧ rest = rest' := by
  have letters : ∀ c ∈ word, c ≠ mark := fun c member equal => outside (equal ▸ member)
  have letters' : ∀ c ∈ other, c ≠ mark := fun c member equal => outside' (equal ▸ member)
  obtain ⟨words, rests⟩ := word_append_injective letters letters' (by simp) (by simp) same
  injection rests with _ tail
  exact ⟨words, tail⟩

theorem number_digits {number : Nat} : ∀ c ∈ (toString number).toList, c.isDigit = true := by
  rw [Nat.toString_eq_repr, Nat.toList_repr]
  exact fun c member => Nat.isDigit_of_mem_toDigits (by decide) (by decide) member

theorem number_append_injective {number other : Nat} {rest rest' : List Char}
    (ends : ∀ c ∈ rest.head?, ¬ c.isDigit = true) (ends' : ∀ c ∈ rest'.head?, ¬ c.isDigit = true)
    (same : (toString number).toList ++ rest = (toString other).toList ++ rest') :
    number = other ∧ rest = rest' := by
  obtain ⟨words, rests⟩ := word_append_injective number_digits number_digits ends ends' same
  exact ⟨Nat.repr_injective (String.toList_inj.mp words), rests⟩

theorem number_append_ne {number : Nat} {c : Char} (plain : c.isDigit = false)
    (rest rest' : List Char) : (toString number).toList ++ rest ≠ c :: rest' := by
  intro same
  cases digits : (toString number).toList with
  | nil =>
      rw [Nat.toString_eq_repr, Nat.toList_repr] at digits
      exact absurd digits Nat.toDigits_ne_nil
  | cons first others =>
      have digit := number_digits first (digits ▸ List.mem_cons_self)
      rw [digits] at same
      injection same with head _
      rw [head, plain] at digit
      cases digit

theorem not_digit_of_head {c : Char} (plain : c.isDigit = false) (rest : List Char) :
    ∀ first ∈ (c :: rest).head?, ¬ first.isDigit = true := by
  intro first member
  cases member
  rw [plain]
  decide

theorem number_marked_injective {mark : Char} (plain : mark.isDigit = false) {number other : Nat}
    {rest rest' : List Char}
    (same : (toString number).toList ++ mark :: rest = (toString other).toList ++ mark :: rest') :
    number = other ∧ rest = rest' := by
  obtain ⟨numbers, rests⟩ := number_append_injective (not_digit_of_head plain rest)
    (not_digit_of_head plain rest') same
  injection rests with _ tail
  exact ⟨numbers, tail⟩

def OneLine (text : String) : Prop := '\n' ∉ text.toList

instance (text : String) : Decidable (OneLine text) := inferInstanceAs (Decidable (_ ∉ _))

theorem OneLine.append {text more : String} (first : OneLine text) (second : OneLine more) :
    OneLine (text ++ more) := by
  unfold OneLine at *
  rw [String.toList_append, List.mem_append]
  exact not_or.mpr ⟨first, second⟩

theorem number_oneLine (number : Nat) : OneLine (toString number) := by
  intro member
  have digit := number_digits _ member
  revert digit
  decide

def asLines (lines : List String) : String := String.join (lines.map (· ++ "\n"))

theorem asLines_cons (line : String) (lines : List String) :
    (asLines (line :: lines)).toList = line.toList ++ '\n' :: (asLines lines).toList := by
  simp [asLines]

theorem asLines_append (lines more : List String) :
    asLines (lines ++ more) = asLines lines ++ asLines more := by
  unfold asLines
  rw [List.map_append, String.join_append]

theorem asLines_flatMap {α : Type} (lines : α → List String) (entries : List α) :
    asLines (entries.flatMap lines) = String.join (entries.map fun entry => asLines (lines entry)) := by
  induction entries with
  | nil => rfl
  | cons entry entries ih =>
      rw [List.flatMap_cons, asLines_append, ih, List.map_cons, String.join_cons]

theorem asLines_cons_ne_nil (line : String) (lines : List String) :
    asLines (line :: lines) ≠ asLines [] := by
  intro same
  have texts := congrArg String.toList same
  rw [asLines_cons] at texts
  simp [asLines] at texts

theorem asLines_injective {lines others : List String} (whole : ∀ line ∈ lines, OneLine line)
    (whole' : ∀ line ∈ others, OneLine line) (same : asLines lines = asLines others) :
    lines = others := by
  induction lines generalizing others with
  | nil =>
      cases others with
      | nil => rfl
      | cons other others => exact absurd same.symm (asLines_cons_ne_nil other others)
  | cons line lines ih =>
      cases others with
      | nil => exact absurd same (asLines_cons_ne_nil line lines)
      | cons other others =>
          rw [List.forall_mem_cons] at whole whole'
          have texts := congrArg String.toList same
          rw [asLines_cons, asLines_cons] at texts
          obtain ⟨first, rest⟩ := marked_append_injective whole.1 whole'.1 texts
          rw [String.toList_inj.mp first, ih whole.2 whole'.2 (String.toList_inj.mp rest)]

end KernelIR
