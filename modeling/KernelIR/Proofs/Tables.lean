import Mathlib.Data.List.Induction

/-!
Tables that only grow at their end, and functions that are computed along a table: the value of an
entry may depend on the values of the entries before it. Types and values refer backwards, so what
they stand for is computed in this way without any bound on the depth of a reference.
-/

set_option autoImplicit false

namespace KernelIR

variable {α β : Type}

theorem stored_of_grown {before after : List α} (grown : before <+: after) {index : Nat}
    {entry : α} (stored : before[index]? = some entry) : after[index]? = some entry := by
  obtain ⟨added, rfl⟩ := grown
  obtain ⟨inside, -⟩ := List.getElem?_eq_some_iff.mp stored
  rw [List.getElem?_append_left inside, stored]

theorem stored_of_lt {entries : List α} {index : Nat} (inside : index < entries.length) :
    ∃ entry, entries[index]? = some entry :=
  ⟨entries[index], List.getElem?_eq_getElem inside⟩

theorem lt_of_stored {entries : List α} {index : Nat} {entry : α}
    (stored : entries[index]? = some entry) : index < entries.length :=
  (List.getElem?_eq_some_iff.mp stored).1

theorem stored_before_grown {before after : List α} (grown : before <+: after) {index : Nat}
    {entry : α} (stored : after[index]? = some entry) (inside : index < before.length) :
    before[index]? = some entry := by
  obtain ⟨added, rfl⟩ := grown
  rw [List.getElem?_append_left inside] at stored
  exact stored

theorem getD_of_grown {before after : List α} (grown : before <+: after) {index : Nat}
    (inside : index < before.length) (fallback : α) :
    after.getD index fallback = before.getD index fallback := by
  have stored := stored_of_grown grown (List.getElem?_eq_getElem inside)
  rw [List.getD_eq_getElem?_getD, List.getD_eq_getElem?_getD, stored,
    ← List.getElem?_eq_getElem inside]

theorem stored_snoc_iff (entries : List α) (added : α) (index : Nat) (entry : α) :
    (entries ++ [added])[index]? = some entry ↔
      entries[index]? = some entry ∨ index = entries.length ∧ entry = added := by
  rcases Nat.lt_trichotomy index entries.length with inside | same | outside
  · rw [List.getElem?_append_left inside]
    have old : index ≠ entries.length := Nat.ne_of_lt inside
    simp [old]
  · subst same
    simp [eq_comm]
  · have noEntry : entries[index]? = none := List.getElem?_eq_none (Nat.le_of_lt outside)
    have new : index ≠ entries.length := Nat.ne_of_gt outside
    have beyond : (entries ++ [added])[index]? = none :=
      List.getElem?_eq_none (by rw [List.length_append, List.length_singleton]; omega)
    simp [noEntry, beyond, new]

theorem mapM_found {find : α → Option β} {entries : List α}
    (found : ∀ entry ∈ entries, ∃ value, find entry = some value) :
    ∃ values, entries.mapM find = some values := by
  induction entries with
  | nil => exact ⟨[], rfl⟩
  | cons entry entries ih =>
      obtain ⟨value, first⟩ := found entry List.mem_cons_self
      obtain ⟨values, rest⟩ := ih fun other member => found other (List.mem_cons_of_mem _ member)
      refine ⟨value :: values, ?_⟩
      rw [List.mapM_cons, first, rest]
      rfl

theorem mapM_cons_iff (find : α → Option β) (entry : α) (entries : List α) (values : List β) :
    (entry :: entries).mapM find = some values ↔
      ∃ value rest, find entry = some value ∧ entries.mapM find = some rest ∧
        values = value :: rest := by
  rw [List.mapM_cons]
  simp only [Option.bind_eq_bind, Option.bind_eq_some_iff, Option.pure_def, Option.some.injEq]
  constructor
  · rintro ⟨value, first, rest, found, rfl⟩
    exact ⟨value, rest, first, found, rfl⟩
  · rintro ⟨value, rest, first, found, rfl⟩
    exact ⟨value, first, rest, found, rfl⟩

theorem mapM_found_by {find other : α → Option β} {entries : List α} {values : List β}
    (same : ∀ entry ∈ entries, ∀ value, find entry = some value → other entry = some value)
    (found : entries.mapM find = some values) : entries.mapM other = some values := by
  induction entries generalizing values with
  | nil => exact found
  | cons entry entries ih =>
      obtain ⟨value, rest, first, others, rfl⟩ := (mapM_cons_iff find entry entries values).mp found
      have later := ih (fun entry member => same entry (List.mem_cons_of_mem _ member)) others
      exact (mapM_cons_iff other entry entries _).mpr
        ⟨value, rest, same entry List.mem_cons_self value first, later, rfl⟩

theorem mapM_eq_ok_map {ε : Type} {find : α → Except ε β} {value : α → β} {entries : List α}
    (found : ∀ entry ∈ entries, find entry = .ok (value entry)) :
    entries.mapM find = .ok (entries.map value) := by
  induction entries with
  | nil => rfl
  | cons entry entries ih =>
      have rest := ih fun other member => found other (List.mem_cons_of_mem _ member)
      rw [List.mapM_cons, found entry List.mem_cons_self, rest]
      rfl

theorem mapM_eq_error {ε : Type} {find : α → Except ε β} {entries : List α} {cause : ε}
    (failed : entries.mapM find = .error cause) : ∃ entry ∈ entries, find entry = .error cause := by
  induction entries with
  | nil => cases failed
  | cons entry entries ih =>
      rw [List.mapM_cons] at failed
      cases first : find entry with
      | error other =>
          rw [first] at failed
          cases failed
          exact ⟨entry, List.mem_cons_self, first⟩
      | ok value =>
          rw [first] at failed
          cases rest : entries.mapM find with
          | ok values =>
              rw [rest] at failed
              cases failed
          | error other =>
              rw [rest] at failed
              cases failed
              obtain ⟨late, member, found⟩ := ih rest
              exact ⟨late, List.mem_cons_of_mem _ member, found⟩

theorem mapM_injective {find other : α → Option β} {entries twins : List α} {values : List β}
    (apart : ∀ entry twin value, find entry = some value → other twin = some value → entry = twin)
    (left : entries.mapM find = some values) (right : twins.mapM other = some values) :
    entries = twins := by
  induction entries generalizing twins values with
  | nil =>
      cases left
      cases twins with
      | nil => rfl
      | cons twin twins =>
          obtain ⟨value, rest, -, -, impossible⟩ := (mapM_cons_iff other twin twins _).mp right
          cases impossible
  | cons entry entries ih =>
      obtain ⟨value, rest, first, found, rfl⟩ := (mapM_cons_iff find entry entries _).mp left
      cases twins with
      | nil => cases right
      | cons twin twins =>
          obtain ⟨_, _, twinFirst, twinFound, same⟩ := (mapM_cons_iff other twin twins _).mp right
          cases same
          rw [apart entry twin value first twinFirst, ih found twinFound]

/-- The values of all entries. Each is computed from its entry and the values before it. -/
def inOrder (evaluate : List β → α → β) (entries : List α) : List β :=
  entries.foldl (fun earlier entry => earlier ++ [evaluate earlier entry]) []

section InOrder

variable (evaluate : List β → α → β)

theorem in_order_snoc (entries : List α) (entry : α) :
    inOrder evaluate (entries ++ [entry]) =
      inOrder evaluate entries ++ [evaluate (inOrder evaluate entries) entry] := by
  simp only [inOrder, List.foldl_append, List.foldl_cons, List.foldl_nil]

@[simp]
theorem in_order_length (entries : List α) :
    (inOrder evaluate entries).length = entries.length := by
  induction entries using List.reverseRecOn with
  | nil => rfl
  | append_singleton entries entry ih =>
      rw [in_order_snoc, List.length_append, List.length_append, ih]
      rfl

theorem in_order_append (entries added : List α) :
    inOrder evaluate entries <+: inOrder evaluate (entries ++ added) := by
  induction added using List.reverseRecOn with
  | nil => exact (List.append_nil entries).symm ▸ List.prefix_rfl
  | append_singleton added entry ih =>
      rw [← List.append_assoc, in_order_snoc]
      exact ih.trans (List.prefix_append _ _)

theorem in_order_of_grown {before after : List α} (grown : before <+: after) :
    inOrder evaluate before <+: inOrder evaluate after := by
  obtain ⟨added, rfl⟩ := grown
  exact in_order_append evaluate before added

/-- A value is computed from the values of the table as it was before its entry. -/
theorem in_order_stored {entries : List α} {index : Nat} {entry : α}
    (stored : entries[index]? = some entry) :
    (inOrder evaluate entries)[index]? =
      some (evaluate (inOrder evaluate (entries.take index)) entry) := by
  have inside := lt_of_stored stored
  have split : entries = entries.take index ++ [entry] ++ entries.drop (index + 1) := by
    rw [List.append_assoc, List.singleton_append, ← (List.getElem?_eq_some_iff.mp stored).2,
      List.getElem_cons_drop, List.take_append_drop]
  have length : (entries.take index).length = index := by
    rw [List.length_take]
    omega
  -- The value is last in the table that ends with its entry, and what follows does not change it.
  have last : (inOrder evaluate (entries.take index ++ [entry]))[index]? =
      some (evaluate (inOrder evaluate (entries.take index)) entry) := by
    have earlier : (inOrder evaluate (entries.take index)).length = index := by
      rw [in_order_length, length]
    rw [in_order_snoc, List.getElem?_append_right (Nat.le_of_eq earlier), earlier, Nat.sub_self,
      List.getElem?_cons_zero]
  have whole := in_order_append evaluate (entries.take index ++ [entry]) (entries.drop (index + 1))
  rw [← split] at whole
  exact stored_of_grown whole last

theorem in_order_take_getD {entries : List α} {index older : Nat} (backwards : older < index)
    (inside : index ≤ entries.length) (fallback : β) :
    (inOrder evaluate (entries.take index)).getD older fallback =
      (inOrder evaluate entries).getD older fallback := by
  have early : older < (inOrder evaluate (entries.take index)).length := by
    rw [in_order_length, List.length_take]
    omega
  have grown := in_order_of_grown evaluate (List.take_prefix index entries)
  exact (getD_of_grown grown early fallback).symm

end InOrder

theorem in_order_congr {evaluate other : List β → α → β} (entries : List α)
    (agree : ∀ entry ∈ entries, ∀ earlier, evaluate earlier entry = other earlier entry) :
    inOrder evaluate entries = inOrder other entries := by
  induction entries using List.reverseRecOn with
  | nil => rfl
  | append_singleton entries entry ih =>
      have before := ih fun older member => agree older (List.mem_append_left _ member)
      have last := agree entry (List.mem_append_right _ (List.mem_singleton_self entry))
      rw [in_order_snoc, in_order_snoc, before, last]

end KernelIR
