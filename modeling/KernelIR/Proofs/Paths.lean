import KernelIR.Path

/-!
How two paths can lie to each other. The tests on paths are restated as initial segments of lists,
which is the form in which trees are read and written along them.
-/

set_option autoImplicit false

namespace KernelIR.Path

theorem encloses_iff (outer inner : Path) : outer.encloses inner = true ↔ outer <+: inner := by
  induction outer generalizing inner with
  | nil => simp [encloses]
  | cons step outer ih =>
      cases inner with
      | nil => simp [encloses]
      | cons index inner =>
          simp only [encloses, Bool.and_eq_true, beq_iff_eq, ih, List.cons_prefix_cons]

theorem remainder_eq_some_iff (path outer rest : Path) :
    path.remainder? outer = some rest ↔ rest ≠ [] ∧ path = outer ++ rest := by
  simp only [remainder?, encloses_iff]
  constructor
  · intro found
    split at found
    · next inside =>
        obtain ⟨shorter, tail, rfl⟩ := inside
        rw [List.drop_left, Option.some.injEq] at found
        subst found
        refine ⟨?_, rfl⟩
        rintro rfl
        simp at shorter
    · cases found
  · rintro ⟨more, rfl⟩
    have longer : 0 < rest.length := List.length_pos_iff.mpr more
    rw [if_pos ⟨by rw [List.length_append]; omega, List.prefix_append outer rest⟩, List.drop_left]

/-- Paths that part at some step: neither one encloses the other. -/
def Apart (path other : Path) : Prop := ¬ path <+: other ∧ ¬ other <+: path

/-- The three tests of a walk along writes, tried in their order, leave only paths apart. -/
theorem apart_of_tests {path written : Path} (different : written ≠ path)
    (outside : path.remainder? written = none) (inside : path.encloses written = false) :
    Apart written path := by
  constructor
  · rintro ⟨rest, rfl⟩
    have more : rest ≠ [] := by
      rintro rfl
      exact different (List.append_nil written).symm
    have found := (remainder_eq_some_iff (written ++ rest) written rest).mpr ⟨more, rfl⟩
    rw [outside] at found
    cases found
  · intro encloses
    rw [(encloses_iff path written).mpr encloses] at inside
    cases inside

theorem remainder_eq_none_of_enclosed {path written : Path} (inside : path <+: written) :
    path.remainder? written = none := by
  cases outside : path.remainder? written with
  | none => rfl
  | some rest =>
      obtain ⟨more, split⟩ := (remainder_eq_some_iff path written rest).mp outside
      have shorter := inside.length_le
      have longer : 0 < rest.length := List.length_pos_iff.mpr more
      rw [split, List.length_append] at shorter
      omega

theorem tests_of_apart {path written : Path} (apart : Apart written path) :
    written ≠ path ∧ path.remainder? written = none ∧ path.encloses written = false := by
  refine ⟨?_, ?_, ?_⟩
  · rintro rfl
    exact apart.1 List.prefix_rfl
  · cases outside : path.remainder? written with
    | none => rfl
    | some rest =>
        obtain ⟨-, split⟩ := (remainder_eq_some_iff path written rest).mp outside
        exact absurd ⟨rest, split.symm⟩ apart.1
  · rw [Bool.eq_false_iff]
    exact fun inside => apart.2 ((encloses_iff path written).mp inside)

theorem Apart.further {written path : Path} (apart : Apart written path) (rest : Path) :
    Apart written (path ++ rest) := by
  constructor
  · intro outer
    have start := List.prefix_append path rest
    rcases List.prefix_or_prefix_of_prefix outer start with shorter | longer
    · exact apart.1 shorter
    · exact apart.2 longer
  · intro inner
    exact apart.2 ((List.prefix_append path rest).trans inner)

theorem apart_cons_iff (step index : Nat) (path other : Path) :
    Apart (step :: path) (index :: other) ↔ step ≠ index ∨ Apart path other := by
  unfold Apart
  rw [List.cons_prefix_cons, List.cons_prefix_cons]
  by_cases same : step = index
  · subst same
    simp
  · simp [same, Ne.symm same]

theorem not_apart_nil_left (path : Path) : ¬ Apart [] path :=
  fun apart => apart.1 List.nil_prefix

theorem not_apart_nil_right (path : Path) : ¬ Apart path [] :=
  fun apart => apart.2 List.nil_prefix

end KernelIR.Path
