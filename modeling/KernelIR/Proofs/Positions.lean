import KernelIR.Proofs.Paths
import Mathlib.Logic.ExistsUnique

/-!
The position of one path to another: the paths are the same, one goes on from the other, or they
part at a step of both. Main statement: the tests on paths find exactly one of these positions for
each pair; enclosing is a partial order, it holds exactly if the initial part of that length is the
path itself, and a path that encloses another is not after it in the lexicographic order.
-/

set_option autoImplicit false

namespace KernelIR.Path

inductive Position where
  | same
  /-- The path goes on from the other. -/
  | inside
  /-- The other goes on from the path. -/
  | around
  | apart

/-- The position of a path to another, by the tests on paths. -/
def Lies (path other : Path) : Position → Prop
  | .same => path = other
  | .inside => ∃ rest, path.remainder? other = some rest
  | .around => ∃ rest, other.remainder? path = some rest
  | .apart => path.encloses other = false ∧ other.encloses path = false

variable {path other : Path}

theorem prefix_antisymm (inner : path <+: other) (outer : other <+: path) : path = other :=
  inner.eq_of_length_le outer.length_le

theorem exists_remainder_iff (path outer : Path) :
    (∃ rest, path.remainder? outer = some rest) ↔ outer <+: path ∧ ¬ path <+: outer := by
  simp only [remainder_eq_some_iff]
  constructor
  · rintro ⟨rest, more, rfl⟩
    refine ⟨List.prefix_append outer rest, ?_⟩
    intro back
    have same := prefix_antisymm back (List.prefix_append outer rest)
    exact more (List.append_right_eq_self.mp same)
  · rintro ⟨⟨rest, rfl⟩, longer⟩
    refine ⟨rest, ?_, rfl⟩
    rintro rfl
    rw [List.append_nil] at longer
    exact longer List.prefix_rfl

theorem remainder_eq_none_iff (path outer : Path) :
    path.remainder? outer = none ↔ ∀ rest, rest ≠ [] → path ≠ outer ++ rest := by
  rw [Option.eq_none_iff_forall_ne_some]
  exact forall_congr' fun rest => by rw [ne_eq, remainder_eq_some_iff, not_and]

theorem encloses_eq_false_iff (outer inner : Path) :
    outer.encloses inner = false ↔ ¬ outer <+: inner := by
  rw [← encloses_iff, Bool.not_eq_true]

theorem Lies.prefixes {position : Position} (lies : Lies path other position) :
    (path <+: other ↔ position = .same ∨ position = .around) ∧
      (other <+: path ↔ position = .same ∨ position = .inside) := by
  cases position with
  | same =>
      cases lies
      simp
  | inside =>
      have split := (exists_remainder_iff path other).mp lies
      simp [split.1, split.2]
  | around =>
      have split := (exists_remainder_iff other path).mp lies
      simp [split.1, split.2]
  | apart =>
      have left := (encloses_eq_false_iff path other).mp lies.1
      have right := (encloses_eq_false_iff other path).mp lies.2
      simp [left, right]

theorem exists_lies (path other : Path) : ∃ position, Lies path other position := by
  by_cases inner : path <+: other
  · by_cases outer : other <+: path
    · exact ⟨.same, prefix_antisymm inner outer⟩
    · exact ⟨.around, (exists_remainder_iff other path).mpr ⟨inner, outer⟩⟩
  · by_cases outer : other <+: path
    · exact ⟨.inside, (exists_remainder_iff path other).mpr ⟨outer, inner⟩⟩
    · exact ⟨.apart, (encloses_eq_false_iff path other).mpr inner,
        (encloses_eq_false_iff other path).mpr outer⟩

theorem existsUnique_lies (path other : Path) : ∃! position, Lies path other position := by
  obtain ⟨position, lies⟩ := exists_lies path other
  refine ⟨position, lies, ?_⟩
  intro second also
  obtain ⟨inner, outer⟩ := lies.prefixes
  obtain ⟨inner', outer'⟩ := also.prefixes
  rw [inner] at inner'
  rw [outer] at outer'
  cases position <;> cases second <;> simp at inner' outer' ⊢

theorem Apart.parting_step (apart : Apart path other) :
    ∃ (index step turn : Nat), path[index]? = some step ∧ other[index]? = some turn ∧
      step ≠ turn := by
  induction path generalizing other with
  | nil => exact absurd apart (not_apart_nil_left other)
  | cons step path ih =>
      cases other with
      | nil => exact absurd apart (not_apart_nil_right (step :: path))
      | cons turn other =>
          rcases (apart_cons_iff step turn path other).mp apart with different | further
          · exact ⟨0, step, turn, rfl, rfl, different⟩
          · obtain ⟨index, first, second, left, right, different⟩ := ih further
            exact ⟨index + 1, first, second, left, right, different⟩

theorem encloses_iff_take? (outer inner : Path) :
    outer.encloses inner = true ↔ inner.take? outer.length = some outer := by
  rw [encloses_iff, List.prefix_iff_eq_take]
  unfold take?
  constructor
  · intro whole
    have enough : outer.length ≤ inner.length := by
      rw [whole, List.length_take]
      exact Nat.min_le_right _ _
    rw [if_pos enough, ← whole]
  · intro found
    split at found
    · exact (Option.some.inj found).symm
    · cases found

theorem order_eq_lt_iff (path other : Path) :
    path.order other = .lt ↔ List.Lex (· < ·) path other := by
  induction path generalizing other with
  | nil => cases other <;> simp [order]
  | cons step path ih =>
      cases other with
      | nil => simp [order]
      | cons turn other =>
          rw [List.cons_lex_cons_iff]
          unfold order
          rcases Nat.lt_trichotomy step turn with less | rfl | greater
          · simp [less]
          · simp [ih]
          · simp [greater, Nat.lt_asymm greater, Nat.ne_of_gt greater]

theorem order_eq_eq_iff (path other : Path) : path.order other = .eq ↔ path = other := by
  induction path generalizing other with
  | nil => cases other <;> simp [order]
  | cons step path ih =>
      cases other with
      | nil => simp [order]
      | cons turn other =>
          rw [List.cons.injEq]
          unfold order
          rcases Nat.lt_trichotomy step turn with less | rfl | greater
          · simp [less, Nat.ne_of_lt less]
          · simp [ih]
          · simp [greater, Nat.lt_asymm greater, Nat.ne_of_gt greater]

theorem order_append_ne_gt (path rest : Path) : path.order (path ++ rest) ≠ .gt := by
  induction path with
  | nil => cases rest <;> simp [order]
  | cons step path ih =>
      rw [List.cons_append]
      unfold order
      simpa using ih

/-- A remainder is found exactly if the path goes on from the other. Each pair of paths is in one
position only, and paths apart differ at a step of both. Enclosing is a partial order, is told by
initial parts, and agrees with the lexicographic order. -/
theorem tests_classify_pairs :
    (∀ path outer rest : Path,
      path.remainder? outer = some rest ↔ rest ≠ [] ∧ path = outer ++ rest) ∧
    (∀ path outer : Path,
      path.remainder? outer = none ↔ ∀ rest, rest ≠ [] → path ≠ outer ++ rest) ∧
    (∀ path other : Path, ∃! position, Lies path other position) ∧
    (∀ path other : Path, Lies path other .apart →
      ∃ (index step turn : Nat), path[index]? = some step ∧ other[index]? = some turn ∧
        step ≠ turn) ∧
    (∀ path : Path, path.encloses path = true) ∧
    (∀ path other last : Path, path.encloses other = true → other.encloses last = true →
      path.encloses last = true) ∧
    (∀ path other : Path, path.encloses other = true → other.encloses path = true →
      path = other) ∧
    (∀ path other : Path,
      path.encloses other = true ↔ other.take? path.length = some path) ∧
    (∀ path other : Path, path.order other = .lt ↔ List.Lex (· < ·) path other) ∧
    (∀ path other : Path, path.order other = .eq ↔ path = other) ∧
    ∀ path other : Path, path.encloses other = true → path.order other ≠ .gt := by
  refine ⟨remainder_eq_some_iff, remainder_eq_none_iff, existsUnique_lies, ?_, ?_, ?_, ?_,
    encloses_iff_take?, order_eq_lt_iff, order_eq_eq_iff, ?_⟩
  · rintro path other ⟨inner, outer⟩
    have apart : Apart path other :=
      ⟨(encloses_eq_false_iff path other).mp inner, (encloses_eq_false_iff other path).mp outer⟩
    exact apart.parting_step
  · exact fun path => (encloses_iff path path).mpr List.prefix_rfl
  · intro path other last first second
    rw [encloses_iff] at first second ⊢
    exact first.trans second
  · intro path other inner outer
    rw [encloses_iff] at inner outer
    exact prefix_antisymm inner outer
  · intro path other inner
    obtain ⟨rest, rfl⟩ := (encloses_iff path other).mp inner
    exact order_append_ne_gt path rest

/-- Two paths that part behind a common step, and one that encloses the first of them. -/
theorem paths_part_behind_common_step :
    Lies [1, 4, 0] [1, 2] .apart ∧
      (∃ (index step turn : Nat), [1, 4, 0][index]? = some step ∧ [1, 2][index]? = some turn ∧
        step ≠ turn) ∧
      encloses [1, 4] [1, 4, 0] = true ∧ order [1, 4] [1, 4, 0] ≠ .gt := by
  obtain ⟨-, -, -, parting, -, -, -, -, -, -, agrees⟩ := tests_classify_pairs
  have apart : Lies [1, 4, 0] [1, 2] .apart := ⟨rfl, rfl⟩
  exact ⟨apart, parting _ _ apart, rfl, agrees _ _ rfl⟩

end KernelIR.Path
