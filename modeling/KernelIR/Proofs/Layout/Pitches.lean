import KernelIR.Layout.Pitch
import Mathlib

/-!
Pitched lengths as exact integers. A chunk is as many elements as there are between two aligned
bytes. It divides the alignment, which is a power of two below the end of the width, so the width
ends at a whole number of chunks, and the sum that is made before the rounding leaves it only where
the rounded length does. Main statement: for all 64-bit arguments a pitched length is the smallest
one that is not below the given length and has an aligned size in bytes; it is refused exactly if
it does not fit; and arguments that have none are refused for the first thing that is wrong.
-/

set_option autoImplicit false

namespace KernelIR.Layout

/-- The smallest multiple of the chunk from the length on. -/
def roundUp (chunk length : Int) : Int := (length + (chunk - 1)) / chunk * chunk

section Rounding

variable {chunk : Int}

theorem roundUp_le_sum (positive : 0 < chunk) (length : Int) :
    roundUp chunk length ≤ length + (chunk - 1) :=
  Int.ediv_mul_le _ (Int.ne_of_gt positive)

theorem le_roundUp (positive : 0 < chunk) (length : Int) : length ≤ roundUp chunk length := by
  have next := Int.lt_ediv_add_one_mul_self (length + (chunk - 1)) positive
  rw [Int.add_mul, Int.one_mul] at next
  unfold roundUp
  omega

theorem dvd_roundUp (chunk length : Int) : chunk ∣ roundUp chunk length := Int.dvd_mul_left _ _

theorem roundUp_le (positive : 0 < chunk) {length multiple : Int} (above : length ≤ multiple)
    (whole : chunk ∣ multiple) : roundUp chunk length ≤ multiple := by
  obtain ⟨count, rfl⟩ := whole
  have next : length + (chunk - 1) < (count + 1) * chunk := by
    rw [Int.add_mul, Int.one_mul, Int.mul_comm count]
    omega
  have steps := Int.le_of_lt_add_one (Int.ediv_lt_of_lt_mul positive next)
  rw [Int.mul_comm chunk]
  exact Int.mul_le_mul_of_nonneg_right steps (Int.le_of_lt positive)

/-- Below a whole number of chunks rounding does not reach further than the sum before it. -/
theorem roundUp_lt_iff (positive : 0 < chunk) {length limit : Int} (whole : chunk ∣ limit) :
    roundUp chunk length < limit ↔ length + (chunk - 1) < limit := by
  constructor
  · intro below
    by_contra beyond
    obtain ⟨count, rfl⟩ := whole
    have enough : count * chunk ≤ length + (chunk - 1) := by
      rw [Int.mul_comm count]
      exact Int.not_lt.mp beyond
    have steps := Int.le_ediv_of_mul_le positive enough
    have reached := Int.mul_le_mul_of_nonneg_right steps (Int.le_of_lt positive)
    rw [Int.mul_comm count] at reached
    exact absurd below (Int.not_lt.mpr reached)
  · exact Int.lt_of_le_of_lt (roundUp_le_sum positive length)

theorem roundUp_isLeast {elementSize : Int} (positive : 0 < chunk) (sized : 0 < elementSize)
    (length : Int) :
    IsLeast {n : Int | length ≤ n ∧ chunk * elementSize ∣ n * elementSize}
      (roundUp chunk length) := by
  constructor
  · exact ⟨le_roundUp positive length, Int.mul_dvd_mul_right elementSize (dvd_roundUp chunk length)⟩
  · rintro n ⟨above, aligned⟩
    exact roundUp_le positive above (Int.dvd_of_mul_dvd_mul_right (Int.ne_of_gt sized) aligned)

end Rounding

theorem isPowerOfTwo_iff (value : Nat) :
    isPowerOfTwo value = true ↔ ∃ power, value = 2 ^ power := by
  unfold isPowerOfTwo
  rw [Bool.and_eq_true, decide_eq_true_eq, beq_iff_eq]
  constructor
  · rintro ⟨-, same⟩
    exact ⟨_, same.symm⟩
  · rintro ⟨power, rfl⟩
    refine ⟨Nat.ne_of_gt (Nat.two_pow_pos power), ?_⟩
    rw [Nat.log2_two_pow]

theorem alignable_iff (alignment elementSize : Int) :
    Alignable alignment elementSize ↔
      (∃ power : Nat, alignment = 2 ^ power) ∧ elementSize ∣ alignment := by
  unfold Alignable
  rw [isPowerOfTwo_iff, ← and_assoc, Int.dvd_iff_emod_eq_zero]
  apply and_congr_left'
  constructor
  · rintro ⟨positive, power, same⟩
    refine ⟨power, ?_⟩
    rw [← Int.toNat_of_nonneg (Int.le_of_lt positive), same]
    exact Int.natCast_pow 2 power
  · rintro ⟨power, rfl⟩
    refine ⟨Int.pow_pos (by decide), power, ?_⟩
    exact congrArg Int.toNat (Int.natCast_pow 2 power).symm

/-- All steps of a rounding, without the sum that is checked: no division is by zero, and what comes
before the sum is in the width, and what comes behind it if the sum is. -/
structure RoundsInWidth (length alignment elementSize : Int) : Prop where
  chunk : Fits 64 (alignment / elementSize)
  divisor : 0 < alignment / elementSize
  padding : Fits 64 (alignment / elementSize - 1)
  quotient : Fits 64 (length + (alignment / elementSize - 1)) →
    Fits 64 ((length + (alignment / elementSize - 1)) / (alignment / elementSize))
  product : Fits 64 (length + (alignment / elementSize - 1)) →
    Fits 64 (roundUp (alignment / elementSize) length)

section Chunks

variable {length alignment elementSize : Signed 64}

theorem chunk_positive (sized : 0 < elementSize.val)
    (alignable : Alignable alignment.val elementSize.val) :
    0 < alignment.val / elementSize.val := by
  have whole := ((alignable_iff _ _).mp alignable).2
  exact Int.ediv_pos_of_pos_of_dvd alignable.1 (Int.le_of_lt sized) whole

theorem chunk_dvd_limit (alignable : Alignable alignment.val elementSize.val) :
    alignment.val / elementSize.val ∣ 2 ^ 63 := by
  obtain ⟨⟨power, same⟩, whole⟩ := (alignable_iff _ _).mp alignable
  have inside : (2 : Int) ^ power < 2 ^ 63 := by
    rw [← same]
    exact alignment.fits.2
  have few : power < 63 := by
    by_contra many
    have beyond : (2 : Int) ^ 63 ≤ 2 ^ power := by
      exact_mod_cast Nat.pow_le_pow_right (n := 2) (by decide) (Nat.not_lt.mp many)
    exact Int.not_le.mpr inside beyond
  have part : alignment.val / elementSize.val ∣ 2 ^ power := by
    rw [← same]
    exact Int.ediv_dvd_of_dvd whole
  have powers : (2 : Int) ^ power ∣ 2 ^ 63 := by
    exact_mod_cast Nat.pow_dvd_pow 2 (Nat.le_of_lt few)
  exact Int.dvd_trans part powers

theorem fits_iff_lt {value : Int} (natural : 0 ≤ value) : Fits 64 value ↔ value < 2 ^ 63 := by
  unfold Fits
  omega

theorem sum_fits_iff (natural : 0 ≤ length.val) (sized : 0 < elementSize.val)
    (alignable : Alignable alignment.val elementSize.val) :
    Fits 64 (length.val + (alignment.val / elementSize.val - 1)) ↔
      Fits 64 (roundUp (alignment.val / elementSize.val) length.val) := by
  have positive := chunk_positive sized alignable
  have rounded := Int.le_trans natural (le_roundUp positive length.val)
  rw [fits_iff_lt (by omega), fits_iff_lt rounded]
  exact (roundUp_lt_iff positive (chunk_dvd_limit alignable)).symm

theorem pitchedLength_eq (natural : 0 ≤ length.val) (sized : 0 < elementSize.val)
    (alignable : Alignable alignment.val elementSize.val) :
    pitchedLength length alignment elementSize =
      match Signed.ofInt? 64 (roundUp (alignment.val / elementSize.val) length.val) with
      | some rounded => .ok rounded
      | none => .error (.lengthOutOfRange length.val) := by
  have same := sum_fits_iff natural sized alignable
  unfold pitchedLength
  rw [if_neg (Int.not_lt.mpr natural), if_neg (Int.not_le.mpr sized),
    if_neg (not_not_intro alignable)]
  by_cases fits : Fits 64 (length.val + (alignment.val / elementSize.val - 1))
  · have found : Signed.ofInt? 64 (length.val + (alignment.val / elementSize.val - 1)) =
        some ⟨_, fits⟩ := Signed.ofInt?_eq_some_iff.mpr rfl
    simp only [found, Option.bind_some]
    rfl
  · simp only [Signed.ofInt?_eq_none_iff.mpr fits, Signed.ofInt?_eq_none_iff.mpr (mt same.mpr fits),
      Option.bind_none]

theorem pitchedLength_eq_ok_iff (natural : 0 ≤ length.val) (sized : 0 < elementSize.val)
    (alignable : Alignable alignment.val elementSize.val) (pitched : Signed 64) :
    pitchedLength length alignment elementSize = .ok pitched ↔
      pitched.val = roundUp (alignment.val / elementSize.val) length.val := by
  rw [pitchedLength_eq natural sized alignable, ← Signed.ofInt?_eq_some_iff]
  split
  · next rounded found => rw [found, Except.ok.injEq, Option.some.injEq]
  · next missing =>
    rw [missing]
    exact iff_of_false nofun nofun

theorem pitchedLength_eq_error_iff (natural : 0 ≤ length.val) (sized : 0 < elementSize.val)
    (alignable : Alignable alignment.val elementSize.val) :
    pitchedLength length alignment elementSize = .error (.lengthOutOfRange length.val) ↔
      ¬ Fits 64 (roundUp (alignment.val / elementSize.val) length.val) := by
  rw [pitchedLength_eq natural sized alignable, ← Signed.ofInt?_eq_none_iff]
  split
  · next rounded found =>
    rw [found]
    exact iff_of_false nofun nofun
  · next missing => exact iff_of_true rfl missing

theorem pitchedLength_isLeast {pitched : Signed 64}
    (found : pitchedLength length alignment elementSize = .ok pitched) :
    IsLeast {n : Int | length.val ≤ n ∧ alignment.val ∣ n * elementSize.val} pitched.val := by
  have natural : 0 ≤ length.val := by
    by_contra negative
    rw [pitchedLength, if_pos (Int.not_le.mp negative)] at found
    cases found
  have sized : 0 < elementSize.val := by
    by_contra unsized
    rw [pitchedLength, if_neg (Int.not_lt.mpr natural), if_pos (Int.not_lt.mp unsized)] at found
    cases found
  have alignable : Alignable alignment.val elementSize.val := by
    by_contra unaligned
    rw [pitchedLength, if_neg (Int.not_lt.mpr natural), if_neg (Int.not_le.mpr sized),
      if_pos unaligned] at found
    cases found
  have least := roundUp_isLeast (chunk_positive sized alignable) sized length.val
  rw [Int.ediv_mul_cancel ((alignable_iff _ _).mp alignable).2] at least
  rw [(pitchedLength_eq_ok_iff natural sized alignable pitched).mp found]
  exact least

theorem roundsInWidth (natural : 0 ≤ length.val) (sized : 0 < elementSize.val)
    (alignable : Alignable alignment.val elementSize.val) :
    RoundsInWidth length.val alignment.val elementSize.val := by
  have divisor := chunk_positive sized alignable
  have few := Int.ediv_le_self elementSize.val (Int.le_of_lt alignable.1)
  exact
    { chunk := alignment.fits.below (Int.le_of_lt divisor) few
      divisor
      padding := alignment.fits.below (by omega) (by omega)
      quotient := fun fits => by
        have nonneg : 0 ≤ length.val + (alignment.val / elementSize.val - 1) := by omega
        exact fits.below (Int.ediv_nonneg nonneg (Int.le_of_lt divisor))
          (Int.ediv_le_self _ nonneg)
      product := (sum_fits_iff natural sized alignable).mp }

end Chunks

/-- For all 64-bit arguments: a negative length is refused, then an element size that is not
positive, then an alignment that is no power of two or no multiple of the element size. Otherwise
there is a smallest length, in unbounded integers, that is not below the given one and has an
aligned size in bytes; the result is this length, or the given one is refused exactly if this one
does not fit. No step on the way divides by zero or leaves 64 bits without being checked. -/
theorem pitched_length_is_smallest_aligned (length alignment elementSize : Signed 64) :
    let result := pitchedLength length alignment elementSize
    (length.val < 0 → result = .error (.lengthOutOfRange length.val)) ∧
    (0 ≤ length.val → elementSize.val ≤ 0 →
      result = .error (.elementSizeOutOfRange elementSize.val)) ∧
    (0 ≤ length.val → 0 < elementSize.val →
      (0 < alignment.val → Fits 64 (alignment.val % elementSize.val)) ∧
      (¬ ((∃ power : Nat, alignment.val = 2 ^ power) ∧ elementSize.val ∣ alignment.val) →
        result = .error (.unsupportedAlignment alignment.val elementSize.val)) ∧
      ((∃ power : Nat, alignment.val = 2 ^ power) → elementSize.val ∣ alignment.val →
        RoundsInWidth length.val alignment.val elementSize.val ∧
          ∃ smallest, IsLeast {n : Int | length.val ≤ n ∧
              alignment.val ∣ n * elementSize.val} smallest ∧
            (∀ pitched, result = .ok pitched ↔ pitched.val = smallest) ∧
            (result = .error (.lengthOutOfRange length.val) ↔ ¬ Fits 64 smallest))) := by
  intro result
  refine ⟨fun negative => if_pos negative, ?_, ?_⟩
  · intro natural unsized
    have passed : result = _ := if_neg (Int.not_lt.mpr natural)
    exact passed.trans (if_pos unsized)
  · intro natural sized
    refine ⟨?_, ?_, ?_⟩
    · intro positive
      have rest := Int.emod_nonneg alignment.val (Int.ne_of_gt sized)
      have short := Int.emod_lt_of_pos alignment.val sized
      exact elementSize.fits.below rest (Int.le_of_lt short)
    · intro unaligned
      rw [← alignable_iff] at unaligned
      have passed : result = _ := if_neg (Int.not_lt.mpr natural)
      exact passed.trans ((if_neg (Int.not_le.mpr sized)).trans (if_pos unaligned))
    · intro power whole
      have alignable := (alignable_iff _ _).mpr ⟨power, whole⟩
      have least := roundUp_isLeast (chunk_positive sized alignable) sized length.val
      rw [Int.ediv_mul_cancel whole] at least
      exact ⟨roundsInWidth natural sized alignable, _, least,
        pitchedLength_eq_ok_iff natural sized alignable,
        pitchedLength_eq_error_iff natural sized alignable⟩

/-- Elements of four bytes in rows of sixteen, at the end of the width: the last length that is a
whole number of chunks is kept, and the next one is refused, since it would be rounded to the first
number that does not fit. -/
theorem last_whole_chunk_is_kept :
    pitchedLength ⟨9223372036854775804, by decide⟩ ⟨16, by decide⟩ ⟨4, by decide⟩ =
        .ok ⟨9223372036854775804, by decide⟩ ∧
      pitchedLength ⟨9223372036854775805, by decide⟩ ⟨16, by decide⟩ ⟨4, by decide⟩ =
        .error (.lengthOutOfRange 9223372036854775805) := by
  have power : ∃ power : Nat, (16 : Int) = 2 ^ power := ⟨4, by decide⟩
  constructor
  · obtain ⟨-, smallest, least, kept, -⟩ := ((pitched_length_is_smallest_aligned
      ⟨9223372036854775804, by decide⟩ ⟨16, by decide⟩ ⟨4, by decide⟩).2.2 (by decide)
        (by decide)).2.2 power (by decide)
    rw [kept]
    exact Int.le_antisymm least.1.1 (least.2 ⟨by decide, by decide⟩)
  · obtain ⟨-, smallest, least, -, refused⟩ := ((pitched_length_is_smallest_aligned
      ⟨9223372036854775805, by decide⟩ ⟨16, by decide⟩ ⟨4, by decide⟩).2.2 (by decide)
        (by decide)).2.2 power (by decide)
    rw [refused]
    obtain ⟨above, aligned⟩ := least.1
    intro fits
    have inside := fits.2
    simp only at above aligned inside
    omega

end KernelIR.Layout
