import KernelIR.Proofs.Layout.Addresses
import KernelIR.Proofs.Layout.Spans
import Mathlib

/-!
Lengths of strided buffers in unbounded integers. Each product of a stride and a 32-bit number has
room in 64 bits, and so has the sum of two of them, but not the sum of three. Main statement: a
strided plane has the length that is needed for every extent; a strided volume has it exactly if it
is a 64-bit number, and for the others, none of which has an empty dimension, the addition of the
products overflows.
-/

set_option autoImplicit false

namespace KernelIR.Layout

variable {dimensions : List Dimension}

/-- The greatest product of a stride and an extent. -/
def widestSpan (dimensions : List Dimension) : Int :=
  (dimensions.map fun dimension => dimension.stride.val * dimension.extent.val).max?.getD 0

/-- The greatest span; for a box with elements at least one more than its last address. -/
def neededLength (dimensions : List Dimension) : Int :=
  if ∃ dimension ∈ dimensions, dimension.extent.val ≤ 0 then widestSpan dimensions
  else max (widestSpan dimensions)
    (1 + (dimensions.map fun dimension =>
      dimension.stride.val * (dimension.extent.val - 1)).sum)

theorem Widest.eq_widestSpan {length : Int} (widest : Widest dimensions length) :
    widestSpan dimensions = length := by
  have greatest : (dimensions.map fun dimension =>
      dimension.stride.val * dimension.extent.val).max? = some length := by
    rw [List.max?_eq_some_iff]
    constructor
    · obtain ⟨dimension, member, span⟩ := widest.spanned
      exact List.mem_map.mpr ⟨dimension, member, span⟩
    · intro span listed
      obtain ⟨dimension, member, rfl⟩ := List.mem_map.mp listed
      exact widest.bound dimension member
  rw [widestSpan, greatest, Option.getD_some]

theorem greatestSpan_val (some : dimensions ≠ []) :
    (greatestSpan dimensions).val = widestSpan dimensions :=
  (greatestSpan_widest some).eq_widestSpan.symm

theorem offset_last_eq_sum (dimensions : List Dimension) :
    offset dimensions (lastIndices dimensions) =
      (dimensions.map fun dimension => dimension.stride.val * (dimension.extent.val - 1)).sum := by
  induction dimensions with
  | nil => rfl
  | cons dimension dimensions ih =>
      rw [offset_last_cons, ih, List.map_cons, List.sum_cons, Int.mul_comm]

theorem neededLength_of_empty (empty : ∃ dimension ∈ dimensions, dimension.extent.val ≤ 0) :
    neededLength dimensions = widestSpan dimensions := if_pos empty

theorem neededLength_of_filled (filled : ∀ dimension ∈ dimensions, 0 < dimension.extent.val) :
    neededLength dimensions =
      max (widestSpan dimensions) (1 + offset dimensions (lastIndices dimensions)) := by
  have noneEmpty : ¬ ∃ dimension ∈ dimensions, dimension.extent.val ≤ 0 := by
    simpa using filled
  rw [neededLength, if_neg noneEmpty, offset_last_eq_sum]

theorem stridedLength_exact (some : dimensions ≠ [])
    (strides : ∀ dimension ∈ dimensions, 0 ≤ dimension.stride.val) (length : Signed 64) :
    stridedLength dimensions = .ok length ↔ length.val = neededLength dimensions := by
  by_cases empty : ∃ dimension ∈ dimensions, dimension.extent.val ≤ 0
  · rw [stridedLength_of_empty empty, neededLength_of_empty empty, ← greatestSpan_val some,
      Except.ok.injEq, Signed.val_inj, eq_comm]
  · have filled : ∀ dimension ∈ dimensions, 0 < dimension.extent.val := by
      simpa using empty
    rw [stridedLength_eq_ok_iff filled strides, neededLength_of_filled filled,
      greatestSpan_val some, Int.add_comm 1]

/-- The products of the last address have room in 64 bits, so only an addition can leave them. -/
theorem sum_from_error {start : Signed 64} {operation : Overflow}
    (filled : ∀ dimension ∈ dimensions, 0 < dimension.extent.val)
    (failed : dimensions.foldlM
      (fun address dimension => do
        let step ← (dimension.stride.extend int_le_long).mul dimension.extent.predLong
        address.add step) start = .error operation) : operation = .add := by
  induction dimensions generalizing start with
  | nil => cases failed
  | cons dimension dimensions ih =>
      rw [List.forall_mem_cons] at filled
      rw [List.foldlM_cons, bind_eq_error_iff] at failed
      rcases failed with here | ⟨next, -, rest⟩
      · rcases (bind_eq_error_iff _ _ _).mp here with noProduct | ⟨step, -, noSum⟩
        · have last : Fits 32 (dimension.extent.val - 1) :=
            dimension.extent.fits.below (by omega) (by omega)
          have product : (dimension.stride.extend int_le_long).mul dimension.extent.predLong =
              .ok (dimension.stride.mulLong ⟨_, last⟩) := Signed.mul_eq_ok_iff.mpr rfl
          rw [product] at noProduct
          cases noProduct
        · exact Signed.add_eq_error noSum
      · exact ih filled.2 rest

theorem stridedLength_error {operation : Overflow}
    (failed : stridedLength dimensions = .error operation) :
    (∀ dimension ∈ dimensions, 0 < dimension.extent.val) ∧ operation = .add := by
  by_cases empty : ∃ dimension ∈ dimensions, dimension.extent.val ≤ 0
  · rw [stridedLength_of_empty empty] at failed
    cases failed
  · have filled : ∀ dimension ∈ dimensions, 0 < dimension.extent.val := by
      simpa using empty
    have noneEmpty : ¬ dimensions.any (fun dimension => dimension.extent.val ≤ 0) := by
      simpa using filled
    refine ⟨filled, ?_⟩
    unfold stridedLength at failed
    rw [if_neg noneEmpty, bind_eq_error_iff] at failed
    rcases failed with noLast | ⟨last, -, rest⟩
    · exact sum_from_error filled noLast
    · rcases (bind_eq_error_iff _ _ _).mp rest with noPast | ⟨past, -, made⟩
      · exact Signed.add_eq_error noPast
      · cases made

theorem stridedLength_of_unfit (some : dimensions ≠ [])
    (strides : ∀ dimension ∈ dimensions, 0 ≤ dimension.stride.val)
    (unfit : ¬ Fits 64 (neededLength dimensions)) :
    (∀ dimension ∈ dimensions, 0 < dimension.extent.val) ∧
      stridedLength dimensions = .error .add := by
  cases outcome : stridedLength dimensions with
  | ok length =>
      rw [stridedLength_exact some strides] at outcome
      exact absurd (outcome ▸ length.fits) unfit
  | error operation =>
      obtain ⟨filled, rfl⟩ := stridedLength_error outcome
      exact ⟨filled, rfl⟩

theorem neededLength_fits_iff (some : dimensions ≠ []) :
    Fits 64 (neededLength dimensions) ↔ neededLength dimensions < 2 ^ 63 := by
  have widest := (greatestSpan dimensions).fits
  rw [greatestSpan_val some] at widest
  have most : widestSpan dimensions ≤ neededLength dimensions := by
    unfold neededLength
    split
    · exact Int.le_refl _
    · exact Int.le_max_left _ _
  unfold Fits at *
  omega

theorem last_step_le {dimension : Dimension} (natural : 0 ≤ dimension.stride.val)
    (filled : 0 < dimension.extent.val) :
    dimension.stride.val * (dimension.extent.val - 1) ≤ 2147483647 * 2147483646 := by
  have stride := dimension.stride.fits.2
  have extent := dimension.extent.fits.2
  have first : dimension.stride.val ≤ 2147483647 := by omega
  have second : dimension.extent.val - 1 ≤ 2147483646 := by omega
  calc
    dimension.stride.val * (dimension.extent.val - 1) ≤
        2147483647 * (dimension.extent.val - 1) :=
      Int.mul_le_mul_of_nonneg_right first (by omega)
    _ ≤ 2147483647 * 2147483646 := Int.mul_le_mul_of_nonneg_left second (by decide)

theorem neededLength_of_pair_fits {first second : Dimension} (natural : 0 ≤ first.stride.val)
    (natural' : 0 ≤ second.stride.val) : Fits 64 (neededLength [first, second]) := by
  have some : [first, second] ≠ [] := List.cons_ne_nil first [second]
  have widest := (greatestSpan [first, second]).fits
  rw [greatestSpan_val some] at widest
  by_cases empty : ∃ dimension ∈ [first, second], dimension.extent.val ≤ 0
  · rw [neededLength_of_empty empty]
    exact widest
  · have filled : 0 < first.extent.val ∧ 0 < second.extent.val := by
      simpa using empty
    have one := last_step_le natural filled.1
    have two := last_step_le natural' filled.2
    rw [neededLength_fits_iff some, neededLength, if_neg empty]
    simp only [List.map_cons, List.map_nil, List.sum_cons, List.sum_nil]
    unfold Fits at widest
    omega

/-- A strided plane has the length that is needed, whatever the extent. A strided volume has it as
long as it is less than the end of the width; otherwise no dimension is empty, and an addition
overflows. -/
theorem strided_lengths_are_exact {x y : Signed 32} (xPositive : 1 ≤ x.val)
    (yPositive : 1 ≤ y.val) :
    (∀ extent : Index2 32,
      ∃ length, (Plane.strided x y).bufferLength extent = .ok length ∧
        length.val = neededLength [⟨x, extent.x⟩, ⟨y, extent.y⟩]) ∧
    ∀ {z : Signed 32}, 1 ≤ z.val → ∀ extent : Index3 32,
      let needed := neededLength [⟨x, extent.x⟩, ⟨y, extent.y⟩, ⟨z, extent.z⟩]
      (needed < 2 ^ 63 → ∃ length,
        (Volume.strided x y z).bufferLength extent = .ok length ∧ length.val = needed) ∧
      (2 ^ 63 ≤ needed → (∀ component ∈ extent.values, 0 < component) ∧
        (Volume.strided x y z).bufferLength extent = .error (.overflow .add)) := by
  constructor
  · intro extent
    have strides : ∀ dimension ∈ [(⟨x, extent.x⟩ : Dimension), ⟨y, extent.y⟩],
        0 ≤ dimension.stride.val := by
      simpa using ⟨Int.le_of_lt xPositive, Int.le_of_lt yPositive⟩
    have fits : Fits 64 (neededLength [⟨x, extent.x⟩, ⟨y, extent.y⟩]) :=
      neededLength_of_pair_fits (Int.le_of_lt xPositive) (Int.le_of_lt yPositive)
    refine ⟨⟨_, fits⟩, ?_, rfl⟩
    rw [Plane.strided_bufferLength_eq_ok_iff rfl]
    exact (stridedLength_exact (List.cons_ne_nil _ _) strides _).mpr rfl
  · intro z zPositive extent needed
    have some : [(⟨x, extent.x⟩ : Dimension), ⟨y, extent.y⟩, ⟨z, extent.z⟩] ≠ [] :=
      List.cons_ne_nil _ _
    have strides : ∀ dimension ∈ [(⟨x, extent.x⟩ : Dimension), ⟨y, extent.y⟩, ⟨z, extent.z⟩],
        0 ≤ dimension.stride.val := by
      simpa using ⟨Int.le_of_lt xPositive, Int.le_of_lt yPositive, Int.le_of_lt zPositive⟩
    constructor
    · intro below
      refine ⟨⟨needed, (neededLength_fits_iff some).mpr below⟩, ?_, rfl⟩
      rw [Volume.strided_bufferLength_eq_ok_iff rfl]
      exact (stridedLength_exact some strides _).mpr rfl
    · intro beyond
      have unfit := mt (neededLength_fits_iff some).mp (Int.not_lt.mpr beyond)
      obtain ⟨filled, failed⟩ := stridedLength_of_unfit some strides unfit
      constructor
      · simpa [Index3.values, Index3.components] using filled
      · exact congrArg (fun found => (liftM found : Except Fault (Signed 64))) failed

/-- The greatest plane has a length, and so has the volume of single elements above it. A volume of
the greatest strides is too long from eight planes on. -/
theorem lengths_up_to_last_element :
    (∃ length, (Plane.strided greatest greatest).bufferLength ⟨greatest, greatest⟩ = .ok length ∧
      length.val = 9223372023969873925) ∧
    (∃ length, (Volume.strided greatest greatest ⟨1, by decide⟩).bufferLength
        ⟨greatest, greatest, greatest⟩ = .ok length ∧
      length.val = 9223372026117357571) ∧
    (Volume.strided greatest greatest greatest).bufferLength
        ⟨greatest, greatest, ⟨8, by decide⟩⟩ = .error (.overflow .add) := by
  refine ⟨?_, ?_, ?_⟩
  · exact (strided_lengths_are_exact (by decide) (by decide)).1 _
  · exact ((strided_lengths_are_exact (by decide) (by decide)).2 (by decide) _).1 (by decide)
  · exact (((strided_lengths_are_exact (by decide) (by decide)).2 (by decide) _).2 (by decide)).2

/-- Of the volume with the greatest strides the box with the greatest extent has no length: what it
needs is more than 64 bits hold. -/
theorem greatest_volume_has_no_length :
    ¬ ∀ {x y z : Signed 32}, 1 ≤ x.val → 1 ≤ y.val → 1 ≤ z.val → ∀ extent : Index3 32,
      ∃ length, (Volume.strided x y z).bufferLength extent = .ok length ∧
        length.val = neededLength [⟨x, extent.x⟩, ⟨y, extent.y⟩, ⟨z, extent.z⟩] := by
  intro exact
  have positive : 1 ≤ greatest.val := by decide
  have overflows : (Volume.strided greatest greatest greatest).bufferLength
      ⟨greatest, greatest, greatest⟩ = .error (.overflow .add) := rfl
  obtain ⟨length, found, -⟩ := exact positive positive positive ⟨greatest, greatest, greatest⟩
  rw [overflows] at found
  cases found

end KernelIR.Layout
