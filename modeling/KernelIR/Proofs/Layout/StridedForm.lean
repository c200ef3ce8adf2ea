import KernelIR.Proofs.Layout.Addresses
import KernelIR.Proofs.Layout.Spans

/-!
Dense layouts with all their strides written out. The strided form of a layout finds the same
address for every index, or stops at the same operation, since a product with one stays what it is.
It also asks for a buffer of the same length, except where the slowest dimension alone is empty: a
dense layout counts its planes and needs nothing then, while the strided form counts what each
dimension spans.
-/

set_option autoImplicit false

namespace KernelIR

/-- A step of one on the contiguous axis never leaves the width. -/
theorem Signed.mul_unit {bits : Nat} (widths : 32 ≤ bits) (index : Signed bits) :
    index.mul ((⟨1, fits_one_int⟩ : Signed 32).extend widths) = .ok index := by
  rw [Signed.mul_eq_ok_iff, Signed.extend_val]
  exact (Int.mul_one index.val).symm

namespace Layout

variable {bits : Nat}

namespace Plane

def general (plane : Plane) : Plane := .strided plane.strides.x plane.strides.y

theorem Positive.general {plane : Plane} (positive : plane.Positive) : plane.general.Positive := by
  unfold Positive at positive ⊢
  cases plane <;> simpa [Plane.general, strides, freeStrides, and_comm] using positive

theorem toStrided_eq_ok {plane : Plane} (positive : plane.Positive) :
    plane.toStrided = .ok plane.general := by
  cases plane with
  | strided x y => rfl
  | _ => exact (checked_eq_ok_iff _ _).mpr ⟨positive.general, rfl⟩

theorem general_address (widths : 32 ≤ bits) (plane : Plane) (index : Index2 bits) :
    plane.general.address widths index = plane.address widths index := by
  cases plane with
  | strided x y => rfl
  | _ =>
      simp only [general, strides, address, Signed.mul_unit]
      rfl

theorem general_dimensions_perm (plane : Plane) (extent : Index2 32) :
    (plane.dimensions extent).Perm (plane.general.dimensions extent) := by
  cases plane with
  | alongX pitch => exact .swap _ _ _
  | _ => exact .refl _

theorem map_dimensions_extent (plane : Plane) (extent : Index2 32) :
    (plane.dimensions extent).map (fun dimension => dimension.extent.val) = plane.digits extent := by
  cases plane <;> rfl

theorem dimensions_extent_natural (plane : Plane) {extent : Index2 32}
    (natural : ∀ component ∈ extent.values, 0 ≤ component) :
    ∀ dimension ∈ plane.dimensions extent, 0 ≤ dimension.extent.val := by
  cases plane <;> simpa [dimensions, Index2.values, Index2.components, and_comm] using natural

theorem dimensions_ne_nil (plane : Plane) (extent : Index2 32) : plane.dimensions extent ≠ [] := by
  cases plane <;> exact List.cons_ne_nil _ _

theorem dense_descending {plane : Plane} (positive : plane.Positive) (dense : plane.isDense = true)
    (extent : Index2 32) : Descending (plane.dimensions extent) := by
  unfold Positive at positive
  cases plane with
  | strided x y => contradiction
  | _ => simpa [Descending, dimensions, freeStrides] using positive

theorem general_bufferLength {plane : Plane} (positive : plane.Positive)
    (dense : plane.isDense = true) {extent : Index2 32} {length : Signed 64}
    (natural : ∀ component ∈ extent.values, 0 ≤ component)
    (taken : plane.bufferLength extent = .ok length) :
    ∃ needed, plane.general.bufferLength extent = .ok needed ∧
      ∀ slowest faster, plane.digits extent = slowest :: faster →
        (needed = length ↔ 0 < slowest ∨ ∀ component ∈ faster, component = 0) ∧
        (slowest = 0 → length.val = 0 ∧ Widest (plane.dimensions extent) needed.val) := by
  obtain ⟨nested, full⟩ := (dense_bufferLength_eq_ok_iff dense extent length).mp taken
  obtain ⟨needed, found, agree⟩ := nested.strided_length full
    (dense_descending positive dense extent) (dimensions_positive positive extent)
    (dimensions_extent_natural plane natural) (dimensions_ne_nil plane extent)
    (general_dimensions_perm plane extent)
  rw [map_dimensions_extent] at agree
  exact ⟨needed, (strided_bufferLength_eq_ok_iff rfl extent needed).mpr found, agree⟩

end Plane

namespace Volume

def general (volume : Volume) : Volume :=
  .strided volume.strides.x volume.strides.y volume.strides.z

theorem Positive.general {volume : Volume} (positive : volume.Positive) :
    volume.general.Positive := by
  unfold Positive at positive ⊢
  cases volume <;>
    simpa [Volume.general, strides, freeStrides, and_comm, and_left_comm] using positive

theorem toStrided_eq_ok {volume : Volume} (positive : volume.Positive) :
    volume.toStrided = .ok volume.general := by
  cases volume with
  | strided x y z => rfl
  | _ => exact (checked_eq_ok_iff _ _).mpr ⟨⟨positive.general, trivial⟩, rfl⟩

theorem general_address (widths : 32 ≤ bits) (volume : Volume) (index : Index3 bits) :
    volume.general.address widths index = volume.address widths index := by
  cases volume with
  | strided x y z => rfl
  | _ =>
      simp only [general, strides, address, Signed.mul_unit]
      rfl

theorem general_dimensions_perm (volume : Volume) (extent : Index3 32) :
    (volume.dimensions extent).Perm (volume.general.dimensions extent) := by
  cases volume with
  | alongX row plane => exact (List.reverse_perm _).symm
  | _ => exact .refl _

theorem map_dimensions_extent (volume : Volume) (extent : Index3 32) :
    (volume.dimensions extent).map (fun dimension => dimension.extent.val) =
      volume.digits extent := by
  cases volume <;> rfl

theorem dimensions_extent_natural (volume : Volume) {extent : Index3 32}
    (natural : ∀ component ∈ extent.values, 0 ≤ component) :
    ∀ dimension ∈ volume.dimensions extent, 0 ≤ dimension.extent.val := by
  cases volume <;>
    simpa [dimensions, Index3.values, Index3.components, and_comm, and_left_comm, and_assoc]
      using natural

theorem dimensions_ne_nil (volume : Volume) (extent : Index3 32) : volume.dimensions extent ≠ [] := by
  cases volume <;> exact List.cons_ne_nil _ _

theorem dense_descending {volume : Volume} (positive : volume.Positive) (layered : volume.Layered)
    (dense : volume.isDense = true) (extent : Index3 32) :
    Descending (volume.dimensions extent) := by
  unfold Positive at positive
  cases volume with
  | strided x y z => contradiction
  | _ =>
      simp only [freeStrides, List.forall_mem_cons] at positive
      simp [Descending, dimensions, positive]
      exact layered

theorem general_bufferLength {volume : Volume} (positive : volume.Positive) (layered : volume.Layered)
    (dense : volume.isDense = true) {extent : Index3 32} {length : Signed 64}
    (natural : ∀ component ∈ extent.values, 0 ≤ component)
    (taken : volume.bufferLength extent = .ok length) :
    ∃ needed, volume.general.bufferLength extent = .ok needed ∧
      ∀ slowest faster, volume.digits extent = slowest :: faster →
        (needed = length ↔ 0 < slowest ∨ ∀ component ∈ faster, component = 0) ∧
        (slowest = 0 → length.val = 0 ∧ Widest (volume.dimensions extent) needed.val) := by
  obtain ⟨nested, full⟩ := (dense_bufferLength_eq_ok_iff dense extent length).mp taken
  obtain ⟨needed, found, agree⟩ := nested.strided_length full
    (dense_descending positive layered dense extent) (dimensions_positive positive extent)
    (dimensions_extent_natural volume natural) (dimensions_ne_nil volume extent)
    (general_dimensions_perm volume extent)
  rw [map_dimensions_extent] at agree
  exact ⟨needed, (strided_bufferLength_eq_ok_iff rfl extent needed).mpr found, agree⟩

end Volume

/-- Every layout that was made has a strided form. That has the same strides and, in every width,
takes every index to the same address or leaves the width in the same operation, also where the
index has negative components or the address itself would fit. -/
theorem strided_form_keeps_addresses :
    (∀ {plane : Plane}, plane.Built →
      plane.toStrided = .ok plane.general ∧ plane.general.strides = plane.strides ∧
        ∀ {bits : Nat} (widths : 32 ≤ bits) (index : Index2 bits),
          plane.general.address widths index = plane.address widths index) ∧
    ∀ {volume : Volume}, volume.Built →
      volume.toStrided = .ok volume.general ∧ volume.general.strides = volume.strides ∧
        ∀ {bits : Nat} (widths : 32 ≤ bits) (index : Index3 bits),
          volume.general.address widths index = volume.address widths index := by
  constructor
  · intro plane built
    have made := Plane.toStrided_eq_ok built.positive
    exact ⟨made, rfl, fun widths index => Plane.general_address widths plane index⟩
  · intro volume built
    have made := Volume.toStrided_eq_ok built.positive
    exact ⟨made, rfl, fun widths index => Volume.general_address widths volume index⟩

/-- The third row of the widest plane begins behind all 32-bit addresses. In a volume of single
elements the planes and rows overflow together, although a step back along the contiguous axis would
bring the sum into the width again. -/
theorem strided_form_keeps_overflows :
    (∃ general, (Plane.alongX greatest).toStrided = .ok general ∧
      general.strides = ⟨⟨1, by decide⟩, greatest⟩ ∧
      general.address (Nat.le_refl 32) ⟨⟨-5, by decide⟩, ⟨2, by decide⟩⟩ = .error .multiply) ∧
    ∃ general, (Volume.alongZ ⟨1, by decide⟩ ⟨1, by decide⟩).toStrided = .ok general ∧
      general.strides = ⟨⟨1, by decide⟩, ⟨1, by decide⟩, ⟨1, by decide⟩⟩ ∧
      general.address (Nat.le_refl 32) ⟨greatest, ⟨1, by decide⟩, ⟨-1, by decide⟩⟩ =
        .error .add ∧
      general.address int_le_long
          ⟨greatest.extend int_le_long, ⟨1, by decide⟩, ⟨-1, by decide⟩⟩ =
        .ok (greatest.extend int_le_long) := by
  constructor
  · have made : (Plane.alongX greatest).checked = .ok (.alongX greatest) := rfl
    obtain ⟨form, strides, same⟩ := strided_form_keeps_addresses.1 (.checked made)
    exact ⟨_, form, strides, same (Nat.le_refl 32) _⟩
  · have made : (Volume.alongZ ⟨1, by decide⟩ ⟨1, by decide⟩).checked =
        .ok (.alongZ ⟨1, by decide⟩ ⟨1, by decide⟩) := rfl
    obtain ⟨form, strides, same⟩ := strided_form_keeps_addresses.2 (.checked made)
    exact ⟨_, form, strides, same (Nat.le_refl 32) _, same int_le_long _⟩

/-- A plane of no rows needs no elements, but one column still spans one of them in the strided
form. -/
theorem columns_without_rows_span :
    ¬ ∀ {plane : Plane} {extent : Index2 32} {length : Signed 64}, plane.Built →
      plane.isDense = true → (∀ component ∈ extent.values, 0 ≤ component) →
        plane.bufferLength extent = .ok length →
          ∃ general, plane.toStrided = .ok general ∧ general.bufferLength extent = .ok length := by
  intro agree
  have made : (Plane.alongX ⟨1, by decide⟩).checked = .ok (.alongX ⟨1, by decide⟩) := rfl
  have taken : (Plane.alongX ⟨1, by decide⟩).bufferLength ⟨⟨1, by decide⟩, ⟨0, by decide⟩⟩ =
      .ok ⟨0, by decide⟩ := rfl
  obtain ⟨general, form, length⟩ := agree (.checked made) rfl (by decide) taken
  have strided : (Plane.alongX ⟨1, by decide⟩).toStrided =
      .ok (.strided ⟨1, by decide⟩ ⟨1, by decide⟩) := rfl
  rw [strided] at form
  cases form
  exact absurd length (by decide)

/-- Where a dense layout takes an extent without negative components, the strided form has a length
for it too. The two agree exactly if the slowest component is not zero or all components are zero;
otherwise the dense length is zero and the strided one is the widest span. -/
theorem strided_form_needs_same_length :
    (∀ {plane : Plane} {extent : Index2 32} {length : Signed 64}, plane.Built →
      plane.isDense = true → (∀ component ∈ extent.values, 0 ≤ component) →
        plane.bufferLength extent = .ok length →
          plane.toStrided = .ok plane.general ∧
            ∃ needed, plane.general.bufferLength extent = .ok needed ∧
              ∀ slowest faster, plane.digits extent = slowest :: faster →
                (needed = length ↔ 0 < slowest ∨ ∀ component ∈ faster, component = 0) ∧
                (slowest = 0 →
                  length.val = 0 ∧ Widest (plane.dimensions extent) needed.val)) ∧
    ∀ {volume : Volume} {extent : Index3 32} {length : Signed 64}, volume.Built →
      volume.isDense = true → (∀ component ∈ extent.values, 0 ≤ component) →
        volume.bufferLength extent = .ok length →
          volume.toStrided = .ok volume.general ∧
            ∃ needed, volume.general.bufferLength extent = .ok needed ∧
              ∀ slowest faster, volume.digits extent = slowest :: faster →
                (needed = length ↔ 0 < slowest ∨ ∀ component ∈ faster, component = 0) ∧
                (slowest = 0 →
                  length.val = 0 ∧ Widest (volume.dimensions extent) needed.val) := by
  constructor
  · intro plane extent length built dense natural taken
    have positive := built.positive
    exact ⟨Plane.toStrided_eq_ok positive,
      Plane.general_bufferLength positive dense natural taken⟩
  · intro volume extent length built dense natural taken
    have strides := built.positive_layered
    exact ⟨Volume.toStrided_eq_ok strides.1,
      Volume.general_bufferLength strides.1 strides.2 dense natural taken⟩

/-- A plane of three columns without rows needs nothing, while its strided form spans the three
columns. Two planes of rows that are padded to four elements need the same in both forms, although
the planes have no rows. -/
theorem empty_extents_in_both_forms :
    (∃ needed, (Plane.strided ⟨1, by decide⟩ ⟨4, by decide⟩).bufferLength
        ⟨⟨3, by decide⟩, ⟨0, by decide⟩⟩ = .ok needed ∧
      needed ≠ ⟨0, by decide⟩ ∧
      Widest [⟨⟨4, by decide⟩, ⟨0, by decide⟩⟩, ⟨⟨1, by decide⟩, ⟨3, by decide⟩⟩] needed.val) ∧
    (Volume.strided ⟨1, by decide⟩ ⟨4, by decide⟩ ⟨4, by decide⟩).bufferLength
      ⟨⟨3, by decide⟩, ⟨0, by decide⟩, ⟨2, by decide⟩⟩ = .ok ⟨8, by decide⟩ := by
  constructor
  · have made : (Plane.alongX ⟨4, by decide⟩).checked = .ok (.alongX ⟨4, by decide⟩) := rfl
    have taken : (Plane.alongX ⟨4, by decide⟩).bufferLength ⟨⟨3, by decide⟩, ⟨0, by decide⟩⟩ =
        .ok ⟨0, by decide⟩ := rfl
    obtain ⟨-, needed, found, agree⟩ :=
      strided_form_needs_same_length.1 (.checked made) rfl (by decide) taken
    have compared := agree 0 [3] rfl
    refine ⟨needed, found, ?_, (compared.2 rfl).2⟩
    rw [Ne, compared.1]
    decide
  · have made : Volume.pitchedAlongX ⟨⟨3, by decide⟩, ⟨0, by decide⟩, ⟨2, by decide⟩⟩
        ⟨16, by decide⟩ ⟨4, by decide⟩ = .ok (.alongX ⟨4, by decide⟩ ⟨4, by decide⟩) := by
      decide +kernel
    have taken : (Volume.alongX ⟨4, by decide⟩ ⟨4, by decide⟩).bufferLength
        ⟨⟨3, by decide⟩, ⟨0, by decide⟩, ⟨2, by decide⟩⟩ = .ok ⟨8, by decide⟩ := rfl
    obtain ⟨-, needed, found, agree⟩ :=
      strided_form_needs_same_length.2 (.pitchedAlongX made) rfl (by decide) taken
    have same := (agree 2 [0, 3] rfl).1.mpr (.inl (by decide))
    exact found.trans (congrArg Except.ok same)

end Layout

end KernelIR
