import KernelIR.Proofs.Layout.Extents
import KernelIR.Proofs.Layout.Widths

/-!
Where the rows of pitched layouts begin. The row stride has an aligned size in bytes, the stride of
planes is a whole number of row strides, and an address is the sum of the components times the
strides. Main statement: the row stride is the smallest one with an aligned size that has room for a
row, and every element that is the first of its row, in whatever plane, is at an aligned byte.
-/

set_option autoImplicit false

namespace KernelIR.Layout

variable {length row : Signed 32} {alignment elementSize pitch : Signed 64}

theorem row_isLeast (filled : 1 ≤ length.val)
    (pitched : pitchedLength (length.extend int_le_long) alignment elementSize = .ok pitch)
    (stride : row.val = max pitch.val 1) :
    IsLeast {n : Int | length.val ≤ n ∧ alignment.val ∣ n * elementSize.val} row.val := by
  have least := pitchedLength_isLeast pitched
  have long := least.1.1
  rw [Signed.extend_val] at long
  have same : row.val = pitch.val := by omega
  rw [same]
  exact least

theorem dvd_of_whole {alignment elementSize stride address count : Int}
    (aligned : alignment ∣ stride * elementSize) (whole : address = count * stride) :
    alignment ∣ address * elementSize := by
  rw [whole, Int.mul_assoc]
  exact Int.dvd_mul_of_dvd_right aligned

namespace Plane

/-- The rows have room for this length, are as far apart as the alignment needs and no further, and
begin at aligned bytes. -/
def Aligned (plane : Plane) (family : Signed 32 → Plane) (leading : Index2 64 → Signed 64)
    (length alignment elementSize : Int) : Prop :=
  ∃ row, plane = family row ∧
    IsLeast {n : Int | length ≤ n ∧ alignment ∣ n * elementSize} row.val ∧
    ∀ (index : Index2 64) (address : Signed 64), (leading index).val = 0 →
      plane.address int_le_long index = .ok address → alignment ∣ address.val * elementSize

theorem Fitted.aligned {family : Signed 32 → Plane} {leading : Index2 64 → Signed 64}
    {extent : Index2 32} {rows : Signed 32} {made : Except Failure Plane} {plane : Plane}
    (fitted : Fitted family extent rows
      (pitchedLength (length.extend int_le_long) alignment elementSize) made)
    (starts : ∀ row index, (leading index).val = 0 →
      ∃ count, index.along (family row).strides = count * row.val)
    (filled : 1 ≤ length.val) (found : made = .ok plane) :
    plane.Aligned family leading length.val alignment.val elementSize.val := by
  obtain ⟨pitch, row, needed, pitched, rfl, stride, -⟩ := fitted.taken plane found
  have least := row_isLeast filled pitched stride
  refine ⟨row, rfl, least, ?_⟩
  intro index address first reached
  obtain ⟨count, whole⟩ := starts row index first
  rw [← address_val int_le_long reached] at whole
  exact dvd_of_whole least.1.2 whole

end Plane

namespace Volume

def Aligned (volume : Volume) (family : Signed 32 → Signed 32 → Volume)
    (leading : Index3 64 → Signed 64) (length alignment elementSize : Int) : Prop :=
  ∃ row plane, volume = family row plane ∧
    IsLeast {n : Int | length ≤ n ∧ alignment ∣ n * elementSize} row.val ∧
    ∀ (index : Index3 64) (address : Signed 64), (leading index).val = 0 →
      volume.address int_le_long index = .ok address → alignment ∣ address.val * elementSize

theorem Fitted.aligned {family : Signed 32 → Signed 32 → Volume} {leading : Index3 64 → Signed 64}
    {extent : Index3 32} {rows planes : Signed 32} {made : Except Failure Volume} {volume : Volume}
    (fitted : Fitted family extent rows planes
      (pitchedLength (length.extend int_le_long) alignment elementSize) made)
    (starts : ∀ row plane index many, plane.val = row.val * many → (leading index).val = 0 →
      ∃ count, index.along (family row plane).strides = count * row.val)
    (filled : 1 ≤ length.val) (found : made = .ok volume) :
    volume.Aligned family leading length.val alignment.val elementSize.val := by
  obtain ⟨pitch, row, plane, needed, pitched, rfl, stride, many, -⟩ := fitted.taken volume found
  have least := row_isLeast filled pitched stride
  refine ⟨row, plane, rfl, least, ?_⟩
  intro index address first reached
  obtain ⟨count, whole⟩ := starts row plane index _ many first
  rw [← address_val int_le_long reached] at whole
  exact dvd_of_whole least.1.2 whole

end Volume

/-- Of every pitched layout of an extent whose leading component is not empty, the row stride is the
smallest number that is not below this component and has an aligned size in bytes. Whatever the
signs of the other components, an element whose leading component is zero has an address at an
aligned byte, if it has one in 64 bits. -/
theorem pitched_rows_begin_aligned :
    (∀ {extent : Index2 32} {alignment elementSize : Signed 64} {plane : Plane},
      (1 ≤ extent.x.val → Plane.pitchedAlongX extent alignment elementSize = .ok plane →
        plane.Aligned .alongX Index2.x extent.x.val alignment.val elementSize.val) ∧
      (1 ≤ extent.y.val → Plane.pitchedAlongY extent alignment elementSize = .ok plane →
        plane.Aligned .alongY Index2.y extent.y.val alignment.val elementSize.val)) ∧
    ∀ {extent : Index3 32} {alignment elementSize : Signed 64} {volume : Volume},
      (1 ≤ extent.x.val → Volume.pitchedAlongX extent alignment elementSize = .ok volume →
        volume.Aligned .alongX Index3.x extent.x.val alignment.val elementSize.val) ∧
      (1 ≤ extent.z.val → Volume.pitchedAlongZ extent alignment elementSize = .ok volume →
        volume.Aligned .alongZ Index3.z extent.z.val alignment.val elementSize.val) := by
  constructor
  · intro extent alignment elementSize plane
    constructor
    · refine Plane.Fitted.aligned (Plane.alongX_fitted fun _ => pitched_above) ?_
      intro row index first
      refine ⟨index.y.val, ?_⟩
      simp [Index2.along, Plane.strides, first]
    · refine Plane.Fitted.aligned (Plane.alongY_fitted fun _ => pitched_above) ?_
      intro row index first
      refine ⟨index.x.val, ?_⟩
      simp [Index2.along, Plane.strides, first]
  · intro extent alignment elementSize volume
    constructor
    · refine Volume.Fitted.aligned (Volume.alongX_fitted fun _ => pitched_above) ?_
      intro row plane index many stride first
      refine ⟨index.y.val + index.z.val * many, ?_⟩
      simp only [Index3.along, Volume.strides, first, stride]
      ring
    · refine Volume.Fitted.aligned (Volume.alongZ_fitted fun _ => pitched_above) ?_
      intro row plane index many stride first
      refine ⟨index.x.val * many + index.y.val, ?_⟩
      simp only [Index3.along, Volume.strides, first, stride]
      ring

/-- Rows of five elements of four bytes that are aligned to sixteen bytes are eight elements apart.
The last row of the plane before the first one begins at an aligned byte too. -/
theorem row_before_first_plane_is_aligned :
    let plane : Plane := .alongY ⟨8, by decide⟩
    let volume : Volume := .alongZ ⟨8, by decide⟩ ⟨24, by decide⟩
    plane.Aligned .alongY Index2.y 5 16 4 ∧ volume.Aligned .alongZ Index3.z 5 16 4 ∧
      volume.address int_le_long ⟨⟨-1, by decide⟩, ⟨2, by decide⟩, ⟨0, by decide⟩⟩ =
        .ok ⟨-8, by decide⟩ := by
  intro plane volume
  have planeMade : Plane.pitchedAlongY ⟨⟨-3, by decide⟩, ⟨5, by decide⟩⟩ ⟨16, by decide⟩
      ⟨4, by decide⟩ = .ok plane := by decide +kernel
  have volumeMade : Volume.pitchedAlongZ ⟨⟨2, by decide⟩, ⟨3, by decide⟩, ⟨5, by decide⟩⟩
      ⟨16, by decide⟩ ⟨4, by decide⟩ = .ok volume := by decide +kernel
  exact ⟨pitched_rows_begin_aligned.1.2 (by decide) planeMade,
    pitched_rows_begin_aligned.2.2 (by decide) volumeMade, rfl⟩

end KernelIR.Layout
