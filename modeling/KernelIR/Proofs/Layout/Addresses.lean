import KernelIR.Layout.Plane
import KernelIR.Layout.Volume
import KernelIR.Proofs.Layout.Boxes

/-!
Addresses of planes and volumes. A layout is seen as a list of dimensions, the slowest first, over
which an index is counted. Where no index and no stride is negative, an address is found exactly if
the sum over the dimensions fits its width, and the address is that sum: no product and no sum on
the way to it is greater. A dense layout takes a box exactly if its dimensions are nested, so all
indices of a box that was taken have an address in the buffer.
-/

set_option autoImplicit false

namespace KernelIR.Layout

variable {bits : Nat}

def Index2.Within (index : Index2 64) (extent : Index2 32) : Prop :=
  (0 ≤ index.x.val ∧ index.x.val < extent.x.val) ∧ 0 ≤ index.y.val ∧ index.y.val < extent.y.val

def Index3.Within (index : Index3 64) (extent : Index3 32) : Prop :=
  (0 ≤ index.x.val ∧ index.x.val < extent.x.val) ∧
    (0 ≤ index.y.val ∧ index.y.val < extent.y.val) ∧ 0 ≤ index.z.val ∧ index.z.val < extent.z.val

instance (index : Index2 64) (extent : Index2 32) : Decidable (index.Within extent) :=
  inferInstanceAs (Decidable (_ ∧ _))

instance (index : Index3 64) (extent : Index3 32) : Decidable (index.Within extent) :=
  inferInstanceAs (Decidable (_ ∧ _))

theorem Index2.Within.natural {index : Index2 64} {extent : Index2 32}
    (inside : index.Within extent) : 0 ≤ index.x.val ∧ 0 ≤ index.y.val :=
  ⟨inside.1.1, inside.2.1⟩

theorem Index3.Within.natural {index : Index3 64} {extent : Index3 32}
    (inside : index.Within extent) : 0 ≤ index.x.val ∧ 0 ≤ index.y.val ∧ 0 ≤ index.z.val :=
  ⟨inside.1.1, inside.2.1.1, inside.2.2.1⟩

theorem Index2.ext_val {index other : Index2 bits} (x : index.x.val = other.x.val)
    (y : index.y.val = other.y.val) : index = other := by
  cases index
  cases other
  rw [mk.injEq]
  exact ⟨Signed.ext_val x, Signed.ext_val y⟩

theorem Index3.ext_val {index other : Index3 bits} (x : index.x.val = other.x.val)
    (y : index.y.val = other.y.val) (z : index.z.val = other.z.val) : index = other := by
  cases index
  cases other
  rw [mk.injEq]
  exact ⟨Signed.ext_val x, Signed.ext_val y, Signed.ext_val z⟩

namespace Plane

/-- The layouts that the constructors give. -/
inductive Built : Plane → Prop
  | checked {plane built : Plane} (made : plane.checked = .ok built) : Built built
  | packedAlongX {extent : Index2 32} {built : Plane} (made : packedAlongX extent = .ok built) :
      Built built
  | packedAlongY {extent : Index2 32} {built : Plane} (made : packedAlongY extent = .ok built) :
      Built built
  | pitchedAlongX {extent : Index2 32} {alignment elementSize : Signed 64} {built : Plane}
      (made : pitchedAlongX extent alignment elementSize = .ok built) : Built built
  | pitchedAlongY {extent : Index2 32} {alignment elementSize : Signed 64} {built : Plane}
      (made : pitchedAlongY extent alignment elementSize = .ok built) : Built built

def Positive (plane : Plane) : Prop := ∀ stride ∈ plane.freeStrides, 1 ≤ stride.val

theorem checked_eq_ok_iff (plane built : Plane) :
    plane.checked = .ok built ↔ plane.Positive ∧ plane = built := by
  cases plane with
  | alongX pitch =>
      simp only [checked, Positive, freeStrides, List.forall_mem_singleton]
      split <;> simp [*]
  | alongY pitch =>
      simp only [checked, Positive, freeStrides, List.forall_mem_singleton]
      split <;> simp [*]
  | strided x y =>
      simp only [checked, Positive, freeStrides, List.forall_mem_cons]
      split <;> simp [*]

theorem checked_positive {plane built : Plane} (made : plane.checked = .ok built) :
    built.Positive := by
  obtain ⟨positive, rfl⟩ := (checked_eq_ok_iff plane built).mp made
  exact positive

theorem Built.positive {plane : Plane} (built : plane.Built) : plane.Positive := by
  cases built with
  | checked made => exact checked_positive made
  | packedAlongX made => exact checked_positive made
  | packedAlongY made => exact checked_positive made
  | pitchedAlongX made =>
      unfold Plane.pitchedAlongX at made
      simp only [bind_eq_ok_iff, lift_fault_eq_ok_iff] at made
      obtain ⟨pitch, -, short, -, made⟩ := made
      exact checked_positive made
  | pitchedAlongY made =>
      unfold Plane.pitchedAlongY at made
      simp only [bind_eq_ok_iff, lift_fault_eq_ok_iff] at made
      obtain ⟨pitch, -, short, -, made⟩ := made
      exact checked_positive made

/-- The dimensions of a layout over an extent, of a dense one from the slowest to the fastest. -/
def dimensions (plane : Plane) (extent : Index2 32) : List Dimension :=
  match plane with
  | .alongX pitch => [⟨pitch, extent.y⟩, ⟨⟨1, fits_one_int⟩, extent.x⟩]
  | .alongY pitch => [⟨pitch, extent.x⟩, ⟨⟨1, fits_one_int⟩, extent.y⟩]
  | .strided x y => [⟨x, extent.x⟩, ⟨y, extent.y⟩]

def digits (plane : Plane) (index : Index2 bits) : List Int :=
  match plane with
  | .alongX _ => [index.y.val, index.x.val]
  | .alongY _ => [index.x.val, index.y.val]
  | .strided _ _ => [index.x.val, index.y.val]

theorem Positive.natural {plane : Plane} (positive : plane.Positive) :
    ∀ stride ∈ plane.freeStrides, 0 ≤ stride.val :=
  fun stride free => Int.le_trans Int.one_nonneg (positive stride free)

theorem dimensions_positive {plane : Plane} (positive : plane.Positive) (extent : Index2 32) :
    ∀ dimension ∈ plane.dimensions extent, 1 ≤ dimension.stride.val := by
  unfold Positive at positive
  cases plane <;> simpa [dimensions, freeStrides, and_comm] using positive

theorem dimensions_natural {plane : Plane} (positive : plane.Positive) (extent : Index2 32) :
    ∀ dimension ∈ plane.dimensions extent, 0 ≤ dimension.stride.val := fun dimension member =>
  Int.le_trans Int.one_nonneg (dimensions_positive positive extent dimension member)

theorem inBox_of_within (plane : Plane) {index : Index2 64} {extent : Index2 32}
    (inside : index.Within extent) : InBox (plane.dimensions extent) (plane.digits index) := by
  obtain ⟨x, y⟩ := inside
  cases plane with
  | alongX _ => exact .cons y (.cons x .nil)
  | alongY _ => exact .cons x (.cons y .nil)
  | strided _ _ => exact .cons x (.cons y .nil)

theorem digits_injective {plane : Plane} {index other : Index2 bits}
    (same : plane.digits index = plane.digits other) : index = other := by
  cases plane with
  | alongX _ =>
      injection same with y rest
      injection rest with x
      exact Index2.ext_val x y
  | alongY _ =>
      injection same with x rest
      injection rest with y
      exact Index2.ext_val x y
  | strided _ _ =>
      injection same with x rest
      injection rest with y
      exact Index2.ext_val x y

theorem address_eq_ok_iff (widths : 32 ≤ bits) {plane : Plane} (positive : plane.Positive)
    {index : Index2 bits} (natural : 0 ≤ index.x.val ∧ 0 ≤ index.y.val) (extent : Index2 32)
    (address : Signed bits) :
    plane.address widths index = .ok address ↔
      address.val = offset (plane.dimensions extent) (plane.digits index) := by
  have term : ∀ {digit : Signed bits} {stride : Signed 32}, 0 ≤ digit.val →
      stride ∈ plane.freeStrides → 0 ≤ digit.val * stride.val := fun digit free =>
    Int.mul_nonneg digit (positive.natural _ free)
  cases plane with
  | alongX pitch =>
      have rows := term natural.2 (List.mem_singleton_self pitch)
      simp only [Plane.address, dimensions, digits, offset, bind_eq_ok_iff, Signed.mul_eq_ok_iff,
        Signed.add_eq_ok_iff, Signed.extend_val]
      constructor
      · rintro ⟨row, product, sum⟩
        omega
      · intro sum
        obtain ⟨row, product⟩ := address.exists_below rows (by omega)
        exact ⟨row, product, by omega⟩
  | alongY pitch =>
      have columns := term natural.1 (List.mem_singleton_self pitch)
      simp only [Plane.address, dimensions, digits, offset, bind_eq_ok_iff, Signed.mul_eq_ok_iff,
        Signed.add_eq_ok_iff, Signed.extend_val]
      constructor
      · rintro ⟨column, product, sum⟩
        omega
      · intro sum
        obtain ⟨column, product⟩ := address.exists_below columns (by omega)
        exact ⟨column, product, by omega⟩
  | strided x y =>
      have alongX := term natural.1 (by simp [freeStrides] : x ∈ (strided x y).freeStrides)
      have alongY := term natural.2 (by simp [freeStrides] : y ∈ (strided x y).freeStrides)
      simp only [Plane.address, dimensions, digits, offset, bind_eq_ok_iff, Signed.mul_eq_ok_iff,
        Signed.add_eq_ok_iff, Signed.extend_val]
      constructor
      · rintro ⟨across, product, down, product', sum⟩
        omega
      · intro sum
        obtain ⟨across, product⟩ := address.exists_below alongX (by omega)
        obtain ⟨down, product'⟩ := address.exists_below alongY (by omega)
        exact ⟨across, product, down, product', by omega⟩

theorem dense_bufferLength_eq_ok_iff {plane : Plane} (dense : plane.isDense = true)
    (extent : Index2 32) (length : Signed 64) :
    plane.bufferLength extent = .ok length ↔
      Nested (plane.dimensions extent) ∧ covered (plane.dimensions extent) = length.val := by
  cases plane with
  | alongX pitch =>
      simp only [bufferLength, dimensions, Nested, covered, Dimension.span, Signed.mulLong_val]
      split
      · next fits => simp [fits, ← Signed.val_inj]
      · next excess => simp [excess]
  | alongY pitch =>
      simp only [bufferLength, dimensions, Nested, covered, Dimension.span, Signed.mulLong_val]
      split
      · next fits => simp [fits, ← Signed.val_inj]
      · next excess => simp [excess]
  | strided x y => contradiction

theorem strided_bufferLength_eq_ok_iff {plane : Plane} (free : plane.isDense = false)
    (extent : Index2 32) (length : Signed 64) :
    plane.bufferLength extent = .ok length ↔
      stridedLength (plane.dimensions extent) = .ok length := by
  cases plane with
  | strided x y => exact lift_overflow_eq_ok_iff _ length
  | _ => contradiction

theorem buffer_of_length {plane : Plane} (positive : plane.Positive) {extent : Index2 32}
    {length : Signed 64} (taken : plane.bufferLength extent = .ok length) :
    Buffer plane.isDense (plane.dimensions extent) length := by
  cases dense : plane.isDense with
  | true =>
      obtain ⟨nested, full⟩ := (dense_bufferLength_eq_ok_iff dense extent length).mp taken
      exact .dense nested full
  | false =>
      rw [strided_bufferLength_eq_ok_iff dense] at taken
      exact .strided (dimensions_natural positive extent) taken

end Plane

namespace Volume

inductive Built : Volume → Prop
  | checked {volume built : Volume} (made : volume.checked = .ok built) : Built built
  | packedAlongX {extent : Index3 32} {built : Volume} (made : packedAlongX extent = .ok built) :
      Built built
  | packedAlongZ {extent : Index3 32} {built : Volume} (made : packedAlongZ extent = .ok built) :
      Built built
  | pitchedAlongX {extent : Index3 32} {alignment elementSize : Signed 64} {built : Volume}
      (made : pitchedAlongX extent alignment elementSize = .ok built) : Built built
  | pitchedAlongZ {extent : Index3 32} {alignment elementSize : Signed 64} {built : Volume}
      (made : pitchedAlongZ extent alignment elementSize = .ok built) : Built built

def Positive (volume : Volume) : Prop := ∀ stride ∈ volume.freeStrides, 1 ≤ stride.val

/-- The planes of a dense layout begin at least a row apart. -/
def Layered : Volume → Prop
  | .alongX row plane => row.val ≤ plane.val
  | .alongZ row plane => row.val ≤ plane.val
  | .strided _ _ _ => True

theorem checked_eq_ok_iff (volume built : Volume) :
    volume.checked = .ok built ↔ (volume.Positive ∧ volume.Layered) ∧ volume = built := by
  cases volume with
  | alongX row plane =>
      simp only [checked, Positive, Layered, freeStrides, List.forall_mem_cons]
      split
      · next short => simp [Int.not_le.mpr short]
      split
      · next below => simp [Int.not_le.mpr below]
      · next start room =>
          have some : 1 ≤ row.val ∧ 1 ≤ plane.val ∧ row.val ≤ plane.val := by omega
          simp [some]
  | alongZ row plane =>
      simp only [checked, Positive, Layered, freeStrides, List.forall_mem_cons]
      split
      · next short => simp [Int.not_le.mpr short]
      split
      · next below => simp [Int.not_le.mpr below]
      · next start room =>
          have some : 1 ≤ row.val ∧ 1 ≤ plane.val ∧ row.val ≤ plane.val := by omega
          simp [some]
  | strided x y z =>
      simp only [checked, Positive, Layered, freeStrides, List.forall_mem_cons]
      split <;> simp [*]

/-- However a layout is made, its strides go through the check at last. -/
theorem Built.was_checked {volume : Volume} (built : volume.Built) :
    ∃ given : Volume, given.checked = .ok volume := by
  cases built with
  | checked made => exact ⟨_, made⟩
  | packedAlongX made =>
      unfold Volume.packedAlongX at made
      simp only [bind_eq_ok_iff, lift_fault_eq_ok_iff] at made
      obtain ⟨plane, -, made⟩ := made
      exact ⟨_, made⟩
  | packedAlongZ made =>
      unfold Volume.packedAlongZ at made
      simp only [bind_eq_ok_iff, lift_fault_eq_ok_iff] at made
      obtain ⟨plane, -, made⟩ := made
      exact ⟨_, made⟩
  | pitchedAlongX made =>
      unfold Volume.pitchedAlongX at made
      simp only [bind_eq_ok_iff, lift_fault_eq_ok_iff] at made
      obtain ⟨pitch, -, short, -, plane, -, made⟩ := made
      exact ⟨_, made⟩
  | pitchedAlongZ made =>
      unfold Volume.pitchedAlongZ at made
      simp only [bind_eq_ok_iff, lift_fault_eq_ok_iff] at made
      obtain ⟨pitch, -, short, -, plane, -, made⟩ := made
      exact ⟨_, made⟩

theorem Built.positive_layered {volume : Volume} (built : volume.Built) :
    volume.Positive ∧ volume.Layered := by
  obtain ⟨given, made⟩ := built.was_checked
  obtain ⟨both, rfl⟩ := (checked_eq_ok_iff given volume).mp made
  exact both

theorem Built.positive {volume : Volume} (built : volume.Built) : volume.Positive :=
  built.positive_layered.1

def dimensions (volume : Volume) (extent : Index3 32) : List Dimension :=
  match volume with
  | .alongX row plane => [⟨plane, extent.z⟩, ⟨row, extent.y⟩, ⟨⟨1, fits_one_int⟩, extent.x⟩]
  | .alongZ row plane => [⟨plane, extent.x⟩, ⟨row, extent.y⟩, ⟨⟨1, fits_one_int⟩, extent.z⟩]
  | .strided x y z => [⟨x, extent.x⟩, ⟨y, extent.y⟩, ⟨z, extent.z⟩]

def digits (volume : Volume) (index : Index3 bits) : List Int :=
  match volume with
  | .alongX _ _ => [index.z.val, index.y.val, index.x.val]
  | .alongZ _ _ => [index.x.val, index.y.val, index.z.val]
  | .strided _ _ _ => [index.x.val, index.y.val, index.z.val]

theorem Positive.natural {volume : Volume} (positive : volume.Positive) :
    ∀ stride ∈ volume.freeStrides, 0 ≤ stride.val :=
  fun stride free => Int.le_trans Int.one_nonneg (positive stride free)

theorem dimensions_positive {volume : Volume} (positive : volume.Positive) (extent : Index3 32) :
    ∀ dimension ∈ volume.dimensions extent, 1 ≤ dimension.stride.val := by
  unfold Positive at positive
  cases volume <;> simpa [dimensions, freeStrides, and_comm] using positive

theorem dimensions_natural {volume : Volume} (positive : volume.Positive) (extent : Index3 32) :
    ∀ dimension ∈ volume.dimensions extent, 0 ≤ dimension.stride.val := fun dimension member =>
  Int.le_trans Int.one_nonneg (dimensions_positive positive extent dimension member)

theorem inBox_of_within (volume : Volume) {index : Index3 64} {extent : Index3 32}
    (inside : index.Within extent) :
    InBox (volume.dimensions extent) (volume.digits index) := by
  obtain ⟨x, y, z⟩ := inside
  cases volume with
  | alongX _ _ => exact .cons z (.cons y (.cons x .nil))
  | alongZ _ _ => exact .cons x (.cons y (.cons z .nil))
  | strided _ _ _ => exact .cons x (.cons y (.cons z .nil))

theorem digits_injective {volume : Volume} {index other : Index3 bits}
    (same : volume.digits index = volume.digits other) : index = other := by
  cases volume with
  | alongX _ _ =>
      injection same with z rest
      injection rest with y rest
      injection rest with x
      exact Index3.ext_val x y z
  | alongZ _ _ =>
      injection same with x rest
      injection rest with y rest
      injection rest with z
      exact Index3.ext_val x y z
  | strided _ _ _ =>
      injection same with x rest
      injection rest with y rest
      injection rest with z
      exact Index3.ext_val x y z

theorem address_eq_ok_iff (widths : 32 ≤ bits) {volume : Volume} (positive : volume.Positive)
    {index : Index3 bits} (natural : 0 ≤ index.x.val ∧ 0 ≤ index.y.val ∧ 0 ≤ index.z.val)
    (extent : Index3 32) (address : Signed bits) :
    volume.address widths index = .ok address ↔
      address.val = offset (volume.dimensions extent) (volume.digits index) := by
  have term : ∀ {digit : Signed bits} {stride : Signed 32}, 0 ≤ digit.val →
      stride ∈ volume.freeStrides → 0 ≤ digit.val * stride.val := fun digit free =>
    Int.mul_nonneg digit (positive.natural _ free)
  cases volume with
  | alongX row plane =>
      have rows := term natural.2.1 (by simp [freeStrides] : row ∈ (alongX row plane).freeStrides)
      have planes :=
        term natural.2.2 (by simp [freeStrides] : plane ∈ (alongX row plane).freeStrides)
      simp only [Volume.address, dimensions, digits, offset, bind_eq_ok_iff, Signed.mul_eq_ok_iff,
        Signed.add_eq_ok_iff, Signed.extend_val]
      constructor
      · rintro ⟨_, product, _, sum, _, product', sum'⟩
        omega
      · intro sum
        obtain ⟨rowStart, product⟩ := address.exists_below rows (by omega)
        obtain ⟨planeStart, product'⟩ := address.exists_below planes (by omega)
        obtain ⟨inPlane, sum'⟩ := address.exists_below (Int.add_nonneg natural.1 rows) (by omega)
        exact ⟨rowStart, product, inPlane, by omega, planeStart, product', by omega⟩
  | alongZ row plane =>
      have rows := term natural.2.1 (by simp [freeStrides] : row ∈ (alongZ row plane).freeStrides)
      have planes :=
        term natural.1 (by simp [freeStrides] : plane ∈ (alongZ row plane).freeStrides)
      simp only [Volume.address, dimensions, digits, offset, bind_eq_ok_iff, Signed.mul_eq_ok_iff,
        Signed.add_eq_ok_iff, Signed.extend_val]
      constructor
      · rintro ⟨_, product, _, product', _, sum, sum'⟩
        omega
      · intro sum
        obtain ⟨planeStart, product⟩ := address.exists_below planes (by omega)
        obtain ⟨rowStart, product'⟩ := address.exists_below rows (by omega)
        obtain ⟨start, sum'⟩ := address.exists_below (Int.add_nonneg planes rows) (by omega)
        exact ⟨planeStart, product, rowStart, product', start, by omega, by omega⟩
  | strided x y z =>
      have alongX := term natural.1 (by simp [freeStrides] : x ∈ (strided x y z).freeStrides)
      have alongY := term natural.2.1 (by simp [freeStrides] : y ∈ (strided x y z).freeStrides)
      have alongZ := term natural.2.2 (by simp [freeStrides] : z ∈ (strided x y z).freeStrides)
      simp only [Volume.address, dimensions, digits, offset, bind_eq_ok_iff, Signed.mul_eq_ok_iff,
        Signed.add_eq_ok_iff, Signed.extend_val]
      constructor
      · rintro ⟨_, product, _, product', _, sum, _, product'', sum'⟩
        omega
      · intro sum
        obtain ⟨across, product⟩ := address.exists_below alongX (by omega)
        obtain ⟨down, product'⟩ := address.exists_below alongY (by omega)
        obtain ⟨flat, sum'⟩ := address.exists_below (Int.add_nonneg alongX alongY) (by omega)
        obtain ⟨deep, product''⟩ := address.exists_below alongZ (by omega)
        exact ⟨across, product, down, product', flat, by omega, deep, product'', by omega⟩

theorem dense_bufferLength_eq_ok_iff {volume : Volume} (dense : volume.isDense = true)
    (extent : Index3 32) (length : Signed 64) :
    volume.bufferLength extent = .ok length ↔
      Nested (volume.dimensions extent) ∧ covered (volume.dimensions extent) = length.val := by
  cases volume with
  | alongX row plane =>
      have nested : Nested ((alongX row plane).dimensions extent) ↔
          (extent.y.mulLong row).val ≤ plane.val ∧ extent.x.val ≤ row.val := by
        simp [dimensions, Nested, covered, Dimension.span, Int.mul_comm row.val]
      have span : covered ((alongX row plane).dimensions extent) =
          (plane.mulLong extent.z).val := rfl
      rw [nested, span, bufferLength, Signed.val_inj]
      split
      · next excess => exact iff_of_false nofun fun taken => Int.not_le.mpr excess taken.1.2
      split
      · next excess => exact iff_of_false nofun fun taken => Int.not_le.mpr excess taken.1.1
      · next row plane =>
        rw [Except.ok.injEq, and_iff_right ⟨Int.not_lt.mp plane, Int.not_lt.mp row⟩]
  | alongZ row plane =>
      have nested : Nested ((alongZ row plane).dimensions extent) ↔
          (extent.y.mulLong row).val ≤ plane.val ∧ extent.z.val ≤ row.val := by
        simp [dimensions, Nested, covered, Dimension.span, Int.mul_comm row.val]
      have span : covered ((alongZ row plane).dimensions extent) =
          (plane.mulLong extent.x).val := rfl
      rw [nested, span, bufferLength, Signed.val_inj]
      split
      · next excess => exact iff_of_false nofun fun taken => Int.not_le.mpr excess taken.1.2
      split
      · next excess => exact iff_of_false nofun fun taken => Int.not_le.mpr excess taken.1.1
      · next row plane =>
        rw [Except.ok.injEq, and_iff_right ⟨Int.not_lt.mp plane, Int.not_lt.mp row⟩]
  | strided x y z => contradiction

theorem strided_bufferLength_eq_ok_iff {volume : Volume} (free : volume.isDense = false)
    (extent : Index3 32) (length : Signed 64) :
    volume.bufferLength extent = .ok length ↔
      stridedLength (volume.dimensions extent) = .ok length := by
  cases volume with
  | strided x y z => exact lift_overflow_eq_ok_iff _ length
  | _ => contradiction

theorem buffer_of_length {volume : Volume} (positive : volume.Positive) {extent : Index3 32}
    {length : Signed 64} (taken : volume.bufferLength extent = .ok length) :
    Buffer volume.isDense (volume.dimensions extent) length := by
  cases dense : volume.isDense with
  | true =>
      obtain ⟨nested, full⟩ := (dense_bufferLength_eq_ok_iff dense extent length).mp taken
      exact .dense nested full
  | false =>
      rw [strided_bufferLength_eq_ok_iff dense] at taken
      exact .strided (dimensions_natural positive extent) taken

end Volume

end KernelIR.Layout
