import KernelIR.Proofs.Layout.StridedForm

/-!
Addresses in two widths. A step of checked arithmetic that has a result in a width has the same
result in every greater one, and so has each way to an address. Main statement: an address that is
found in 32 bits is found in 64 bits too, and it is the exact sum of the components, each times the
stride of its axis; for an index without negative components it is found in 32 bits exactly if the
sum is a 32-bit number, and otherwise a step on the way to it overflows.
-/

set_option autoImplicit false

namespace KernelIR

namespace Signed

variable {bits wide : Nat} {a b c : Signed bits}

theorem add_extend (widths : bits ≤ wide) (ok : a.add b = .ok c) :
    (a.extend widths).add (b.extend widths) = .ok (c.extend widths) := by
  rw [add_eq_ok_iff] at ok ⊢
  exact ok

theorem mul_extend (widths : bits ≤ wide) (ok : a.mul b = .ok c) :
    (a.extend widths).mul (b.extend widths) = .ok (c.extend widths) := by
  rw [mul_eq_ok_iff] at ok ⊢
  exact ok

end Signed

namespace Layout

variable {bits : Nat}

def Index2.along (index : Index2 bits) (strides : Index2 32) : Int :=
  index.x.val * strides.x.val + index.y.val * strides.y.val

def Index3.along (index : Index3 bits) (strides : Index3 32) : Int :=
  index.x.val * strides.x.val + index.y.val * strides.y.val + index.z.val * strides.z.val

/-- Where only the result can leave the width, there is one exactly if the exact sum is in it. -/
theorem found_iff_fits {found : Except Overflow (Signed bits)} {sum : Int}
    (exact : ∀ address, found = .ok address ↔ address.val = sum) :
    (∃ address, found = .ok address) ↔ Fits bits sum := by
  constructor
  · rintro ⟨address, ok⟩
    rw [← (exact address).mp ok]
    exact address.fits
  · intro fits
    exact ⟨⟨sum, fits⟩, (exact _).mpr rfl⟩

theorem overflows_of_not_found {found : Except Overflow (Signed bits)}
    (missing : ¬ ∃ address, found = .ok address) : ∃ operation, found = .error operation := by
  cases found with
  | ok address => exact absurd ⟨address, rfl⟩ missing
  | error operation => exact ⟨operation, rfl⟩

theorem short_sum_found {found : Except Overflow (Signed 32)} {sum : Int} (natural : 0 ≤ sum)
    (exact : ∀ address, found = .ok address ↔ address.val = sum) :
    ((∃ address, found = .ok address) ↔ sum ≤ 2147483647) ∧
      (2147483647 < sum → ∃ operation, found = .error operation) := by
  have inWidth : (∃ address, found = .ok address) ↔ sum ≤ 2147483647 := by
    rw [found_iff_fits exact]
    unfold Fits
    omega
  refine ⟨inWidth, fun beyond => overflows_of_not_found ?_⟩
  rw [inWidth]
  exact Int.not_le.mpr beyond

namespace Plane

theorem address_steps (widths : 32 ≤ bits) {plane : Plane} {index : Index2 bits}
    {address : Signed bits} (found : plane.address widths index = .ok address) :
    ∃ across down, index.x.mul (plane.strides.x.extend widths) = .ok across ∧
      index.y.mul (plane.strides.y.extend widths) = .ok down ∧ across.add down = .ok address := by
  rw [← general_address] at found
  obtain ⟨across, first, rest⟩ := (bind_eq_ok_iff _ _ _).mp found
  obtain ⟨down, second, sum⟩ := (bind_eq_ok_iff _ _ _).mp rest
  exact ⟨across, down, first, second, sum⟩

theorem address_val (widths : 32 ≤ bits) {plane : Plane} {index : Index2 bits}
    {address : Signed bits} (found : plane.address widths index = .ok address) :
    address.val = index.along plane.strides := by
  obtain ⟨across, down, first, second, sum⟩ := address_steps widths found
  rw [Signed.mul_eq_ok_iff, Signed.extend_val] at first second
  rw [Signed.add_eq_ok_iff, first, second] at sum
  exact sum

theorem address_widened {plane : Plane} {index : Index2 32} {address : Signed 32}
    (found : plane.address (Nat.le_refl 32) index = .ok address) :
    plane.address int_le_long index.widen = .ok (address.extend int_le_long) := by
  obtain ⟨across, down, first, second, sum⟩ := address_steps (Nat.le_refl 32) found
  rw [← general_address]
  refine (bind_eq_ok_iff _ _ _).mpr ⟨_, Signed.mul_extend int_le_long first, ?_⟩
  exact (bind_eq_ok_iff _ _ _).mpr ⟨_, Signed.mul_extend int_le_long second,
    Signed.add_extend int_le_long sum⟩

theorem address_exact (widths : 32 ≤ bits) {plane : Plane} (positive : plane.Positive)
    {index : Index2 bits} (natural : 0 ≤ index.x.val ∧ 0 ≤ index.y.val) (address : Signed bits) :
    plane.address widths index = .ok address ↔ address.val = index.along plane.strides := by
  have decided := address_eq_ok_iff widths positive.general natural (.uniform .zero) address
  rw [general_address] at decided
  have sum : offset (plane.general.dimensions (.uniform .zero)) (plane.general.digits index) =
      index.x.val * plane.strides.x.val + (index.y.val * plane.strides.y.val + 0) := rfl
  rw [decided, sum, Int.add_zero]
  rfl

theorem along_natural {plane : Plane} (positive : plane.Positive) {index : Index2 bits}
    (natural : 0 ≤ index.x.val ∧ 0 ≤ index.y.val) : 0 ≤ index.along plane.strides := by
  have strides := positive.general.natural
  simp only [general, freeStrides, List.forall_mem_cons] at strides
  exact Int.add_nonneg (Int.mul_nonneg natural.1 strides.1) (Int.mul_nonneg natural.2 strides.2.1)

end Plane

namespace Volume

theorem address_steps (widths : 32 ≤ bits) {volume : Volume} {index : Index3 bits}
    {address : Signed bits} (found : volume.address widths index = .ok address) :
    ∃ across down flat deep, index.x.mul (volume.strides.x.extend widths) = .ok across ∧
      index.y.mul (volume.strides.y.extend widths) = .ok down ∧ across.add down = .ok flat ∧
      index.z.mul (volume.strides.z.extend widths) = .ok deep ∧ flat.add deep = .ok address := by
  rw [← general_address] at found
  obtain ⟨across, first, rest⟩ := (bind_eq_ok_iff _ _ _).mp found
  obtain ⟨down, second, rest⟩ := (bind_eq_ok_iff _ _ _).mp rest
  obtain ⟨flat, part, rest⟩ := (bind_eq_ok_iff _ _ _).mp rest
  obtain ⟨deep, third, sum⟩ := (bind_eq_ok_iff _ _ _).mp rest
  exact ⟨across, down, flat, deep, first, second, part, third, sum⟩

theorem address_val (widths : 32 ≤ bits) {volume : Volume} {index : Index3 bits}
    {address : Signed bits} (found : volume.address widths index = .ok address) :
    address.val = index.along volume.strides := by
  obtain ⟨across, down, flat, deep, first, second, part, third, sum⟩ := address_steps widths found
  rw [Signed.mul_eq_ok_iff, Signed.extend_val] at first second third
  rw [Signed.add_eq_ok_iff, first, second] at part
  rw [Signed.add_eq_ok_iff, part, third] at sum
  exact sum

theorem address_widened {volume : Volume} {index : Index3 32} {address : Signed 32}
    (found : volume.address (Nat.le_refl 32) index = .ok address) :
    volume.address int_le_long index.widen = .ok (address.extend int_le_long) := by
  obtain ⟨across, down, flat, deep, first, second, part, third, sum⟩ :=
    address_steps (Nat.le_refl 32) found
  rw [← general_address]
  refine (bind_eq_ok_iff _ _ _).mpr ⟨_, Signed.mul_extend int_le_long first, ?_⟩
  refine (bind_eq_ok_iff _ _ _).mpr ⟨_, Signed.mul_extend int_le_long second, ?_⟩
  refine (bind_eq_ok_iff _ _ _).mpr ⟨_, Signed.add_extend int_le_long part, ?_⟩
  exact (bind_eq_ok_iff _ _ _).mpr ⟨_, Signed.mul_extend int_le_long third,
    Signed.add_extend int_le_long sum⟩

theorem address_exact (widths : 32 ≤ bits) {volume : Volume} (positive : volume.Positive)
    {index : Index3 bits} (natural : 0 ≤ index.x.val ∧ 0 ≤ index.y.val ∧ 0 ≤ index.z.val)
    (address : Signed bits) :
    volume.address widths index = .ok address ↔ address.val = index.along volume.strides := by
  have decided := address_eq_ok_iff widths positive.general natural (.uniform .zero) address
  rw [general_address] at decided
  have sum : offset (volume.general.dimensions (.uniform .zero)) (volume.general.digits index) =
      index.x.val * volume.strides.x.val +
        (index.y.val * volume.strides.y.val + (index.z.val * volume.strides.z.val + 0)) := rfl
  rw [decided, sum, Int.add_zero, ← Int.add_assoc]
  rfl

theorem along_natural {volume : Volume} (positive : volume.Positive) {index : Index3 bits}
    (natural : 0 ≤ index.x.val ∧ 0 ≤ index.y.val ∧ 0 ≤ index.z.val) :
    0 ≤ index.along volume.strides := by
  have strides := positive.general.natural
  simp only [general, freeStrides, List.forall_mem_cons] at strides
  have flat := Int.add_nonneg (Int.mul_nonneg natural.1 strides.1)
    (Int.mul_nonneg natural.2.1 strides.2.1)
  exact Int.add_nonneg flat (Int.mul_nonneg natural.2.2 strides.2.2.1)

end Volume

/-- Of every layout that was made, an address that is found in 32 bits, whatever the signs of the
components, is found in 64 bits as the same number, which is the exact sum of the components times
the strides. For an index without negative components it is found exactly if the sum is not beyond
the greatest 32-bit number, and otherwise a multiplication or an addition overflows. -/
theorem short_and_long_addresses_agree :
    (∀ {plane : Plane}, plane.Built → ∀ index : Index2 32,
      (∀ address, plane.address (Nat.le_refl 32) index = .ok address →
        plane.address int_le_long index.widen = .ok (address.extend int_le_long) ∧
          address.val = index.along plane.strides) ∧
      ((∀ component ∈ index.values, 0 ≤ component) →
        ((∃ address, plane.address (Nat.le_refl 32) index = .ok address) ↔
          index.along plane.strides ≤ 2147483647) ∧
        (2147483647 < index.along plane.strides →
          ∃ operation, plane.address (Nat.le_refl 32) index = .error operation))) ∧
    ∀ {volume : Volume}, volume.Built → ∀ index : Index3 32,
      (∀ address, volume.address (Nat.le_refl 32) index = .ok address →
        volume.address int_le_long index.widen = .ok (address.extend int_le_long) ∧
          address.val = index.along volume.strides) ∧
      ((∀ component ∈ index.values, 0 ≤ component) →
        ((∃ address, volume.address (Nat.le_refl 32) index = .ok address) ↔
          index.along volume.strides ≤ 2147483647) ∧
        (2147483647 < index.along volume.strides →
          ∃ operation, volume.address (Nat.le_refl 32) index = .error operation)) := by
  constructor
  · intro plane built index
    refine ⟨fun address found =>
      ⟨Plane.address_widened found, Plane.address_val (Nat.le_refl 32) found⟩, ?_⟩
    intro components
    have natural : 0 ≤ index.x.val ∧ 0 ≤ index.y.val := by
      simpa [Index2.values, Index2.components] using components
    exact short_sum_found (Plane.along_natural built.positive natural)
      (Plane.address_exact (Nat.le_refl 32) built.positive natural)
  · intro volume built index
    refine ⟨fun address found =>
      ⟨Volume.address_widened found, Volume.address_val (Nat.le_refl 32) found⟩, ?_⟩
    intro components
    have natural : 0 ≤ index.x.val ∧ 0 ≤ index.y.val ∧ 0 ≤ index.z.val := by
      simpa [Index3.values, Index3.components] using components
    exact short_sum_found (Volume.along_natural built.positive natural)
      (Volume.address_exact (Nat.le_refl 32) built.positive natural)

/-- In packed rows of 65536 elements the last element of row 32767 has the greatest 32-bit address,
and the next row begins beyond it. An index with negative components, in a volume whose strides
have no order, has the same address in both widths. -/
theorem last_short_address :
    (∃ address, (Plane.alongX ⟨65536, by decide⟩).address (Nat.le_refl 32)
        ⟨⟨65535, by decide⟩, ⟨32767, by decide⟩⟩ = .ok address) ∧
      (∃ operation, (Plane.alongX ⟨65536, by decide⟩).address (Nat.le_refl 32)
        ⟨⟨0, by decide⟩, ⟨32768, by decide⟩⟩ = .error operation) ∧
      (Volume.strided ⟨3, by decide⟩ ⟨7, by decide⟩ ⟨2, by decide⟩).address int_le_long
        (Index3.widen ⟨⟨-4, by decide⟩, ⟨5, by decide⟩, ⟨-1, by decide⟩⟩) =
          .ok ⟨21, by decide⟩ := by
  have made : Plane.packedAlongX ⟨⟨65536, by decide⟩, ⟨40000, by decide⟩⟩ =
      .ok (.alongX ⟨65536, by decide⟩) := rfl
  have volumeMade : (Volume.strided ⟨3, by decide⟩ ⟨7, by decide⟩ ⟨2, by decide⟩).checked =
      .ok (.strided ⟨3, by decide⟩ ⟨7, by decide⟩ ⟨2, by decide⟩) := rfl
  have short : (Volume.strided ⟨3, by decide⟩ ⟨7, by decide⟩ ⟨2, by decide⟩).address
      (Nat.le_refl 32) ⟨⟨-4, by decide⟩, ⟨5, by decide⟩, ⟨-1, by decide⟩⟩ =
        .ok ⟨21, by decide⟩ := rfl
  refine ⟨?_, ?_, ?_⟩
  · exact ((short_and_long_addresses_agree.1 (.packedAlongX made) _).2 (by decide)).1.mpr
      (by decide)
  · exact ((short_and_long_addresses_agree.1 (.packedAlongX made) _).2 (by decide)).2 (by decide)
  · exact ((short_and_long_addresses_agree.2 (.checked volumeMade) _).1 _ short).1

end Layout

end KernelIR
