import KernelIR.Proofs.Layout.Addresses

/-!
Elements in buffers. Whoever allocates the length that a layout asks for can read and write all
elements of the box with 64-bit addresses. In a dense layout the addresses also keep the elements
apart: they follow the order in which the slowest component is compared first.
-/

set_option autoImplicit false

namespace KernelIR.Layout

/-- Where the buffer of an extent has a length, every index of the box has an address in it, and no
step on the way to the address leaves 64 bits. -/
theorem addresses_stay_in_buffer :
    (∀ {plane : Plane} {extent : Index2 32} {length : Signed 64} {index : Index2 64},
      plane.Built → plane.bufferLength extent = .ok length → index.Within extent →
        ∃ address, plane.address int_le_long index = .ok address ∧
          0 ≤ address.val ∧ address.val < length.val) ∧
    ∀ {volume : Volume} {extent : Index3 32} {length : Signed 64} {index : Index3 64},
      volume.Built → volume.bufferLength extent = .ok length → index.Within extent →
        ∃ address, volume.address int_le_long index = .ok address ∧
          0 ≤ address.val ∧ address.val < length.val := by
  constructor
  · intro plane extent length index built taken inside
    have buffer := Plane.buffer_of_length built.positive taken
    exact buffer.exists_address (plane.inBox_of_within inside)
      (Plane.address_eq_ok_iff int_le_long built.positive inside.natural extent)
  · intro volume extent length index built taken inside
    have buffer := Volume.buffer_of_length built.positive taken
    exact buffer.exists_address (volume.inBox_of_within inside)
      (Volume.address_eq_ok_iff int_le_long built.positive inside.natural extent)

theorem last_elements_stay_in_buffer :
    (∃ address, (Plane.alongX greatest).address int_le_long
        ⟨greatest.predLong, greatest.predLong⟩ = .ok address ∧
      0 ≤ address.val ∧ address.val < (greatest.mulLong greatest).val) ∧
    ∃ address, (Volume.strided greatest ⟨1, fits_one_int⟩ greatest).address int_le_long
        ⟨greatest.predLong, greatest.predLong, greatest.predLong⟩ = .ok address ∧
      0 ≤ address.val ∧ address.val < 9223372026117357571 := by
  constructor
  · have made : Plane.packedAlongX ⟨greatest, greatest⟩ = .ok (.alongX greatest) := rfl
    have taken : (Plane.alongX greatest).bufferLength ⟨greatest, greatest⟩ =
        .ok (greatest.mulLong greatest) := rfl
    exact addresses_stay_in_buffer.1 (.packedAlongX made) taken (by decide)
  · have made : (Volume.strided greatest ⟨1, fits_one_int⟩ greatest).checked =
        .ok (.strided greatest ⟨1, fits_one_int⟩ greatest) := rfl
    have taken : (Volume.strided greatest ⟨1, fits_one_int⟩ greatest).bufferLength
        ⟨greatest, greatest, greatest⟩ = .ok ⟨9223372026117357571, by decide⟩ := rfl
    exact addresses_stay_in_buffer.2 (.checked made) taken (by decide)

/-- Within the box of an accepted extent, dense addresses compare like the components of the
indices from the slowest dimension to the fastest. Different indices never share an element. -/
theorem dense_addresses_follow_index_order :
    (∀ {plane : Plane} {extent : Index2 32} {length : Signed 64} {index other : Index2 64},
      plane.Built → plane.isDense = true → plane.bufferLength extent = .ok length →
        index.Within extent → other.Within extent →
          ∃ address address', plane.address int_le_long index = .ok address ∧
            plane.address int_le_long other = .ok address' ∧
            (address.val < address'.val ↔
              List.Lex (· < ·) (plane.digits index) (plane.digits other)) ∧
            (index ≠ other → address ≠ address')) ∧
    ∀ {volume : Volume} {extent : Index3 32} {length : Signed 64} {index other : Index3 64},
      volume.Built → volume.isDense = true → volume.bufferLength extent = .ok length →
        index.Within extent → other.Within extent →
          ∃ address address', volume.address int_le_long index = .ok address ∧
            volume.address int_le_long other = .ok address' ∧
            (address.val < address'.val ↔
              List.Lex (· < ·) (volume.digits index) (volume.digits other)) ∧
            (index ≠ other → address ≠ address') := by
  constructor
  · intro plane extent length index other built dense taken inside within
    have buffer := Plane.buffer_of_length built.positive taken
    rw [dense] at buffer
    obtain ⟨address, address', found, found', order, apart⟩ := buffer.addresses_ordered
      (plane.inBox_of_within inside) (plane.inBox_of_within within)
      (Plane.address_eq_ok_iff int_le_long built.positive inside.natural extent)
      (Plane.address_eq_ok_iff int_le_long built.positive within.natural extent)
    exact ⟨address, address', found, found', order, fun different =>
      apart (mt Plane.digits_injective different)⟩
  · intro volume extent length index other built dense taken inside within
    have buffer := Volume.buffer_of_length built.positive taken
    rw [dense] at buffer
    obtain ⟨address, address', found, found', order, apart⟩ := buffer.addresses_ordered
      (volume.inBox_of_within inside) (volume.inBox_of_within within)
      (Volume.address_eq_ok_iff int_le_long built.positive inside.natural extent)
      (Volume.address_eq_ok_iff int_le_long built.positive within.natural extent)
    exact ⟨address, address', found, found', order, fun different =>
      apart (mt Volume.digits_injective different)⟩

theorem next_plane_follows_last_row :
    (∃ address address',
      (Plane.alongY ⟨2, by decide⟩).address int_le_long
        ⟨⟨0, by decide⟩, ⟨1, by decide⟩⟩ = .ok address ∧
      (Plane.alongY ⟨2, by decide⟩).address int_le_long
        ⟨⟨1, by decide⟩, ⟨0, by decide⟩⟩ = .ok address' ∧
      (address.val < address'.val ↔ List.Lex (· < ·) [(0 : Int), 1] [1, 0]) ∧
      ((⟨⟨0, by decide⟩, ⟨1, by decide⟩⟩ : Index2 64) ≠ ⟨⟨1, by decide⟩, ⟨0, by decide⟩⟩ →
        address ≠ address')) ∧
    ∃ address address',
      (Volume.alongX ⟨4, by decide⟩ ⟨8, by decide⟩).address int_le_long
        ⟨⟨2, by decide⟩, ⟨1, by decide⟩, ⟨0, by decide⟩⟩ = .ok address ∧
      (Volume.alongX ⟨4, by decide⟩ ⟨8, by decide⟩).address int_le_long
        ⟨⟨0, by decide⟩, ⟨0, by decide⟩, ⟨1, by decide⟩⟩ = .ok address' ∧
      (address.val < address'.val ↔ List.Lex (· < ·) [(0 : Int), 1, 2] [1, 0, 0]) ∧
      ((⟨⟨2, by decide⟩, ⟨1, by decide⟩, ⟨0, by decide⟩⟩ : Index3 64) ≠
        ⟨⟨0, by decide⟩, ⟨0, by decide⟩, ⟨1, by decide⟩⟩ → address ≠ address') := by
  constructor
  · have made : Plane.packedAlongY ⟨⟨2, by decide⟩, ⟨2, by decide⟩⟩ =
        .ok (.alongY ⟨2, by decide⟩) := rfl
    have taken : (Plane.alongY ⟨2, by decide⟩).bufferLength ⟨⟨2, by decide⟩, ⟨2, by decide⟩⟩ =
        .ok ⟨4, by decide⟩ := rfl
    exact dense_addresses_follow_index_order.1 (.packedAlongY made) rfl taken (by decide)
      (by decide)
  · have made : Volume.pitchedAlongX ⟨⟨3, by decide⟩, ⟨2, by decide⟩, ⟨2, by decide⟩⟩
        ⟨16, by decide⟩ ⟨4, by decide⟩ = .ok (.alongX ⟨4, by decide⟩ ⟨8, by decide⟩) := by
      decide +kernel
    have taken : (Volume.alongX ⟨4, by decide⟩ ⟨8, by decide⟩).bufferLength
        ⟨⟨3, by decide⟩, ⟨2, by decide⟩, ⟨2, by decide⟩⟩ = .ok ⟨16, by decide⟩ := rfl
    exact dense_addresses_follow_index_order.2 (.pitchedAlongX made) rfl taken (by decide)
      (by decide)

end KernelIR.Layout
