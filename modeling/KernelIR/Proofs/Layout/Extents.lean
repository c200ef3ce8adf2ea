import KernelIR.Proofs.Layout.Addresses
import KernelIR.Proofs.Layout.Pitches

/-!
Layouts that are made for an extent. All of them begin with a pitch for the rows, which is the
length of a row itself or is rounded up from it. The strides are then computed from the pitch in
unbounded integers, and the layout exists exactly if they are 32-bit numbers. Main statement: the
constructors are refused for nothing else and never break off, and the layout that they give takes
the extent, in a buffer of which every element is in some row.
-/

set_option autoImplicit false

namespace KernelIR

@[simp]
theorem Signed.atLeastOne_val (a : Signed 32) : a.atLeastOne.val = max a.val 1 := by
  unfold atLeastOne
  split
  · next small => exact (Int.max_eq_right (Int.le_of_lt small)).symm
  · next large => exact (Int.max_eq_left (Int.not_lt.mp large)).symm

namespace Layout

/-- Why there is no layout for a pitch: the pitch is refused, or one of the exact strides that
belong to it is beyond 32 bits, of which the first is named. -/
inductive Unmade (pitch : Except Refusal (Signed 64)) (strides : Int → List Int) : Failure → Prop
  | pitch {cause : Refusal} (refused : pitch = .error cause) :
      Unmade pitch strides (.refused cause)
  | stride {length : Signed 64} {stride : Int} (pitched : pitch = .ok length)
      (first : (strides length.val).find? (fun stride => 2147483647 < stride) = some stride) :
      Unmade pitch strides (.refused (.indexOverflow stride))

section Unmade

variable {α : Type} {pitch : Except Refusal (Signed 64)} {strides : Int → List Int}
  {made : Except Failure α}

theorem Unmade.unique {failure other : Failure} (unmade : Unmade pitch strides failure)
    (again : Unmade pitch strides other) : failure = other := by
  cases unmade with
  | pitch refused =>
      cases again with
      | pitch refused' =>
          rw [refused] at refused'
          cases refused'
          rfl
      | stride pitched' first' =>
          rw [refused] at pitched'
          cases pitched'
  | stride pitched first =>
      cases again with
      | pitch refused' =>
          rw [pitched] at refused'
          cases refused'
      | stride pitched' first' =>
          rw [pitched] at pitched'
          cases pitched'
          rw [first] at first'
          cases first'
          rfl

theorem Unmade.only {failure : Failure} (unmade : Unmade pitch strides failure)
    (failed : made = .error failure) (other : Failure) :
    made = .error other ↔ Unmade pitch strides other := by
  rw [failed, Except.error.injEq]
  constructor
  · rintro rfl
    exact unmade
  · exact unmade.unique

theorem never_unmade {length : Signed 64} {layout : α} (pitched : pitch = .ok length)
    (short : ∀ stride ∈ strides length.val, stride ≤ 2147483647) (taken : made = .ok layout)
    (failure : Failure) : made = .error failure ↔ Unmade pitch strides failure := by
  rw [taken]
  refine iff_of_false nofun fun unmade => ?_
  cases unmade with
  | pitch refused =>
      rw [pitched] at refused
      cases refused
  | stride pitched' first =>
      rw [pitched] at pitched'
      cases pitched'
      have wide := List.find?_some first
      rw [decide_eq_true_eq] at wide
      exact Int.not_le.mpr wide (short _ (List.mem_of_find?_eq_some first))

end Unmade

section Pitch

variable {α : Type} {leading row : Signed 32} {length : Signed 64}
  (finish : Signed 32 → Except Failure α)

/-- The common course of the constructors: the pitch is brought to 32 bits, and rows without
elements begin one element apart. -/
def ofPitch (pitch : Except Refusal (Signed 64)) (finish : Signed 32 → Except Failure α) :
    Except Failure α := do
  let pitch ← pitch
  let pitch ← narrow pitch
  finish pitch.atLeastOne

theorem ofPitch_error (cause : Refusal) :
    ofPitch (.error cause) finish = .error (.refused cause) := rfl

theorem ofPitch_of_narrowed {short : Signed 32} (narrowed : narrow length = .ok short) :
    ofPitch (.ok length) finish = finish short.atLeastOne := by
  change (liftM (narrow length) >>= fun short => finish short.atLeastOne) = _
  rw [narrowed]
  rfl

theorem ofPitch_extend (leading : Signed 32) :
    ofPitch (.ok (leading.extend int_le_long)) finish = finish leading.atLeastOne :=
  ofPitch_of_narrowed finish ((narrow_eq_ok_iff _ _).mpr rfl)

theorem ofPitch_of_wide (wide : 2147483647 < max length.val 1) :
    ofPitch (.ok length) finish = .error (.refused (.indexOverflow (max length.val 1))) := by
  have natural : max length.val 1 = length.val := by omega
  have unfit : ¬ Fits 32 length.val := fun fits => by
    have inside := fits.2
    omega
  change (liftM (narrow length) >>= fun short => finish short.atLeastOne) = _
  rw [(narrow_eq_error_iff _ _).mpr ⟨unfit, rfl⟩, natural]
  rfl

theorem ofPitch_of_short (least : leading.val ≤ length.val)
    (short : max length.val 1 ≤ 2147483647) :
    ∃ row, ofPitch (.ok length) finish = finish row ∧ row.val = max length.val 1 := by
  have start := leading.fits.1
  have fits : Fits 32 length.val := ⟨by omega, by omega⟩
  refine ⟨Signed.atLeastOne ⟨length.val, fits⟩, ?_, Signed.atLeastOne_val _⟩
  exact ofPitch_of_narrowed finish ((narrow_eq_ok_iff _ _).mpr rfl)

end Pitch

namespace Plane

/-- What a constructor comes to that makes rows of this pitch, as many as there are of them. -/
structure Fitted (family : Signed 32 → Plane) (extent : Index2 32) (rows : Signed 32)
    (pitch : Except Refusal (Signed 64)) (made : Except Failure Plane) : Prop where
  unmade_iff : ∀ failure,
    made = .error failure ↔ Unmade pitch (fun length => [max length 1]) failure
  taken : ∀ plane, made = .ok plane → ∃ length row needed, pitch = .ok length ∧
    plane = family row ∧ row.val = max length.val 1 ∧
    plane.bufferLength extent = .ok needed ∧ needed.val = row.val * rows.val

theorem fitted_of_pitch {family : Signed 32 → Plane} {extent : Index2 32}
    {leading rows : Signed 32} {pitch : Except Refusal (Signed 64)}
    (accepted : ∀ row, 1 ≤ row.val → (family row).checked = .ok (family row))
    (room : ∀ row, leading.val ≤ row.val →
      (family row).bufferLength extent = .ok (row.mulLong rows))
    (above : ∀ length, pitch = .ok length → leading.val ≤ length.val) :
    Fitted family extent rows pitch
      (ofPitch pitch fun row => liftM (family row).checked) := by
  cases pitch with
  | error cause =>
      rw [ofPitch_error]
      constructor
      · exact (Unmade.pitch rfl).only rfl
      · rintro plane ⟨⟩
  | ok length =>
      have least := above length rfl
      by_cases short : max length.val 1 ≤ 2147483647
      · obtain ⟨row, made, value⟩ :=
          ofPitch_of_short (fun row => liftM (family row).checked) least short
        rw [made, accepted row (by omega)]
        constructor
        · exact never_unmade rfl (List.forall_mem_singleton.mpr short) rfl
        · rintro plane ⟨⟩
          exact ⟨length, row, row.mulLong rows, rfl, rfl, value, room row (by omega), rfl⟩
      · have wide := Int.not_le.mp short
        rw [ofPitch_of_wide _ wide]
        constructor
        · exact (Unmade.stride rfl (by simp [wide])).only rfl
        · rintro plane ⟨⟩

end Plane

namespace Volume

theorem packedPlane_of_wide {row : Signed 32} (rows : Signed 32)
    (wide : 2147483647 < row.val * max rows.val 1) :
    packedPlane row rows = .error (.indexOverflow (row.val * max rows.val 1)) := by
  unfold packedPlane
  rw [narrow_eq_error_iff, Signed.mulLong_val, Signed.atLeastOne_val]
  refine ⟨fun fits => ?_, rfl⟩
  have inside := fits.2
  omega

theorem packedPlane_of_short {row : Signed 32} (rows : Signed 32) (positive : 1 ≤ row.val)
    (short : row.val * max rows.val 1 ≤ 2147483647) :
    ∃ plane, packedPlane row rows = .ok plane ∧ plane.val = row.val * max rows.val 1 ∧
      row.val ≤ plane.val := by
  have room : row.val ≤ row.val * max rows.val 1 :=
    le_mul_of_one_le_right (by omega) (Int.le_max_right _ _)
  have fits : Fits 32 (row.val * max rows.val 1) := ⟨by omega, by omega⟩
  refine ⟨⟨_, fits⟩, ?_, rfl, room⟩
  unfold packedPlane
  rw [narrow_eq_ok_iff, Signed.mulLong_val, Signed.atLeastOne_val]

def ofRow (family : Signed 32 → Signed 32 → Volume) (rows row : Signed 32) :
    Except Failure Volume := do
  let plane ← packedPlane row rows
  checked (family row plane)

theorem ofRow_of_wide (family : Signed 32 → Signed 32 → Volume) {row : Signed 32} (rows : Signed 32)
    (wide : 2147483647 < row.val * max rows.val 1) :
    ofRow family rows row = .error (.refused (.indexOverflow (row.val * max rows.val 1))) := by
  unfold ofRow
  rw [packedPlane_of_wide rows wide]
  rfl

theorem ofRow_of_packed (family : Signed 32 → Signed 32 → Volume) {row plane rows : Signed 32}
    (packed : packedPlane row rows = .ok plane) :
    ofRow family rows row = liftM (family row plane).checked := by
  unfold ofRow
  rw [packed]
  rfl

structure Fitted (family : Signed 32 → Signed 32 → Volume) (extent : Index3 32)
    (rows planes : Signed 32) (pitch : Except Refusal (Signed 64))
    (made : Except Failure Volume) : Prop where
  unmade_iff : ∀ failure, made = .error failure ↔
    Unmade pitch (fun length => [max length 1, max length 1 * max rows.val 1]) failure
  taken : ∀ volume, made = .ok volume → ∃ length row plane needed, pitch = .ok length ∧
    volume = family row plane ∧ row.val = max length.val 1 ∧
    plane.val = row.val * max rows.val 1 ∧
    volume.bufferLength extent = .ok needed ∧
    needed.val = row.val * (max rows.val 1 * planes.val)

theorem fitted_of_pitch {family : Signed 32 → Signed 32 → Volume} {extent : Index3 32}
    {leading rows planes : Signed 32} {pitch : Except Refusal (Signed 64)}
    (accepted : ∀ row plane, 1 ≤ row.val → row.val ≤ plane.val →
      (family row plane).checked = .ok (family row plane))
    (room : ∀ row plane, leading.val ≤ row.val → rows.val * row.val ≤ plane.val →
      (family row plane).bufferLength extent = .ok (plane.mulLong planes))
    (above : ∀ length, pitch = .ok length → leading.val ≤ length.val) :
    Fitted family extent rows planes pitch (ofPitch pitch (ofRow family rows)) := by
  cases pitch with
  | error cause =>
      rw [ofPitch_error]
      constructor
      · exact (Unmade.pitch rfl).only rfl
      · rintro volume ⟨⟩
  | ok length =>
      have least := above length rfl
      by_cases short : max length.val 1 ≤ 2147483647
      · obtain ⟨row, made, value⟩ := ofPitch_of_short (ofRow family rows) least short
        rw [made]
        by_cases flat : row.val * max rows.val 1 ≤ 2147483647
        · obtain ⟨plane, packed, size, apart⟩ := packedPlane_of_short rows (by omega) flat
          rw [ofRow_of_packed family packed, accepted row plane (by omega) apart]
          constructor
          · rw [value] at flat
            have both : ∀ stride ∈ [max length.val 1, max length.val 1 * max rows.val 1],
                stride ≤ 2147483647 :=
              List.forall_mem_cons.mpr ⟨short, List.forall_mem_singleton.mpr flat⟩
            exact never_unmade rfl both rfl
          · rintro volume ⟨⟩
            have filled : rows.val * row.val ≤ plane.val := by
              rw [size, Int.mul_comm]
              exact Int.mul_le_mul_of_nonneg_left (Int.le_max_left _ _) (by omega)
            refine ⟨length, row, plane, plane.mulLong planes, rfl, rfl, value, size,
              room row plane (by omega) filled, ?_⟩
            rw [Signed.mulLong_val, size, Int.mul_assoc]
        · have wide := Int.not_le.mp flat
          rw [ofRow_of_wide family rows wide]
          rw [value] at wide ⊢
          constructor
          · exact (Unmade.stride rfl (by simp [Int.not_lt.mpr short, wide])).only rfl
          · rintro volume ⟨⟩
      · have wide := Int.not_le.mp short
        rw [ofPitch_of_wide _ wide]
        constructor
        · exact (Unmade.stride rfl (by simp [wide])).only rfl
        · rintro volume ⟨⟩

end Volume

theorem pitched_above {leading : Signed 32} {alignment elementSize length : Signed 64}
    (pitched : pitchedLength (leading.extend int_le_long) alignment elementSize = .ok length) :
    leading.val ≤ length.val := (pitchedLength_isLeast pitched).1.1

theorem extend_above {leading : Signed 32} {length : Signed 64}
    (whole : (.ok (leading.extend int_le_long) : Except Refusal (Signed 64)) = .ok length) :
    leading.val ≤ length.val := by
  cases whole
  exact Int.le_refl _

namespace Plane

variable {extent : Index2 32} {pitch : Except Refusal (Signed 64)}

theorem alongX_fitted (above : ∀ length, pitch = .ok length → extent.x.val ≤ length.val) :
    Fitted .alongX extent extent.y pitch (ofPitch pitch fun row => liftM (alongX row).checked) :=
  fitted_of_pitch (fun _ positive => if_pos positive) (fun _ wide => if_pos wide) above

theorem alongY_fitted (above : ∀ length, pitch = .ok length → extent.y.val ≤ length.val) :
    Fitted .alongY extent extent.x pitch (ofPitch pitch fun row => liftM (alongY row).checked) :=
  fitted_of_pitch (fun _ positive => if_pos positive) (fun _ wide => if_pos wide) above

theorem packedAlongX_fitted (extent : Index2 32) :
    Fitted .alongX extent extent.y (.ok (extent.x.extend int_le_long))
      (liftM (packedAlongX extent)) := by
  have packed := ofPitch_extend (fun row => liftM (alongX row).checked) extent.x
  exact packed ▸ alongX_fitted fun _ => extend_above

theorem packedAlongY_fitted (extent : Index2 32) :
    Fitted .alongY extent extent.x (.ok (extent.y.extend int_le_long))
      (liftM (packedAlongY extent)) := by
  have packed := ofPitch_extend (fun row => liftM (alongY row).checked) extent.y
  exact packed ▸ alongY_fitted fun _ => extend_above

theorem Fitted.packed_length {family : Signed 32 → Plane} {leading rows : Signed 32}
    {made : Except Fault Plane} {plane : Plane}
    (fitted : Fitted family extent rows (.ok (leading.extend int_le_long)) (liftM made))
    (filled : 1 ≤ leading.val) (found : made = .ok plane) :
    ∃ needed, plane.bufferLength extent = .ok needed ∧ needed.val = leading.val * rows.val := by
  obtain ⟨length, row, needed, whole, -, value, taken, exact⟩ :=
    fitted.taken plane ((lift_fault_eq_ok_iff made plane).mpr found)
  cases whole
  rw [Signed.extend_val, Int.max_eq_left filled] at value
  exact ⟨needed, taken, value ▸ exact⟩

end Plane

namespace Volume

variable {extent : Index3 32} {pitch : Except Refusal (Signed 64)}

theorem alongX_fitted (above : ∀ length, pitch = .ok length → extent.x.val ≤ length.val) :
    Fitted .alongX extent extent.y extent.z pitch (ofPitch pitch (ofRow .alongX extent.y)) := by
  refine fitted_of_pitch ?_ ?_ above
  · intro row plane positive apart
    rw [checked, if_neg (Int.not_lt.mpr positive), if_neg (Int.not_lt.mpr apart)]
  · intro row plane wide filled
    exact (if_neg (Int.not_lt.mpr wide)).trans (if_neg (Int.not_lt.mpr filled))

theorem alongZ_fitted (above : ∀ length, pitch = .ok length → extent.z.val ≤ length.val) :
    Fitted .alongZ extent extent.y extent.x pitch (ofPitch pitch (ofRow .alongZ extent.y)) := by
  refine fitted_of_pitch ?_ ?_ above
  · intro row plane positive apart
    rw [checked, if_neg (Int.not_lt.mpr positive), if_neg (Int.not_lt.mpr apart)]
  · intro row plane wide filled
    exact (if_neg (Int.not_lt.mpr wide)).trans (if_neg (Int.not_lt.mpr filled))

theorem packedAlongX_fitted (extent : Index3 32) :
    Fitted .alongX extent extent.y extent.z (.ok (extent.x.extend int_le_long))
      (packedAlongX extent) := by
  have packed : ofPitch (.ok (extent.x.extend int_le_long)) (ofRow .alongX extent.y) =
      packedAlongX extent := ofPitch_extend (ofRow .alongX extent.y) extent.x
  exact packed ▸ alongX_fitted fun _ => extend_above

theorem packedAlongZ_fitted (extent : Index3 32) :
    Fitted .alongZ extent extent.y extent.x (.ok (extent.z.extend int_le_long))
      (packedAlongZ extent) := by
  have packed : ofPitch (.ok (extent.z.extend int_le_long)) (ofRow .alongZ extent.y) =
      packedAlongZ extent := ofPitch_extend (ofRow .alongZ extent.y) extent.z
  exact packed ▸ alongZ_fitted fun _ => extend_above

theorem Fitted.packed_length {family : Signed 32 → Signed 32 → Volume}
    {leading rows planes : Signed 32} {made : Except Failure Volume} {volume : Volume}
    (fitted : Fitted family extent rows planes (.ok (leading.extend int_le_long)) made)
    (filled : 1 ≤ leading.val ∧ 1 ≤ rows.val) (found : made = .ok volume) :
    ∃ needed, volume.bufferLength extent = .ok needed ∧
      needed.val = leading.val * (rows.val * planes.val) := by
  obtain ⟨length, row, plane, needed, whole, -, value, -, taken, exact⟩ :=
    fitted.taken volume found
  cases whole
  rw [Signed.extend_val, Int.max_eq_left filled.1] at value
  rw [value, Int.max_eq_left filled.2] at exact
  exact ⟨needed, taken, exact⟩

end Volume

/-- For all extents, alignments and element sizes, also negative ones, the constructors of dense
layouts end with a layout or with a refusal: of the pitch of the leading component, or of the first
stride that is beyond 32 bits. The layout takes the extent. Of an extent with elements a packed
layout has as many as the product of the components; a pitched one has the row stride times the
product of the others. -/
theorem layouts_fit_their_extents :
    (∀ extent : Index2 32,
      Plane.Fitted .alongX extent extent.y (.ok (extent.x.extend int_le_long))
        (liftM (Plane.packedAlongX extent)) ∧
      Plane.Fitted .alongY extent extent.x (.ok (extent.y.extend int_le_long))
        (liftM (Plane.packedAlongY extent)) ∧
      (∀ alignment elementSize : Signed 64,
        Plane.Fitted .alongX extent extent.y
          (pitchedLength (extent.x.extend int_le_long) alignment elementSize)
          (Plane.pitchedAlongX extent alignment elementSize) ∧
        Plane.Fitted .alongY extent extent.x
          (pitchedLength (extent.y.extend int_le_long) alignment elementSize)
          (Plane.pitchedAlongY extent alignment elementSize)) ∧
      ((∀ component ∈ extent.values, 1 ≤ component) → ∀ plane,
        Plane.packedAlongX extent = .ok plane ∨ Plane.packedAlongY extent = .ok plane →
          ∃ needed, plane.bufferLength extent = .ok needed ∧ needed.val = extent.values.prod)) ∧
    ∀ extent : Index3 32,
      Volume.Fitted .alongX extent extent.y extent.z (.ok (extent.x.extend int_le_long))
        (Volume.packedAlongX extent) ∧
      Volume.Fitted .alongZ extent extent.y extent.x (.ok (extent.z.extend int_le_long))
        (Volume.packedAlongZ extent) ∧
      (∀ alignment elementSize : Signed 64,
        Volume.Fitted .alongX extent extent.y extent.z
          (pitchedLength (extent.x.extend int_le_long) alignment elementSize)
          (Volume.pitchedAlongX extent alignment elementSize) ∧
        Volume.Fitted .alongZ extent extent.y extent.x
          (pitchedLength (extent.z.extend int_le_long) alignment elementSize)
          (Volume.pitchedAlongZ extent alignment elementSize)) ∧
      ((∀ component ∈ extent.values, 1 ≤ component) → ∀ volume,
        Volume.packedAlongX extent = .ok volume ∨ Volume.packedAlongZ extent = .ok volume →
          ∃ needed, volume.bufferLength extent = .ok needed ∧
            needed.val = extent.values.prod) := by
  constructor
  · intro extent
    refine ⟨Plane.packedAlongX_fitted extent, Plane.packedAlongY_fitted extent, ?_, ?_⟩
    · intro alignment elementSize
      exact ⟨Plane.alongX_fitted fun _ => pitched_above, Plane.alongY_fitted fun _ => pitched_above⟩
    · intro components plane packed
      obtain ⟨x, y⟩ : 1 ≤ extent.x.val ∧ 1 ≤ extent.y.val := by
        simpa [Index2.values, Index2.components] using components
      have whole : extent.values.prod = extent.x.val * extent.y.val := by
        simp [Index2.values, Index2.components]
      rw [whole]
      rcases packed with alongX | alongY
      · exact (Plane.packedAlongX_fitted extent).packed_length x alongX
      · rw [Int.mul_comm]
        exact (Plane.packedAlongY_fitted extent).packed_length y alongY
  · intro extent
    refine ⟨Volume.packedAlongX_fitted extent, Volume.packedAlongZ_fitted extent, ?_, ?_⟩
    · intro alignment elementSize
      exact ⟨Volume.alongX_fitted fun _ => pitched_above,
        Volume.alongZ_fitted fun _ => pitched_above⟩
    · intro components volume packed
      obtain ⟨x, y, z⟩ : 1 ≤ extent.x.val ∧ 1 ≤ extent.y.val ∧ 1 ≤ extent.z.val := by
        simpa [Index3.values, Index3.components] using components
      have whole : extent.values.prod = extent.x.val * (extent.y.val * extent.z.val) := by
        simp [Index3.values, Index3.components]
      rw [whole]
      rcases packed with alongX | alongZ
      · exact (Volume.packedAlongX_fitted extent).packed_length ⟨x, y⟩ alongX
      · have turned : extent.x.val * (extent.y.val * extent.z.val) =
            extent.z.val * (extent.y.val * extent.x.val) := by ring
        rw [turned]
        exact (Volume.packedAlongZ_fitted extent).packed_length ⟨z, y⟩ alongZ

/-- Three planes of four rows, turned and packed, have sixty elements. Rows of five elements that
are padded to eight need forty-eight for two planes of three. Of a plane that is just beyond 32 bits
there is no layout, and also none of rows that are to be aligned to three bytes. -/
theorem turned_and_padded_planes_fit :
    (∃ needed, (Volume.alongZ ⟨5, by decide⟩ ⟨20, by decide⟩).bufferLength
        ⟨⟨3, by decide⟩, ⟨4, by decide⟩, ⟨5, by decide⟩⟩ = .ok needed ∧ needed.val = 60) ∧
      (∃ needed, (Volume.alongX ⟨8, by decide⟩ ⟨24, by decide⟩).bufferLength
        ⟨⟨5, by decide⟩, ⟨3, by decide⟩, ⟨2, by decide⟩⟩ = .ok needed ∧ needed.val = 48) ∧
      Volume.packedAlongX ⟨⟨65536, by decide⟩, ⟨32768, by decide⟩, ⟨-1, by decide⟩⟩ =
        .error (.refused (.indexOverflow 2147483648)) ∧
      Plane.pitchedAlongY ⟨⟨7, by decide⟩, ⟨5, by decide⟩⟩ ⟨3, by decide⟩ ⟨1, by decide⟩ =
        .error (.refused (.unsupportedAlignment 3 1)) := by
  refine ⟨?_, ?_, ?_, ?_⟩
  · exact (layouts_fit_their_extents.2 _).2.2.2 (by decide) _ (.inr rfl)
  · have made : Volume.pitchedAlongX ⟨⟨5, by decide⟩, ⟨3, by decide⟩, ⟨2, by decide⟩⟩
        ⟨16, by decide⟩ ⟨4, by decide⟩ = .ok (.alongX ⟨8, by decide⟩ ⟨24, by decide⟩) := by
      decide +kernel
    obtain ⟨length, row, plane, needed, -, same, -, -, taken, exact⟩ :=
      ((layouts_fit_their_extents.2 _).2.2.1 _ _).1.taken _ made
    cases same
    exact ⟨needed, taken, exact⟩
  · exact ((layouts_fit_their_extents.2 _).1.unmade_iff _).mpr (.stride rfl (by decide))
  · obtain ⟨-, -, pitched, -⟩ := layouts_fit_their_extents.1 ⟨⟨7, by decide⟩, ⟨5, by decide⟩⟩
    have refused : pitchedLength ⟨5, by decide⟩ ⟨3, by decide⟩ ⟨1, by decide⟩ =
        .error (.unsupportedAlignment 3 1) := by decide +kernel
    exact ((pitched _ _).2.unmade_iff _).mpr (.pitch refused)

end Layout

end KernelIR
