import KernelIR.Proofs.Layout.Boxes

/-!
Lengths of strided buffers as exact integers. A length is the greatest span of a dimension, or one
more than the last address of the box where that is more; the order of the dimensions only decides
in which order the terms are added. Where the dimensions are nested and their strides do not grow
towards the faster ones, nothing reaches further than the slowest dimension, unless that is empty.
-/

set_option autoImplicit false

namespace KernelIR.Layout

variable {dimensions others : List Dimension}

/-- Some dimension spans this length, and none spans more. -/
structure Widest (dimensions : List Dimension) (length : Int) : Prop where
  spanned : ∃ dimension ∈ dimensions, dimension.span.val = length
  bound : ∀ dimension ∈ dimensions, dimension.span.val ≤ length

theorem Widest.unique {length other : Int} (widest : Widest dimensions length)
    (same : Widest dimensions other) : length = other := by
  obtain ⟨dimension, member, rfl⟩ := widest.spanned
  obtain ⟨dimension', member', rfl⟩ := same.spanned
  exact Int.le_antisymm (same.bound dimension member) (widest.bound dimension' member')

theorem Widest.perm {length : Int} (widest : Widest dimensions length)
    (same : dimensions.Perm others) : Widest others length where
  spanned := by
    obtain ⟨dimension, member, span⟩ := widest.spanned
    exact ⟨dimension, same.mem_iff.mp member, span⟩
  bound := fun dimension member => widest.bound dimension (same.mem_iff.mpr member)

theorem Widest.eq_zero_iff {length : Int} (widest : Widest dimensions length)
    (positive : ∀ dimension ∈ dimensions, 1 ≤ dimension.stride.val)
    (natural : ∀ dimension ∈ dimensions, 0 ≤ dimension.extent.val) :
    length = 0 ↔ ∀ dimension ∈ dimensions, dimension.extent.val = 0 := by
  constructor
  · intro nothing dimension member
    have span := widest.bound dimension member
    by_contra some
    have filled : 0 < dimension.extent.val := by
      have := natural dimension member
      omega
    have spanned := Int.mul_pos (positive dimension member) filled
    exact absurd (nothing ▸ span) (Int.not_le.mpr spanned)
  · intro empty
    obtain ⟨dimension, member, rfl⟩ := widest.spanned
    rw [Dimension.span, Signed.mulLong_val, empty dimension member, Int.mul_zero]

theorem le_foldl_max (dimensions : List Dimension) (start : Signed 64) :
    let best := dimensions.foldl (fun best dimension => best.max dimension.span) start
    start.val ≤ best.val ∧ ∀ dimension ∈ dimensions, dimension.span.val ≤ best.val := by
  induction dimensions generalizing start with
  | nil => simp
  | cons dimension dimensions ih =>
      have rest := ih (start.max dimension.span)
      have next := Signed.max_val start dimension.span
      simp only [List.foldl_cons, List.forall_mem_cons]
      exact ⟨by omega, by omega, rest.2⟩

theorem foldl_max_spanned (dimensions : List Dimension) (start : Signed 64) :
    let best := dimensions.foldl (fun best dimension => best.max dimension.span) start
    best = start ∨ ∃ dimension ∈ dimensions, dimension.span = best := by
  induction dimensions generalizing start with
  | nil => simp
  | cons dimension dimensions ih =>
      have next : start.max dimension.span = start ∨ start.max dimension.span = dimension.span := by
        unfold Signed.max
        split <;> simp
      simp only [List.foldl_cons, List.exists_mem_cons_iff]
      rcases ih (start.max dimension.span) with kept | later
      · rw [kept]
        rcases next with old | new
        · exact .inl old
        · exact .inr (.inl new.symm)
      · exact .inr (.inr later)

theorem greatestSpan_widest (some : dimensions ≠ []) :
    Widest dimensions (greatestSpan dimensions).val := by
  cases dimensions with
  | nil => exact absurd rfl some
  | cons first rest =>
      have most := le_foldl_max rest first.span
      refine ⟨?_, List.forall_mem_cons.mpr most⟩
      rcases foldl_max_spanned rest first.span with own | ⟨dimension, member, span⟩
      · exact ⟨first, List.mem_cons_self, congrArg Signed.val own.symm⟩
      · exact ⟨dimension, List.mem_cons_of_mem first member, congrArg Signed.val span⟩

theorem offset_last_cons (dimension : Dimension) (dimensions : List Dimension) :
    offset (dimension :: dimensions) (lastIndices (dimension :: dimensions)) =
      (dimension.extent.val - 1) * dimension.stride.val +
        offset dimensions (lastIndices dimensions) := rfl

theorem greatestSpan_widest_perm (some : dimensions ≠ []) (same : dimensions.Perm others) :
    Widest dimensions (greatestSpan others).val := by
  have populated : others ≠ [] := fun nothing => some (List.perm_nil.mp (nothing ▸ same))
  exact (greatestSpan_widest populated).perm same.symm

theorem offset_last_perm (same : dimensions.Perm others) :
    offset dimensions (lastIndices dimensions) = offset others (lastIndices others) := by
  induction same with
  | nil => rfl
  | cons dimension same ih => rw [offset_last_cons, offset_last_cons, ih]
  | swap first second rest =>
      simp only [offset_last_cons]
      omega
  | trans first second before after => exact before.trans after

theorem inBox_last (filled : ∀ dimension ∈ dimensions, 0 < dimension.extent.val) :
    InBox dimensions (lastIndices dimensions) := by
  induction dimensions with
  | nil => exact .nil
  | cons dimension dimensions ih =>
      rw [List.forall_mem_cons] at filled
      have last : 0 ≤ dimension.extent.val - 1 ∧ dimension.extent.val - 1 < dimension.extent.val := by
        omega
      exact .cons last (ih filled.2)

/-- Where no term is negative, no partial sum is greater than the whole, so the sum is found if it
fits. -/
theorem sum_from_eq_ok_iff {start last : Signed 64} (natural : 0 ≤ start.val)
    (filled : ∀ dimension ∈ dimensions, 0 < dimension.extent.val)
    (strides : ∀ dimension ∈ dimensions, 0 ≤ dimension.stride.val) :
    dimensions.foldlM
        (fun address dimension => do
          let step ← (dimension.stride.extend int_le_long).mul dimension.extent.predLong
          address.add step) start = .ok last ↔
      last.val = start.val + offset dimensions (lastIndices dimensions) := by
  refine ⟨sum_from_val, fun sum => ?_⟩
  induction dimensions generalizing start with
  | nil => exact congrArg Except.ok (Signed.ext_val (sum.trans (Int.add_zero _)).symm)
  | cons dimension dimensions ih =>
      rw [List.forall_mem_cons] at filled strides
      have term : 0 ≤ (dimension.extent.val - 1) * dimension.stride.val :=
        Int.mul_nonneg (by omega) strides.1
      have rest := (offset_le_last strides.2 (inBox_last filled.2)).1
      rw [offset_last_cons] at sum
      obtain ⟨step, product⟩ := last.exists_below term (by omega)
      obtain ⟨next, added⟩ := last.exists_below (Int.add_nonneg natural term) (by omega)
      rw [List.foldlM_cons, bind_eq_ok_iff]
      refine ⟨next, ?_, ih (by omega) filled.2 strides.2 (by omega)⟩
      rw [bind_eq_ok_iff]
      refine ⟨step, Signed.mul_eq_ok_iff.mpr ?_, Signed.add_eq_ok_iff.mpr ?_⟩
      · rw [product]
        exact Int.mul_comm _ _
      · rw [added, product]

theorem lastAddress_eq_ok_iff (filled : ∀ dimension ∈ dimensions, 0 < dimension.extent.val)
    (strides : ∀ dimension ∈ dimensions, 0 ≤ dimension.stride.val) (last : Signed 64) :
    lastAddress dimensions = .ok last ↔
      last.val = offset dimensions (lastIndices dimensions) := by
  unfold lastAddress
  rw [sum_from_eq_ok_iff (Int.le_refl 0) filled strides]
  exact Eq.congr_right (Int.zero_add _)

theorem stridedLength_of_empty (empty : ∃ dimension ∈ dimensions, dimension.extent.val ≤ 0) :
    stridedLength dimensions = .ok (greatestSpan dimensions) := by
  have found : dimensions.any (fun dimension => dimension.extent.val ≤ 0) := by
    simpa using empty
  unfold stridedLength
  rw [if_pos found]

theorem stridedLength_eq_ok_iff (filled : ∀ dimension ∈ dimensions, 0 < dimension.extent.val)
    (strides : ∀ dimension ∈ dimensions, 0 ≤ dimension.stride.val) (length : Signed 64) :
    stridedLength dimensions = .ok length ↔
      length.val = max (greatestSpan dimensions).val
        (offset dimensions (lastIndices dimensions) + 1) := by
  have noneEmpty : ¬ dimensions.any (fun dimension => dimension.extent.val ≤ 0) := by
    simpa using filled
  have natural := (offset_le_last strides (inBox_last filled)).1
  unfold stridedLength
  rw [if_neg noneEmpty, bind_eq_ok_iff]
  simp only [bind_eq_ok_iff, lastAddress_eq_ok_iff filled strides, Signed.add_eq_ok_iff]
  constructor
  · rintro ⟨last, summed, past, next, same⟩
    cases same
    rw [Signed.max_val, next, summed]
  · intro most
    obtain ⟨last, summed⟩ := length.exists_below natural (by omega)
    obtain ⟨past, next⟩ := length.exists_below (Int.le_add_one natural) (by omega)
    refine ⟨last, summed, past, by rw [next, summed], ?_⟩
    apply congrArg Except.ok
    apply Signed.ext_val
    rw [Signed.max_val, next, most]

def Descending (dimensions : List Dimension) : Prop :=
  dimensions.Pairwise fun slower faster => faster.stride.val ≤ slower.stride.val

/-- In nested dimensions each one spans at most a step of the next slower one, and so at most a step
of the slowest. -/
theorem Nested.span_le_stride {slowest : Dimension} {faster : List Dimension}
    (nested : Nested (slowest :: faster)) (descending : Descending (slowest :: faster)) :
    ∀ dimension ∈ faster, dimension.span.val ≤ slowest.stride.val := by
  induction faster generalizing slowest with
  | nil => simp
  | cons next faster ih =>
      have step := (List.pairwise_cons.mp descending).1 next List.mem_cons_self
      have rest := ih nested.2 (List.pairwise_cons.mp descending).2
      rw [List.forall_mem_cons]
      refine ⟨nested.1, fun dimension member => ?_⟩
      exact Int.le_trans (rest dimension member) step

theorem Nested.widest {slowest : Dimension} {faster : List Dimension}
    (nested : Nested (slowest :: faster)) (descending : Descending (slowest :: faster))
    (stride : 0 ≤ slowest.stride.val) (filled : 0 < slowest.extent.val) :
    Widest (slowest :: faster) slowest.span.val where
  spanned := ⟨slowest, List.mem_cons_self, rfl⟩
  bound := by
    have once : slowest.stride.val ≤ slowest.span.val := by
      have steps := Int.mul_le_mul_of_nonneg_left filled stride
      rwa [Int.zero_add, Int.mul_one] at steps
    rw [List.forall_mem_cons]
    refine ⟨Int.le_refl _, fun dimension member => ?_⟩
    exact Int.le_trans (nested.span_le_stride descending dimension member) once

theorem Nested.stridedLength_eq {slowest : Dimension} {faster : List Dimension}
    (nested : Nested (slowest :: faster)) (descending : Descending (slowest :: faster))
    (strides : ∀ dimension ∈ slowest :: faster, 0 ≤ dimension.stride.val)
    (filled : 0 < slowest.extent.val) (same : (slowest :: faster).Perm dimensions) :
    stridedLength dimensions = .ok slowest.span := by
  have widest := nested.widest descending (strides slowest List.mem_cons_self) filled
  have span : (greatestSpan dimensions).val = slowest.span.val :=
    (greatestSpan_widest_perm (List.cons_ne_nil slowest faster) same).unique widest
  by_cases empty : ∃ dimension ∈ dimensions, dimension.extent.val ≤ 0
  · rw [stridedLength_of_empty empty]
    exact congrArg Except.ok (Signed.ext_val span)
  · have allFilled : ∀ dimension ∈ dimensions, 0 < dimension.extent.val := by
      simpa using empty
    have inside := inBox_last fun dimension member => allFilled dimension (same.mem_iff.mp member)
    have last : offset dimensions (lastIndices dimensions) < slowest.span.val := by
      rw [← offset_last_perm same]
      exact (nested.offset_bounds inside).2
    rw [stridedLength_eq_ok_iff allFilled fun dimension member =>
      strides dimension (same.mem_iff.mpr member)]
    omega

theorem Nested.strided_length {length : Signed 64} (nested : Nested dimensions)
    (full : covered dimensions = length.val) (descending : Descending dimensions)
    (positive : ∀ dimension ∈ dimensions, 1 ≤ dimension.stride.val)
    (natural : ∀ dimension ∈ dimensions, 0 ≤ dimension.extent.val)
    (some : dimensions ≠ []) (same : dimensions.Perm others) :
    ∃ needed, stridedLength others = .ok needed ∧
      ∀ slowest faster,
        dimensions.map (fun dimension => dimension.extent.val) = slowest :: faster →
          (needed = length ↔ 0 < slowest ∨ ∀ component ∈ faster, component = 0) ∧
          (slowest = 0 → length.val = 0 ∧ Widest dimensions needed.val) := by
  have widest := greatestSpan_widest_perm some same
  have strides : ∀ dimension ∈ dimensions, 0 ≤ dimension.stride.val :=
    fun dimension member => Int.le_trans Int.one_nonneg (positive dimension member)
  cases dimensions with
  | nil => exact absurd rfl some
  | cons first rest =>
      have covers : first.span = length := Signed.ext_val full
      by_cases filled : 0 < first.extent.val
      · refine ⟨first.span, nested.stridedLength_eq descending strides filled same, ?_⟩
        intro slowest faster extents
        cases extents
        exact ⟨iff_of_true covers (.inl filled), fun empty => absurd empty (Int.ne_of_gt filled)⟩
      · have empty : first.extent.val = 0 := by
          have := natural first List.mem_cons_self
          omega
        have nothing : length.val = 0 := by
          rw [← covers, Dimension.span, Signed.mulLong_val, empty, Int.mul_zero]
        have found : stridedLength others = .ok (greatestSpan others) :=
          stridedLength_of_empty ⟨first, same.mem_iff.mp List.mem_cons_self, Int.not_lt.mp filled⟩
        refine ⟨greatestSpan others, found, ?_⟩
        intro slowest faster extents
        cases extents
        refine ⟨?_, fun _ => ⟨nothing, widest⟩⟩
        rw [← Signed.val_inj, nothing, widest.eq_zero_iff positive natural]
        simp [empty]

end KernelIR.Layout
