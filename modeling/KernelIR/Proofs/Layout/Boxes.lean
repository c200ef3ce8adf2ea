import KernelIR.Layout.Strided
import Mathlib.Data.List.Forall2
import Mathlib.Data.List.Lex
import Mathlib.Data.Int.Order.Basic

/-!
Boxes of indices. A layout counts an index by one sum over its dimensions. Where each dimension,
from the slowest to the fastest, has room for the faster ones in one of its steps, the sum counts
the indices of a box like a number with mixed digits: none falls outside of what the slowest
dimension covers, and their order is the lexicographic one. Without such an order of the dimensions
the last index of the box still has the greatest sum.
-/

set_option autoImplicit false

namespace KernelIR.Layout

/-- The end of the width of strides and extents. -/
def greatest : Signed 32 := ⟨2147483647, by decide⟩

/-- The exact sum of the indices, each times the stride of its dimension. -/
def offset : List Dimension → List Int → Int
  | dimension :: dimensions, index :: indices =>
      index * dimension.stride.val + offset dimensions indices
  | _, _ => 0

def InBox (dimensions : List Dimension) (indices : List Int) : Prop :=
  List.Forall₂ (fun dimension index => 0 ≤ index ∧ index < dimension.extent.val) dimensions indices

theorem InBox.filled {dimensions : List Dimension} {indices : List Int}
    (inside : InBox dimensions indices) : ∀ dimension ∈ dimensions, 0 < dimension.extent.val := by
  intro dimension member
  induction inside with
  | nil => cases member
  | cons here _ ih =>
      cases member with
      | head => exact Int.lt_of_le_of_lt here.1 here.2
      | tail _ member => exact ih member

/-- What the slowest dimension covers. Without any dimension this is one element. -/
def covered : List Dimension → Int
  | [] => 1
  | slowest :: _ => slowest.span.val

/-- From the slowest to the fastest, what the faster dimensions cover fits into one step. -/
def Nested : List Dimension → Prop
  | [] => True
  | slowest :: faster => covered faster ≤ slowest.stride.val ∧ Nested faster

/-- Sums of different steps do not meet if what is added to them stays within one step. -/
theorem steps_apart {index other stride low high : Int} (less : index < other) (natural : 0 ≤ high)
    (short : low < stride) (room : 0 ≤ stride) : index * stride + low < other * stride + high :=
  calc
    index * stride + low < index * stride + stride := by omega
    _ = (index + 1) * stride := by rw [Int.add_mul, Int.one_mul]
    _ ≤ other * stride := Int.mul_le_mul_of_nonneg_right less room
    _ ≤ other * stride + high := by omega

namespace Nested

variable {dimensions : List Dimension} {indices others : List Int}

theorem offset_bounds (nested : Nested dimensions) (inside : InBox dimensions indices) :
    0 ≤ offset dimensions indices ∧ offset dimensions indices < covered dimensions := by
  induction inside with
  | nil => decide
  | @cons slowest index faster rest here _ ih =>
      obtain ⟨room, nested⟩ := nested
      obtain ⟨natural, short⟩ := ih nested
      have stride : 0 ≤ slowest.stride.val := by omega
      have start : 0 ≤ index * slowest.stride.val := Int.mul_nonneg here.1 stride
      have last := steps_apart here.2 (Int.le_refl 0) (Int.lt_of_lt_of_le short room) stride
      have span : covered (slowest :: faster) = slowest.extent.val * slowest.stride.val :=
        Int.mul_comm _ _
      unfold offset
      omega

theorem offset_lt_iff (nested : Nested dimensions) (inside : InBox dimensions indices)
    (within : InBox dimensions others) :
    offset dimensions indices < offset dimensions others ↔ List.Lex (· < ·) indices others := by
  induction inside generalizing others with
  | nil =>
      cases within
      exact iff_of_false (Int.lt_irrefl _) List.not_lex_nil
  | @cons slowest index faster rest here behind ih =>
      cases within with
      | @cons _ other _ rest' there beside =>
          obtain ⟨room, nested⟩ := nested
          obtain ⟨natural, short⟩ := nested.offset_bounds behind
          obtain ⟨natural', short'⟩ := nested.offset_bounds beside
          have stride : 0 ≤ slowest.stride.val := by omega
          rw [List.cons_lex_cons_iff]
          unfold offset
          rcases Int.lt_trichotomy index other with less | rfl | greater
          · have apart := steps_apart less natural' (Int.lt_of_lt_of_le short room) stride
            exact iff_of_true apart (.inl less)
          · rw [Int.add_lt_add_iff_left, ih nested beside]
            simp
          · have apart := steps_apart greater natural (Int.lt_of_lt_of_le short' room) stride
            apply iff_of_false (Int.lt_asymm apart)
            rintro (less | ⟨same, -⟩)
            · exact Int.lt_asymm less greater
            · exact Int.ne_of_gt greater same

theorem eq_of_offset_eq (nested : Nested dimensions) (inside : InBox dimensions indices)
    (within : InBox dimensions others)
    (same : offset dimensions indices = offset dimensions others) : indices = others := by
  rcases trichotomous_of (List.Lex (· < ·)) indices others with before | equal | after
  · exact absurd same (Int.ne_of_lt ((nested.offset_lt_iff inside within).mpr before))
  · exact equal
  · exact absurd same (Int.ne_of_gt ((nested.offset_lt_iff within inside).mpr after))

end Nested

def lastIndices (dimensions : List Dimension) : List Int :=
  dimensions.map fun dimension => dimension.extent.val - 1

theorem offset_le_last {dimensions : List Dimension} {indices : List Int}
    (natural : ∀ dimension ∈ dimensions, 0 ≤ dimension.stride.val)
    (inside : InBox dimensions indices) :
    0 ≤ offset dimensions indices ∧
      offset dimensions indices ≤ offset dimensions (lastIndices dimensions) := by
  induction inside with
  | nil => exact ⟨Int.le_refl 0, Int.le_refl 0⟩
  | @cons dimension index dimensions indices here _ ih =>
      have stride := natural dimension List.mem_cons_self
      obtain ⟨low, high⟩ := ih fun other member => natural other (List.mem_cons_of_mem _ member)
      have start : 0 ≤ index * dimension.stride.val := Int.mul_nonneg here.1 stride
      have last : index * dimension.stride.val ≤
          (dimension.extent.val - 1) * dimension.stride.val :=
        Int.mul_le_mul_of_nonneg_right (by omega) stride
      change 0 ≤ index * dimension.stride.val + _ ∧
        index * dimension.stride.val + _ ≤ (dimension.extent.val - 1) * dimension.stride.val +
          offset dimensions (lastIndices dimensions)
      omega

theorem sum_from_val {dimensions : List Dimension} {start last : Signed 64}
    (found : dimensions.foldlM
      (fun address dimension => do
        let step ← (dimension.stride.extend int_le_long).mul dimension.extent.predLong
        address.add step) start = .ok last) :
    last.val = start.val + offset dimensions (lastIndices dimensions) := by
  induction dimensions generalizing start with
  | nil =>
      cases found
      exact (Int.add_zero _).symm
  | cons dimension rest ih =>
      rw [List.foldlM_cons, bind_eq_ok_iff] at found
      obtain ⟨next, stepped, ended⟩ := found
      rw [bind_eq_ok_iff] at stepped
      obtain ⟨step, product, sum⟩ := stepped
      rw [Signed.mul_eq_ok_iff, Signed.extend_val, Signed.predLong_val, Int.mul_comm] at product
      rw [Signed.add_eq_ok_iff, product] at sum
      rw [ih ended, sum, Int.add_assoc]
      rfl

theorem lastAddress_val {dimensions : List Dimension} {last : Signed 64}
    (found : lastAddress dimensions = .ok last) :
    last.val = offset dimensions (lastIndices dimensions) :=
  (sum_from_val found).trans (Int.zero_add _)

theorem last_lt_stridedLength {dimensions : List Dimension} {length : Signed 64}
    (filled : ∀ dimension ∈ dimensions, 0 < dimension.extent.val)
    (found : stridedLength dimensions = .ok length) :
    offset dimensions (lastIndices dimensions) < length.val := by
  unfold stridedLength at found
  split at found
  · next empty =>
      obtain ⟨dimension, member, nothing⟩ := List.any_eq_true.mp empty
      have some := filled dimension member
      have none := of_decide_eq_true nothing
      omega
  · rw [bind_eq_ok_iff] at found
    obtain ⟨last, summed, found⟩ := found
    rw [bind_eq_ok_iff] at found
    obtain ⟨past, counted, same⟩ := found
    cases same
    have next : past.val = last.val + 1 := Signed.add_eq_ok_iff.mp counted
    rw [Signed.max_val, ← lastAddress_val summed]
    omega

theorem offset_lt_stridedLength {dimensions : List Dimension} {indices : List Int}
    {length : Signed 64} (natural : ∀ dimension ∈ dimensions, 0 ≤ dimension.stride.val)
    (inside : InBox dimensions indices) (found : stridedLength dimensions = .ok length) :
    0 ≤ offset dimensions indices ∧ offset dimensions indices < length.val := by
  obtain ⟨low, high⟩ := offset_le_last natural inside
  exact ⟨low, Int.lt_of_le_of_lt high (last_lt_stridedLength inside.filled found)⟩

/-- A buffer that a layout asks for: nested dimensions fill it, others are summed up. -/
inductive Buffer : Bool → List Dimension → Signed 64 → Prop
  | dense {dimensions : List Dimension} {length : Signed 64} (nested : Nested dimensions)
      (full : covered dimensions = length.val) : Buffer true dimensions length
  | strided {dimensions : List Dimension} {length : Signed 64}
      (natural : ∀ dimension ∈ dimensions, 0 ≤ dimension.stride.val)
      (found : stridedLength dimensions = .ok length) : Buffer false dimensions length

namespace Buffer

variable {dense : Bool} {dimensions : List Dimension} {length : Signed 64}
  {indices others : List Int} {found found' : Except Overflow (Signed 64)}

theorem offset_bounds (buffer : Buffer dense dimensions length)
    (inside : InBox dimensions indices) :
    0 ≤ offset dimensions indices ∧ offset dimensions indices < length.val := by
  cases buffer with
  | dense nested full =>
      rw [← full]
      exact nested.offset_bounds inside
  | strided natural found => exact offset_lt_stridedLength natural inside found

/-- The length is a bound for all steps of a sum, so a sum that only its own result can overflow
gives an address. -/
theorem exists_address (buffer : Buffer dense dimensions length)
    (inside : InBox dimensions indices)
    (exact : ∀ address, found = .ok address ↔ address.val = offset dimensions indices) :
    ∃ address, found = .ok address ∧ 0 ≤ address.val ∧ address.val < length.val := by
  obtain ⟨natural, bounded⟩ := buffer.offset_bounds inside
  obtain ⟨address, same⟩ := length.exists_below natural (Int.le_of_lt bounded)
  rw [← same] at natural bounded
  exact ⟨address, (exact address).mpr same, natural, bounded⟩

theorem addresses_ordered (buffer : Buffer true dimensions length)
    (inside : InBox dimensions indices) (within : InBox dimensions others)
    (exact : ∀ address, found = .ok address ↔ address.val = offset dimensions indices)
    (exact' : ∀ address, found' = .ok address ↔ address.val = offset dimensions others) :
    ∃ address address', found = .ok address ∧ found' = .ok address' ∧
      (address.val < address'.val ↔ List.Lex (· < ·) indices others) ∧
      (indices ≠ others → address ≠ address') := by
  obtain ⟨address, first, -⟩ := buffer.exists_address inside exact
  obtain ⟨address', second, -⟩ := buffer.exists_address within exact'
  have sum := (exact address).mp first
  have sum' := (exact' address').mp second
  cases buffer with
  | dense nested full =>
      refine ⟨address, address', first, second, ?_, ?_⟩
      · rw [sum, sum']
        exact nested.offset_lt_iff inside within
      · intro different same
        rw [same] at sum
        exact different (nested.eq_of_offset_eq inside within (sum.symm.trans sum'))

end Buffer

end KernelIR.Layout
