import KernelIR.Layout.Index
import Mathlib

/-!
Sizes of index tuples. The product of the components is formed in 64 bits, one factor after the
other, and only the whole product is compared with the end of 32 bits. Main statement: a size is the
exact product if this is a 32-bit number, and it is refused with the product otherwise, as long as
no product on the way leaves 64 bits. For two components of 32 bits none does, and for three of them
only the last one can. Where a product leaves them, the multiplication overflows, also if a later
factor is zero.
-/

set_option autoImplicit false

namespace KernelIR.Layout

variable {bits : Nat}

def exactProduct (components : List (Signed bits)) : Int := (components.map Signed.val).prod

theorem exactProduct_nil : exactProduct ([] : List (Signed bits)) = 1 := rfl

theorem exactProduct_cons (component : Signed bits) (components : List (Signed bits)) :
    exactProduct (component :: components) = component.val * exactProduct components := by
  rw [exactProduct, List.map_cons, List.prod_cons, exactProduct]

/-- No product of the first components, however many they are, leaves 64 bits. -/
def StaysLong (components : List (Signed bits)) : Prop :=
  ∀ part ∈ components.inits, Fits 64 (exactProduct part)

/-- The products of the first components are formed from left to right, from any start. -/
theorem product_from_eq_ok_iff (widths : bits ≤ 64) (components : List (Signed bits))
    (start product : Signed 64) :
    components.foldlM (fun product component => product.mul (component.extend widths)) start =
        .ok product ↔
      (∀ part ∈ components.inits, Fits 64 (start.val * exactProduct part)) ∧
        product.val = start.val * exactProduct components := by
  induction components generalizing start with
  | nil =>
      have alone : start.val * exactProduct ([] : List (Signed bits)) = start.val := Int.mul_one _
      rw [List.inits, List.forall_mem_singleton, alone, and_iff_right start.fits, Signed.val_inj]
      change Except.ok start = Except.ok product ↔ product = start
      rw [Except.ok.injEq, eq_comm]
  | cons component components ih =>
      have longer : ∀ part : List (Signed bits), start.val * exactProduct (component :: part) =
          start.val * component.val * exactProduct part := fun part => by
        rw [exactProduct_cons, Int.mul_assoc]
      rw [List.foldlM_cons, bind_eq_ok_iff, List.inits_cons, List.forall_mem_cons,
        List.forall_mem_map]
      simp only [longer, exactProduct_nil, Int.mul_one, and_iff_right start.fits]
      constructor
      · rintro ⟨next, step, rest⟩
        rw [Signed.mul_eq_ok_iff, Signed.extend_val] at step
        rw [ih, step] at rest
        exact rest
      · rintro ⟨fits, same⟩
        have first := fits [] ((List.mem_inits [] components).mpr List.nil_prefix)
        rw [exactProduct_nil, Int.mul_one] at first
        exact ⟨⟨_, first⟩, Signed.mul_eq_ok_iff.mpr rfl, (ih _).mpr ⟨fits, same⟩⟩

theorem product_from_error (widths : bits ≤ 64) {components : List (Signed bits)}
    {start : Signed 64} {operation : Overflow}
    (failed : components.foldlM
      (fun product component => product.mul (component.extend widths)) start = .error operation) :
    operation = .multiply := by
  induction components generalizing start with
  | nil => cases failed
  | cons component components ih =>
      rw [List.foldlM_cons, bind_eq_error_iff] at failed
      rcases failed with here | ⟨next, -, rest⟩
      · exact Signed.mul_eq_error here
      · exact ih rest

theorem longProduct_eq_ok_iff (widths : bits ≤ 64) (components : List (Signed bits))
    (product : Signed 64) :
    longProduct widths components = .ok product ↔
      StaysLong components ∧ product.val = exactProduct components := by
  have decided := product_from_eq_ok_iff widths components ⟨1, fits_one_long⟩ product
  simp only [Int.one_mul] at decided
  exact decided

theorem longProduct_of_staysLong (widths : bits ≤ 64) {components : List (Signed bits)}
    (stays : StaysLong components) :
    ∃ product, longProduct widths components = .ok product ∧
      product.val = exactProduct components := by
  have whole := stays components ((List.mem_inits components components).mpr List.prefix_rfl)
  exact ⟨⟨_, whole⟩, (longProduct_eq_ok_iff widths components _).mpr ⟨stays, rfl⟩, rfl⟩

theorem longProduct_of_leaves (widths : bits ≤ 64) {components : List (Signed bits)}
    (leaves : ¬ StaysLong components) : longProduct widths components = .error .multiply := by
  cases outcome : longProduct widths components with
  | ok product =>
      have found := (longProduct_eq_ok_iff widths components product).mp outcome
      exact absurd found.1 leaves
  | error operation => rw [product_from_error widths outcome]

/-- A size is the exact product if this is a 32-bit number. Otherwise it is refused. -/
structure Sized (result : Except Failure (Signed 32)) (product : Int) : Prop where
  found_iff : ∀ size, result = .ok size ↔ size.val = product
  refused : ¬ Fits 32 product → result = .error (.refused (.indexOverflow product))

theorem sized_of_staysLong (widths : bits ≤ 64) {components : List (Signed bits)}
    (stays : StaysLong components) :
    Sized (shortProduct widths components) (exactProduct components) := by
  obtain ⟨product, found, exact⟩ := longProduct_of_staysLong widths stays
  have narrowed : shortProduct widths components = (narrow product).mapError .refused := by
    unfold shortProduct
    rw [found]
    rfl
  rw [narrowed, ← exact]
  constructor
  · intro size
    rw [mapError_eq_ok_iff, narrow_eq_ok_iff]
  · intro unfit
    rw [(narrow_eq_error_iff product _).mpr ⟨unfit, rfl⟩]
    rfl

theorem overflows_of_leaves (widths : bits ≤ 64) {components : List (Signed bits)}
    (leaves : ¬ StaysLong components) :
    shortProduct widths components = .error (.fault (.overflow .multiply)) := by
  unfold shortProduct
  rw [longProduct_of_leaves widths leaves]
  rfl

theorem Index2.size_outcome (widths : bits ≤ 64) (index : Index2 bits) :
    let product := index.x.val * index.y.val
    (Fits 64 product → Sized (index.size widths) product) ∧
      (¬ Fits 64 product → index.size widths = .error (.fault (.overflow .multiply))) := by
  intro product
  have whole : exactProduct index.components = product := by
    rw [components, exactProduct_cons, exactProduct_cons, exactProduct_nil, Int.mul_one]
  have stays : StaysLong index.components ↔ Fits 64 product := by
    have first := index.x.fits.widen widths
    simp [StaysLong, components, exactProduct_cons, exactProduct_nil, fits_one_long, first, product]
  constructor
  · intro fits
    rw [← whole]
    exact sized_of_staysLong widths (stays.mpr fits)
  · intro leaves
    exact overflows_of_leaves widths (mt stays.mp leaves)

theorem Index3.size_outcome (widths : bits ≤ 64) (index : Index3 bits) :
    let face := index.x.val * index.y.val
    let product := face * index.z.val
    (Fits 64 face → Fits 64 product → Sized (index.size widths) product) ∧
      (¬ (Fits 64 face ∧ Fits 64 product) →
        index.size widths = .error (.fault (.overflow .multiply))) := by
  intro face product
  have whole : exactProduct index.components = product := by
    rw [components, exactProduct_cons, exactProduct_cons, exactProduct_cons, exactProduct_nil,
      Int.mul_one, ← Int.mul_assoc]
  have stays : StaysLong index.components ↔ Fits 64 face ∧ Fits 64 product := by
    have first := index.x.fits.widen widths
    simp [StaysLong, components, exactProduct_cons, exactProduct_nil, fits_one_long, first, face,
      product, Int.mul_assoc]
  constructor
  · intro faceFits fits
    rw [← whole]
    exact sized_of_staysLong widths (stays.mpr ⟨faceFits, fits⟩)
  · intro leaves
    exact overflows_of_leaves widths (mt stays.mp leaves)

/-- The size of two 32-bit components is always their exact product, or refused with it. The size of
three of them, and of components of 64 bits, is so exactly as long as no product of the first
components leaves 64 bits; otherwise the multiplication overflows. -/
theorem sizes_are_exact_up_to_overflow (short : Index2 32) (shortTriple : Index3 32)
    (long : Index2 64) (longTriple : Index3 64) :
    let triple := shortTriple.x.val * shortTriple.y.val * shortTriple.z.val
    let pair := long.x.val * long.y.val
    let face := longTriple.x.val * longTriple.y.val
    let whole := face * longTriple.z.val
    Sized (short.size int_le_long) (short.x.val * short.y.val) ∧
      (Fits 64 triple → Sized (shortTriple.size int_le_long) triple) ∧
      (¬ Fits 64 triple → shortTriple.size int_le_long = .error (.fault (.overflow .multiply))) ∧
      (Fits 64 pair → Sized (long.size (Nat.le_refl 64)) pair) ∧
      (¬ Fits 64 pair → long.size (Nat.le_refl 64) = .error (.fault (.overflow .multiply))) ∧
      (Fits 64 face → Fits 64 whole → Sized (longTriple.size (Nat.le_refl 64)) whole) ∧
      (¬ (Fits 64 face ∧ Fits 64 whole) →
        longTriple.size (Nat.le_refl 64) = .error (.fault (.overflow .multiply))) := by
  intro triple pair face whole
  have shortFits := Signed.product_fits short.x short.y
  have shortFace := Signed.product_fits shortTriple.x shortTriple.y
  obtain ⟨tripleSized, tripleOverflows⟩ := shortTriple.size_outcome int_le_long
  obtain ⟨pairSized, pairOverflows⟩ := long.size_outcome (Nat.le_refl 64)
  obtain ⟨wholeSized, wholeOverflows⟩ := longTriple.size_outcome (Nat.le_refl 64)
  exact ⟨(short.size_outcome int_le_long).1 shortFits, tripleSized shortFace,
    fun leaves => tripleOverflows fun both => leaves both.2, pairSized, pairOverflows, wholeSized,
    wholeOverflows⟩

/-- A size of 32-bit components whose product is just below the end of 64 bits is refused, and the
multiplication of two components beyond it overflows. Behind a zero the greatest factors have a
size. -/
theorem sizes_at_end_of_width :
    let edge : Signed 32 := ⟨2147483647, by decide⟩
    let least : Signed 64 := ⟨-9223372036854775808, by decide⟩
    let most : Signed 64 := ⟨9223372036854775807, by decide⟩
    (Index2.mk edge edge).size int_le_long =
        .error (.refused (.indexOverflow 4611686014132420609)) ∧
      (Index3.mk edge edge ⟨2, by decide⟩).size int_le_long =
        .error (.refused (.indexOverflow 9223372028264841218)) ∧
      (Index2.mk least most).size (Nat.le_refl 64) = .error (.fault (.overflow .multiply)) ∧
      (Index3.mk .zero least most).size (Nat.le_refl 64) = .ok .zero := by
  intro edge least most
  obtain ⟨pair, triple, -, -, overflows, zero, -⟩ :=
    sizes_are_exact_up_to_overflow ⟨edge, edge⟩ ⟨edge, edge, ⟨2, by decide⟩⟩ ⟨least, most⟩
      ⟨.zero, least, most⟩
  refine ⟨pair.refused (by decide), (triple (by decide)).refused (by decide),
    overflows (by decide), ?_⟩
  exact ((zero (by decide) (by decide)).found_iff .zero).mpr rfl

/-- The product of two great components and a zero is zero, but it has no size: the first two are
multiplied before the zero is met. -/
theorem product_with_zero_has_no_size :
    ¬ ∀ index : Index3 64,
      Sized (index.size (Nat.le_refl 64)) (index.x.val * index.y.val * index.z.val) := by
  intro sized
  let great : Signed 64 := ⟨4294967296, by decide⟩
  have overflows : (Index3.mk great great .zero).size (Nat.le_refl 64) =
      .error (.fault (.overflow .multiply)) := rfl
  have found := ((sized ⟨great, great, .zero⟩).found_iff .zero).mpr rfl
  rw [overflows] at found
  cases found

end KernelIR.Layout
