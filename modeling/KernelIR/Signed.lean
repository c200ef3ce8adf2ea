/-!
Signed integers of a fixed width, kept as mathematical integers together with their range.
Arithmetic is checked: an operation gives the exact result or says which operation left the range.
-/

set_option autoImplicit false

namespace KernelIR

-- Powers are those of the core library, whatever else is in scope.
attribute [local instance (2000)] instPowNat

inductive Overflow where
  | add
  | multiply
deriving DecidableEq, Repr

def Overflow.message : Overflow → String
  | .add => "attempt to add with overflow"
  | .multiply => "attempt to multiply with overflow"

/-- The half-open range of a two's complement word. -/
def Fits (bits : Nat) (value : Int) : Prop :=
  -2 ^ (bits - 1) ≤ value ∧ value < 2 ^ (bits - 1)

instance (bits : Nat) (value : Int) : Decidable (Fits bits value) :=
  inferInstanceAs (Decidable (_ ∧ _))

theorem Fits.widen {narrow wide : Nat} {value : Int} (widths : narrow ≤ wide)
    (fits : Fits narrow value) : Fits wide value := by
  have grows : (2 : Int) ^ (narrow - 1) ≤ 2 ^ (wide - 1) := by
    exact_mod_cast Nat.pow_le_pow_right (n := 2) (by decide) (by omega : narrow - 1 ≤ wide - 1)
  unfold Fits at *
  omega

theorem fits_zero (bits : Nat) : Fits bits 0 := by
  have positive : (0 : Int) < 2 ^ (bits - 1) := Int.pow_pos (by decide)
  unfold Fits
  omega

theorem Fits.below {bits : Nat} {value bound : Int} (fits : Fits bits bound) (natural : 0 ≤ value)
    (smaller : value ≤ bound) : Fits bits value := by
  have zero := fits_zero bits
  unfold Fits at *
  omega

theorem fits_one_int : Fits 32 1 := by decide

theorem fits_one_long : Fits 64 1 := by decide

theorem int_le_long : 32 ≤ 64 := by decide

structure Signed (bits : Nat) where
  val : Int
  fits : Fits bits val
deriving DecidableEq

namespace Signed

variable {bits : Nat}

theorem ext_val {a b : Signed bits} (same : a.val = b.val) : a = b := by
  cases a
  cases b
  cases same
  rfl

theorem val_inj {a b : Signed bits} : a.val = b.val ↔ a = b :=
  ⟨ext_val, congrArg val⟩

def ofInt? (bits : Nat) (value : Int) : Option (Signed bits) :=
  if fits : Fits bits value then some ⟨value, fits⟩ else none

theorem ofInt?_eq_some_iff {value : Int} {a : Signed bits} :
    ofInt? bits value = some a ↔ a.val = value := by
  unfold ofInt?
  split
  · next fits =>
    constructor
    · intro same
      cases same
      rfl
    · intro same
      exact congrArg some (ext_val same.symm)
  · next unfit =>
    constructor
    · intro same
      cases same
    · intro same
      exact absurd (same ▸ a.fits) unfit

theorem ofInt?_eq_none_iff {value : Int} : ofInt? bits value = none ↔ ¬ Fits bits value := by
  unfold ofInt?
  split <;> simp_all

def zero : Signed bits := ⟨0, fits_zero bits⟩

def add (a b : Signed bits) : Except Overflow (Signed bits) :=
  match ofInt? bits (a.val + b.val) with
  | some sum => .ok sum
  | none => .error .add

def mul (a b : Signed bits) : Except Overflow (Signed bits) :=
  match ofInt? bits (a.val * b.val) with
  | some product => .ok product
  | none => .error .multiply

theorem add_eq_ok_iff {a b c : Signed bits} : a.add b = .ok c ↔ c.val = a.val + b.val := by
  unfold add
  split
  · next sum found =>
    rw [ofInt?_eq_some_iff] at found
    constructor
    · intro same
      cases same
      exact found
    · intro same
      exact congrArg Except.ok (ext_val (found.trans same.symm))
  · next missing =>
    rw [ofInt?_eq_none_iff] at missing
    constructor
    · intro same
      cases same
    · intro same
      exact absurd (same ▸ c.fits) missing

theorem add_eq_error {a b : Signed bits} {operation : Overflow}
    (failed : a.add b = .error operation) : operation = .add := by
  unfold add at failed
  split at failed
  · cases failed
  · cases failed
    rfl

theorem mul_eq_ok_iff {a b c : Signed bits} : a.mul b = .ok c ↔ c.val = a.val * b.val := by
  unfold mul
  split
  · next product found =>
    rw [ofInt?_eq_some_iff] at found
    constructor
    · intro same
      cases same
      exact found
    · intro same
      exact congrArg Except.ok (ext_val (found.trans same.symm))
  · next missing =>
    rw [ofInt?_eq_none_iff] at missing
    constructor
    · intro same
      cases same
    · intro same
      exact absurd (same ▸ c.fits) missing

theorem mul_eq_error {a b : Signed bits} {operation : Overflow}
    (failed : a.mul b = .error operation) : operation = .multiply := by
  unfold mul at failed
  split at failed
  · cases failed
  · cases failed
    rfl

/-- Sign extension: the integer stays, the range grows. -/
def extend {wide : Nat} (widths : bits ≤ wide) (a : Signed bits) : Signed wide :=
  ⟨a.val, a.fits.widen widths⟩

@[simp]
theorem extend_val {wide : Nat} (widths : bits ≤ wide) (a : Signed bits) :
    (a.extend widths).val = a.val := rfl

theorem exists_below (bound : Signed bits) {value : Int} (natural : 0 ≤ value)
    (smaller : value ≤ bound.val) : ∃ part : Signed bits, part.val = value :=
  ⟨⟨value, bound.fits.below natural smaller⟩, rfl⟩

def atLeastOne (a : Signed 32) : Signed 32 :=
  if a.val < 1 then ⟨1, fits_one_int⟩ else a

theorem product_fits (a b : Signed 32) : Fits 64 (a.val * b.val) := by
  have left : a.val.natAbs ≤ 2 ^ 31 := by
    have := a.fits
    unfold Fits at this
    omega
  have right : b.val.natAbs ≤ 2 ^ 31 := by
    have := b.fits
    unfold Fits at this
    omega
  have bounded : (a.val * b.val).natAbs ≤ 2 ^ 31 * 2 ^ 31 := by
    rw [Int.natAbs_mul]
    exact Nat.mul_le_mul left right
  unfold Fits
  omega

/-- The product of two 32-bit integers always has room in 64 bits. -/
def mulLong (a b : Signed 32) : Signed 64 :=
  ⟨a.val * b.val, product_fits a b⟩

@[simp]
theorem mulLong_val (a b : Signed 32) : (a.mulLong b).val = a.val * b.val := rfl

def predLong (a : Signed 32) : Signed 64 :=
  ⟨a.val - 1, by
    have := a.fits
    unfold Fits at *
    omega⟩

@[simp]
theorem predLong_val (a : Signed 32) : a.predLong.val = a.val - 1 := rfl

protected def max (a b : Signed bits) : Signed bits :=
  if a.val < b.val then b else a

@[simp]
theorem max_val (a b : Signed bits) : (a.max b).val = max a.val b.val := by
  unfold Signed.max
  split <;> omega

end Signed

end KernelIR
