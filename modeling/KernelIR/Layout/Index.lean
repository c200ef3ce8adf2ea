import KernelIR.Layout.Fault

/-!
Index tuples of two and three dimensions, in 32 and in 64 bits. The same tuples describe extents.
-/

set_option autoImplicit false

namespace KernelIR.Layout

structure Index2 (bits : Nat) where
  x : Signed bits
  y : Signed bits
deriving DecidableEq

structure Index3 (bits : Nat) where
  x : Signed bits
  y : Signed bits
  z : Signed bits
deriving DecidableEq

def narrow (value : Signed 64) : Except Refusal (Signed 32) :=
  match Signed.ofInt? 32 value.val with
  | some short => .ok short
  | none => .error (.indexOverflow value.val)

theorem narrow_eq_ok_iff (value : Signed 64) (short : Signed 32) :
    narrow value = .ok short ↔ short.val = value.val := by
  unfold narrow
  rw [← Signed.ofInt?_eq_some_iff]
  split
  · next found stored => rw [stored, Except.ok.injEq, Option.some.injEq]
  · next missing =>
    rw [missing]
    exact iff_of_false nofun nofun

theorem narrow_eq_error_iff (value : Signed 64) (cause : Refusal) :
    narrow value = .error cause ↔ ¬ Fits 32 value.val ∧ cause = .indexOverflow value.val := by
  unfold narrow
  rw [← Signed.ofInt?_eq_none_iff]
  split
  · next found stored =>
    rw [stored]
    exact iff_of_false nofun nofun
  · next missing => rw [missing, Except.error.injEq, and_iff_right rfl, eq_comm]

def longProduct {bits : Nat} (widths : bits ≤ 64) (components : List (Signed bits)) :
    Except Overflow (Signed 64) :=
  components.foldlM (fun product component => product.mul (component.extend widths))
    ⟨1, fits_one_long⟩

/-- The product as a 32-bit integer. The product itself may already leave 64 bits. -/
def shortProduct {bits : Nat} (widths : bits ≤ 64) (components : List (Signed bits)) :
    Except Failure (Signed 32) := do
  let product ← longProduct widths components
  narrow product

namespace Index2

variable {bits : Nat}

def components (index : Index2 bits) : List (Signed bits) := [index.x, index.y]

def values (index : Index2 bits) : List Int := index.components.map Signed.val

def text (index : Index2 bits) : String := tupleText index.values

def uniform (value : Signed bits) : Index2 bits := ⟨value, value⟩

def longSize (index : Index2 bits) (widths : bits ≤ 64) : Except Overflow (Signed 64) :=
  longProduct widths index.components

def size (index : Index2 bits) (widths : bits ≤ 64) : Except Failure (Signed 32) :=
  shortProduct widths index.components

def widen (index : Index2 32) : Index2 64 :=
  ⟨index.x.extend int_le_long, index.y.extend int_le_long⟩

def narrow (index : Index2 64) : Except Refusal (Index2 32) := do
  let x ← Layout.narrow index.x
  let y ← Layout.narrow index.y
  return ⟨x, y⟩

end Index2

namespace Index3

variable {bits : Nat}

def components (index : Index3 bits) : List (Signed bits) := [index.x, index.y, index.z]

def values (index : Index3 bits) : List Int := index.components.map Signed.val

def text (index : Index3 bits) : String := tupleText index.values

def uniform (value : Signed bits) : Index3 bits := ⟨value, value, value⟩

def longSize (index : Index3 bits) (widths : bits ≤ 64) : Except Overflow (Signed 64) :=
  longProduct widths index.components

def size (index : Index3 bits) (widths : bits ≤ 64) : Except Failure (Signed 32) :=
  shortProduct widths index.components

def widen (index : Index3 32) : Index3 64 :=
  ⟨index.x.extend int_le_long, index.y.extend int_le_long, index.z.extend int_le_long⟩

def narrow (index : Index3 64) : Except Refusal (Index3 32) := do
  let x ← Layout.narrow index.x
  let y ← Layout.narrow index.y
  let z ← Layout.narrow index.z
  return ⟨x, y, z⟩

end Index3

end KernelIR.Layout
