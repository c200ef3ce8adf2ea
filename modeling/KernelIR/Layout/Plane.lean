import KernelIR.Layout.Index
import KernelIR.Layout.Pitch
import KernelIR.Layout.Strided

/-!
Layouts of two dimensions. A dense layout has one contiguous axis and leaves free how far apart
its rows or columns are; a strided layout leaves both distances free.
-/

set_option autoImplicit false

namespace KernelIR.Layout

inductive Plane where
  /-- `x` is contiguous; rows begin `rowPitch` elements apart. -/
  | alongX (rowPitch : Signed 32)
  /-- `y` is contiguous; columns begin `columnPitch` elements apart. -/
  | alongY (columnPitch : Signed 32)
  | strided (x y : Signed 32)
deriving DecidableEq

namespace Plane

def family : Plane → String
  | .alongX _ => "DenseX"
  | .alongY _ => "DenseY"
  | .strided _ _ => "General2D"

/-- What a constructor accepts. Layouts from elsewhere may break it. -/
def checked : Plane → Except Fault Plane
  | .alongX pitch =>
      if 1 ≤ pitch.val then .ok (.alongX pitch)
      else .error (.pitchNotPositive "DenseX" .y pitch.val)
  | .alongY pitch =>
      if 1 ≤ pitch.val then .ok (.alongY pitch)
      else .error (.pitchNotPositive "DenseY" .x pitch.val)
  | .strided x y =>
      if 1 ≤ x.val ∧ 1 ≤ y.val then .ok (.strided x y)
      else .error (.stridesNotPositive [x.val, y.val])

def packedAlongX (extent : Index2 32) : Except Fault Plane :=
  checked (.alongX extent.x.atLeastOne)

def packedAlongY (extent : Index2 32) : Except Fault Plane :=
  checked (.alongY extent.y.atLeastOne)

def pitchedAlongX (extent : Index2 32) (alignment elementSize : Signed 64) :
    Except Failure Plane := do
  let pitch ← pitchedLength (extent.x.extend int_le_long) alignment elementSize
  let pitch ← narrow pitch
  checked (.alongX pitch.atLeastOne)

def pitchedAlongY (extent : Index2 32) (alignment elementSize : Signed 64) :
    Except Failure Plane := do
  let pitch ← pitchedLength (extent.y.extend int_le_long) alignment elementSize
  let pitch ← narrow pitch
  checked (.alongY pitch.atLeastOne)

def isDense : Plane → Bool
  | .strided _ _ => false
  | _ => true

def freeStrides : Plane → List (Signed 32)
  | .alongX pitch => [pitch]
  | .alongY pitch => [pitch]
  | .strided x y => [x, y]

def strides : Plane → Index2 32
  | .alongX pitch => ⟨⟨1, fits_one_int⟩, pitch⟩
  | .alongY pitch => ⟨pitch, ⟨1, fits_one_int⟩⟩
  | .strided x y => ⟨x, y⟩

/-- Position of an element in the buffer, in the width of the index. A dense layout spends no
multiplication on its contiguous axis, so fewer steps can leave the width. -/
def address {bits : Nat} (widths : 32 ≤ bits) (plane : Plane) (index : Index2 bits) :
    Except Overflow (Signed bits) :=
  match plane with
  | .alongX pitch => do
      let row ← index.y.mul (pitch.extend widths)
      index.x.add row
  | .alongY pitch => do
      let column ← index.x.mul (pitch.extend widths)
      column.add index.y
  | .strided x y => do
      let across ← index.x.mul (x.extend widths)
      let down ← index.y.mul (y.extend widths)
      across.add down

/-- Elements that a buffer of this extent needs. A row must fit between the beginnings of two. -/
def bufferLength (plane : Plane) (extent : Index2 32) : Except Fault (Signed 64) :=
  match plane with
  | .alongX pitch =>
      if extent.x.val ≤ pitch.val then .ok (pitch.mulLong extent.y)
      else .error (.rowExceedsPitch extent.values .x extent.x.val .y pitch.val)
  | .alongY pitch =>
      if extent.y.val ≤ pitch.val then .ok (pitch.mulLong extent.x)
      else .error (.rowExceedsPitch extent.values .y extent.y.val .x pitch.val)
  | .strided x y => do
      let length ← stridedLength [⟨x, extent.x⟩, ⟨y, extent.y⟩]
      return length

def toStrided : Plane → Except Fault Plane
  | .strided x y => .ok (.strided x y)
  | dense => checked (.strided dense.strides.x dense.strides.y)

def text (plane : Plane) : String :=
  match plane with
  | .alongX pitch => plane.family ++ s!"(y: {pitch.val})"
  | .alongY pitch => plane.family ++ s!"(x: {pitch.val})"
  | .strided x y => plane.family ++ s!"(x: {x.val}, y: {y.val})"

end Plane

end KernelIR.Layout
