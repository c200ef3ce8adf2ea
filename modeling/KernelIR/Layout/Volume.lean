import KernelIR.Layout.Index
import KernelIR.Layout.Pitch
import KernelIR.Layout.Strided

/-!
Layouts of three dimensions. The dense families make rows of elements and planes of rows; they
differ in which axis is contiguous and which one counts the planes.
-/

set_option autoImplicit false

namespace KernelIR.Layout

inductive Volume where
  /-- `x` is contiguous, `y` counts rows and `z` planes. -/
  | alongX (row plane : Signed 32)
  /-- `z` is contiguous, `y` counts rows and `x` planes. -/
  | alongZ (row plane : Signed 32)
  | strided (x y z : Signed 32)
deriving DecidableEq

namespace Volume

def family : Volume → String
  | .alongX _ _ => "DenseXY"
  | .alongZ _ _ => "DenseZY"
  | .strided _ _ _ => "General3D"

def checked : Volume → Except Fault Volume
  | .alongX row plane =>
      if row.val < 1 then .error (.pitchNotPositive "DenseXY" .y row.val)
      else if plane.val < row.val then
        .error (.planeBelowRow "DenseXY" .z plane.val .y row.val)
      else .ok (.alongX row plane)
  | .alongZ row plane =>
      if row.val < 1 then .error (.pitchNotPositive "DenseZY" .y row.val)
      else if plane.val < row.val then
        .error (.planeBelowRow "DenseZY" .x plane.val .y row.val)
      else .ok (.alongZ row plane)
  | .strided x y z =>
      if 1 ≤ x.val ∧ 1 ≤ y.val ∧ 1 ≤ z.val then .ok (.strided x y z)
      else .error (.stridesNotPositive [x.val, y.val, z.val])

/-- Planes of `rows` rows without a gap between them. -/
def packedPlane (row rows : Signed 32) : Except Refusal (Signed 32) :=
  narrow (row.mulLong rows.atLeastOne)

def packedAlongX (extent : Index3 32) : Except Failure Volume := do
  let row := extent.x.atLeastOne
  let plane ← packedPlane row extent.y
  checked (.alongX row plane)

def packedAlongZ (extent : Index3 32) : Except Failure Volume := do
  let row := extent.z.atLeastOne
  let plane ← packedPlane row extent.y
  checked (.alongZ row plane)

def pitchedAlongX (extent : Index3 32) (alignment elementSize : Signed 64) :
    Except Failure Volume := do
  let pitch ← pitchedLength (extent.x.extend int_le_long) alignment elementSize
  let pitch ← narrow pitch
  let row := pitch.atLeastOne
  let plane ← packedPlane row extent.y
  checked (.alongX row plane)

def pitchedAlongZ (extent : Index3 32) (alignment elementSize : Signed 64) :
    Except Failure Volume := do
  let pitch ← pitchedLength (extent.z.extend int_le_long) alignment elementSize
  let pitch ← narrow pitch
  let row := pitch.atLeastOne
  let plane ← packedPlane row extent.y
  checked (.alongZ row plane)

def isDense : Volume → Bool
  | .strided _ _ _ => false
  | _ => true

def freeStrides : Volume → List (Signed 32)
  | .alongX row plane => [row, plane]
  | .alongZ row plane => [row, plane]
  | .strided x y z => [x, y, z]

def strides : Volume → Index3 32
  | .alongX row plane => ⟨⟨1, fits_one_int⟩, row, plane⟩
  | .alongZ row plane => ⟨plane, row, ⟨1, fits_one_int⟩⟩
  | .strided x y z => ⟨x, y, z⟩

/-- Position of an element in the buffer, in the width of the index. The terms are added in the
order of the axes, and a dense layout spends no multiplication on its contiguous axis. -/
def address {bits : Nat} (widths : 32 ≤ bits) (volume : Volume) (index : Index3 bits) :
    Except Overflow (Signed bits) :=
  match volume with
  | .alongX row plane => do
      let rows ← index.y.mul (row.extend widths)
      let inPlane ← index.x.add rows
      let planes ← index.z.mul (plane.extend widths)
      inPlane.add planes
  | .alongZ row plane => do
      let planes ← index.x.mul (plane.extend widths)
      let rows ← index.y.mul (row.extend widths)
      let rowStart ← planes.add rows
      rowStart.add index.z
  | .strided x y z => do
      let alongX ← index.x.mul (x.extend widths)
      let alongY ← index.y.mul (y.extend widths)
      let flat ← alongX.add alongY
      let alongZ ← index.z.mul (z.extend widths)
      flat.add alongZ

/-- Elements that a buffer of this extent needs. A row must fit between the beginnings of two, and
the rows of a plane between the beginnings of two planes. -/
def bufferLength (volume : Volume) (extent : Index3 32) : Except Fault (Signed 64) :=
  match volume with
  | .alongX row plane =>
      if row.val < extent.x.val then
        .error (.rowExceedsPitch extent.values .x extent.x.val .y row.val)
      else if plane.val < (extent.y.mulLong row).val then
        .error (.planeExceedsPitch extent.values (extent.y.mulLong row).val .z plane.val)
      else .ok (plane.mulLong extent.z)
  | .alongZ row plane =>
      if row.val < extent.z.val then
        .error (.rowExceedsPitch extent.values .z extent.z.val .y row.val)
      else if plane.val < (extent.y.mulLong row).val then
        .error (.planeExceedsPitch extent.values (extent.y.mulLong row).val .x plane.val)
      else .ok (plane.mulLong extent.x)
  | .strided x y z => do
      let length ← stridedLength [⟨x, extent.x⟩, ⟨y, extent.y⟩, ⟨z, extent.z⟩]
      return length

def toStrided : Volume → Except Fault Volume
  | .strided x y z => .ok (.strided x y z)
  | dense => checked (.strided dense.strides.x dense.strides.y dense.strides.z)

def text (volume : Volume) : String :=
  match volume with
  | .alongX row plane => volume.family ++ s!"(y: {row.val}, z: {plane.val})"
  | .alongZ row plane => volume.family ++ s!"(y: {row.val}, x: {plane.val})"
  | .strided x y z => volume.family ++ s!"(x: {x.val}, y: {y.val}, z: {z.val})"

end Volume

end KernelIR.Layout
