import KernelIR.Layout.Plane
import KernelIR.Layout.Volume
import KernelIR.Document.Constant

/-!
Stored form of index tuples and layouts. A layout is stored by its free strides, under the name of
its family where any family may stand. Where the strides are named their order is free; a list has
them in the order in which they are written here.
-/

set_option autoImplicit false

namespace KernelIR.Layout

namespace Index2

def encode {bits : Nat} (index : Index2 bits) : Document :=
  .record [("x", index.x.encode), ("y", index.y.encode)]

end Index2

namespace Index3

def encode {bits : Nat} (index : Index3 bits) : Document :=
  .record [("x", index.x.encode), ("y", index.y.encode), ("z", index.z.encode)]

end Index3

def strides? (names : List String) (document : Document) : Option (List (Signed 32)) := do
  let strides ← document.fields? names
  strides.mapM (Signed.decode? 32)

namespace Plane

def encodeStrides : Plane → Document
  | .alongX pitch => .record [("y_stride", pitch.encode)]
  | .alongY pitch => .record [("x_stride", pitch.encode)]
  | .strided x y => .record [("x_stride", x.encode), ("y_stride", y.encode)]

def alternative : Plane → String
  | .alongX _ => "DenseX"
  | .alongY _ => "DenseY"
  | .strided _ _ => "General"

def encode (plane : Plane) : Document := Document.choice plane.alternative plane.encodeStrides

def decodeAlongX? (document : Document) : Option Plane :=
  match strides? ["y_stride"] document with
  | some [pitch] => some (.alongX pitch)
  | _ => none

def decodeAlongY? (document : Document) : Option Plane :=
  match strides? ["x_stride"] document with
  | some [pitch] => some (.alongY pitch)
  | _ => none

def decodeStrided? (document : Document) : Option Plane :=
  match strides? ["x_stride", "y_stride"] document with
  | some [x, y] => some (.strided x y)
  | _ => none

def decode? (document : Document) : Option Plane := do
  let choice ← document.choice?
  let content ← choice.content
  match choice.name with
  | "DenseX" => decodeAlongX? content
  | "DenseY" => decodeAlongY? content
  | "General" => decodeStrided? content
  | _ => none

end Plane

namespace Volume

def encodeStrides : Volume → Document
  | .alongX row plane => .record [("y_stride", row.encode), ("z_stride", plane.encode)]
  | .alongZ row plane => .record [("y_stride", row.encode), ("x_stride", plane.encode)]
  | .strided x y z =>
      .record [("x_stride", x.encode), ("y_stride", y.encode), ("z_stride", z.encode)]

def alternative : Volume → String
  | .alongX _ _ => "DenseXY"
  | .alongZ _ _ => "DenseZY"
  | .strided _ _ _ => "General"

def encode (volume : Volume) : Document :=
  Document.choice volume.alternative volume.encodeStrides

def decodeAlongX? (document : Document) : Option Volume :=
  match strides? ["y_stride", "z_stride"] document with
  | some [row, plane] => some (.alongX row plane)
  | _ => none

def decodeAlongZ? (document : Document) : Option Volume :=
  match strides? ["y_stride", "x_stride"] document with
  | some [row, plane] => some (.alongZ row plane)
  | _ => none

def decodeStrided? (document : Document) : Option Volume :=
  match strides? ["x_stride", "y_stride", "z_stride"] document with
  | some [x, y, z] => some (.strided x y z)
  | _ => none

def decode? (document : Document) : Option Volume := do
  let choice ← document.choice?
  let content ← choice.content
  match choice.name with
  | "DenseXY" => decodeAlongX? content
  | "DenseZY" => decodeAlongZ? content
  | "General" => decodeStrided? content
  | _ => none

end Volume

end KernelIR.Layout
