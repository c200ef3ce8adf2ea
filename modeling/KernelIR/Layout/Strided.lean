import KernelIR.Layout.Fault

/-!
Buffer length of a layout that is given by one stride per dimension and nothing else.
-/

set_option autoImplicit false

namespace KernelIR.Layout

structure Dimension where
  stride : Signed 32
  extent : Signed 32
deriving DecidableEq

def Dimension.span (dimension : Dimension) : Signed 64 :=
  dimension.stride.mulLong dimension.extent

def greatestSpan : List Dimension → Signed 64
  | [] => .zero
  | first :: rest => rest.foldl (fun best dimension => best.max dimension.span) first.span

/-- Address of the last element of a box without empty dimension, summed in order. -/
def lastAddress (dimensions : List Dimension) : Except Overflow (Signed 64) :=
  dimensions.foldlM
    (fun address dimension => do
      let step ← (dimension.stride.extend int_le_long).mul dimension.extent.predLong
      address.add step)
    .zero

/-- The greatest span; a box with elements also needs room for its last one. -/
def stridedLength (dimensions : List Dimension) : Except Overflow (Signed 64) :=
  if dimensions.any fun dimension => dimension.extent.val ≤ 0 then
    .ok (greatestSpan dimensions)
  else do
    let last ← lastAddress dimensions
    let past ← last.add ⟨1, fits_one_long⟩
    return (greatestSpan dimensions).max past

end KernelIR.Layout
