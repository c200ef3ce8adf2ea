import KernelIR.Decimal.Shortest

/-!
The text of a binary number: the shortest decimal that reads back, written out positionally with
as many zeros as it takes, never with an exponent, and without a point if the number is whole.
-/

set_option autoImplicit false

namespace KernelIR.Decimal

def zeros (count : Nat) : List Char := List.replicate count '0'

def Numeral.positional (decimal : Numeral) : String :=
  let digits := (toString decimal.digits).toList
  let places := (-decimal.power).toNat
  if decimal.power ≥ 0 then
    String.ofList (digits ++ zeros decimal.power.toNat)
  else if places < digits.length then
    String.ofList
      (digits.take (digits.length - places) ++ '.' :: digits.drop (digits.length - places))
  else
    String.ofList ('0' :: '.' :: zeros (places - digits.length) ++ digits)

def sign (negative : Bool) : String := if negative then "-" else ""

def Reading.text : Reading → String
  | .notANumber => "NaN"
  | .infinite negative => sign negative ++ "inf"
  | .zero negative => sign negative ++ "0"
  | .finite negative magnitude => sign negative ++ magnitude.shortest.positional

def BinaryFormat.text (format : BinaryFormat) (word : Nat) : String :=
  (format.read word).text

end KernelIR.Decimal
