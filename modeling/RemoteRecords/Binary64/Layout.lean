import RemoteRecords.Binary64.Shortest
import RemoteRecords.Text.Integer

/-!
# The text of a double

A finite double is written with its shortest digits, either with a point in
place or as one digit before the point and a power of ten. A layout holds what
formats decide for themselves: between which powers of ten the point stays in
place, whether a positive exponent has a sign, and which way a tie goes.
-/

namespace RemoteRecords

/-- The decisions of a format on the text of doubles. -/
structure DecimalLayout where
  /-- The least power of ten of a leading digit that is written in place. -/
  least : Int
  /-- The first power of ten above those written in place. -/
  beyond : Int
  /-- Whether a positive exponent has a plus sign. -/
  plus : Bool
  /-- The choice between two decimals that are equally near. -/
  tie : Tie

/-- Digits times a power of ten with a point in place and at least one digit on
either side of it. -/
def positional (digits : List Char) (exponent : Int) : List Char :=
  match exponent with
  | .ofNat zeros => digits ++ List.replicate zeros '0' ++ ['.', '0']
  | .negSucc n =>
    let places := n + 1
    if places < digits.length then
      digits.take (digits.length - places) ++ '.' :: digits.drop (digits.length - places)
    else '0' :: '.' :: List.replicate (places - digits.length) '0' ++ digits

/-- Digits with a point after the first, if there are others, and the power of
ten of the first. -/
def scientific (plus : Bool) (digits : List Char) (leading : Int) : List Char :=
  let fraction := match digits.drop 1 with
    | [] => []
    | rest => '.' :: rest
  let sign := if plus ∧ 0 ≤ leading then ['+'] else []
  digits.take 1 ++ fraction ++ 'e' :: sign ++ Text.decimalInt leading

namespace DecimalLayout

/-- The text of a magnitude that is not zero. -/
def writeDecimal (layout : DecimalLayout) (d : Decimal) : List Char :=
  let digits := Text.decimal d.digits
  let leading := d.exponent + digits.length - 1
  if layout.least ≤ leading ∧ leading < layout.beyond then positional digits d.exponent
  else scientific layout.plus digits leading

/-- The text of a finite double. -/
def write (layout : DecimalLayout) (x : Binary64.Finite) : List Char :=
  let sign := if x.negative then ['-'] else []
  let magnitude :=
    if x.isZero then ['0', '.', '0'] else layout.writeDecimal (x.shortest layout.tie)
  sign ++ magnitude

end DecimalLayout

end RemoteRecords
