import RemoteRecords.Binary64.Layout

/-!
# Numbers of JSON

A numeral is the spelling of a number, cut into its parts. One without fraction
and exponent is an integer if it fits 64 bits, signed or unsigned; every other
numeral stands for a double. Its digits are gathered in 64 bits for as long as
they fit, and what they make up is multiplied or divided once by a power of ten,
each step rounded to the nearest double. The result is not always the double
nearest to the numeral, and it is part of the format that it is this one.

* `Numeral.read`: the grammar of a numeral;
* `Number.ofNumeral?`: its value; none when it is too large for a double;
* `Number.int64?`: the value of an integer that fits 64 bits with a sign.
-/

namespace RemoteRecords.Json

/-! ## Spelling -/

/-- The parts of a number as it is written. -/
structure Numeral where
  negative : Bool
  /-- The digits before the point. -/
  whole : List Char
  /-- The digits after the point; none without a point. -/
  fraction : List Char
  /-- Whether the exponent is negative, and its digits. -/
  exponent : Option (Bool × List Char)
deriving DecidableEq, Repr

namespace Numeral

/-- Reads the exponent, with which a numeral ends. -/
def readExponent : List Char → Option (Option (Bool × List Char))
  | [] => some none
  | mark :: rest =>
    if mark = 'e' ∨ mark = 'E' then
      let (negative, digits) := match rest with
        | '-' :: digits => (true, digits)
        | '+' :: digits => (false, digits)
        | digits => (false, digits)
      if digits ≠ [] ∧ digits.all Char.isDigit then some (some (negative, digits)) else none
    else none

/-- Reads the point and the digits after it, and what follows. -/
def readFraction : List Char → Option (List Char × Option (Bool × List Char))
  | '.' :: rest =>
    match rest.takeWhile Char.isDigit with
    | [] => none
    | digits => (readExponent (rest.dropWhile Char.isDigit)).map (digits, ·)
  | rest => (readExponent rest).map ([], ·)

/-- Reads the digits before the point, of which the first is no zero unless it
is the only one, and what follows. -/
def readUnsigned (negative : Bool) (s : List Char) : Option Numeral :=
  let whole := s.takeWhile Char.isDigit
  if whole = [] ∨ (1 < whole.length ∧ whole.head? = some '0') then none
  else (readFraction (s.dropWhile Char.isDigit)).map fun (fraction, exponent) =>
    ⟨negative, whole, fraction, exponent⟩

/-- Reads a whole text as a numeral. -/
def read : List Char → Option Numeral
  | '-' :: rest => readUnsigned true rest
  | s => readUnsigned false s

/-- Takes up digits after the number `n` for as long as the result is below
`2 ^ 64`; gives the result and how many digits are left over. -/
def gather (n : Nat) : List Char → Nat × Nat
  | [] => (n, 0)
  | c :: rest =>
    let next := n * 10 + (c.toNat - '0'.toNat)
    if next < UInt64.size then gather next rest else (n, rest.length + 1)

/-- The exponent as an integer. -/
def exponentValue : Option (Bool × List Char) → Int
  | none => 0
  | some (negative, digits) => if negative then -(Text.ofDigits digits) else Text.ofDigits digits

/-- The digits gathered before and after the point, and the power of ten with
which they are to be multiplied. -/
def scaled (n : Numeral) : Nat × Int :=
  let (whole, excess) := gather 0 n.whole
  let (all, unused) := gather whole n.fraction
  (all, excess - (n.fraction.length - unused : Nat) + exponentValue n.exponent)

end Numeral

/-! ## Value -/

/-- A number of JSON. -/
inductive Number
  | integer (n : Int) (inRange : Int64.minValue.toInt ≤ n ∧ n < UInt64.size)
  | double (x : Binary64.Finite)
deriving DecidableEq

/-- `s * 10 ^ e` in doubles: one product or one quotient, and a second quotient
if the power of ten is too large for a double. -/
def scale? (s : Nat) (e : Int) : Option Binary64.Finite := do
  let f ← Binary64.Finite.ofNat? s
  let down := (-e).toNat
  if f.isZero then some f
  else if 308 < e then none
  else if 0 ≤ e then f.mul? (← Binary64.Finite.ofNat? (Nat.pow 10 e.toNat))
  else if down ≤ 308 then f.div? (← Binary64.Finite.ofNat? (Nat.pow 10 down))
  else if down ≤ 616 then
    let g ← f.div? (← Binary64.Finite.ofNat? (Nat.pow 10 308))
    g.div? (← Binary64.Finite.ofNat? (Nat.pow 10 (down - 308)))
  else some (.zero false)

namespace Number

/-- Doubles have their point in place from `0.00001` up to `10 ^ 16`, an
exponent always has a sign, and of two equally near decimals the even one is
written. -/
def layout : DecimalLayout where
  least := -5
  beyond := 16
  plus := true
  tie := .even

/-- The double that a numeral stands for. -/
def doubleOf? (n : Numeral) : Option Number :=
  let (s, e) := n.scaled
  (scale? s e).map fun x => double (x.withSign n.negative)

/-- The integer, if it fits 64 bits. -/
def integer? (n : Int) : Option Number :=
  if h : Int64.minValue.toInt ≤ n ∧ n < UInt64.size then some (integer n h) else none

/-- The value of a numeral. Minus zero is a double, as are integers beyond 64
bits. -/
def ofNumeral? (n : Numeral) : Option Number :=
  let magnitude := Text.ofDigits n.whole
  if n.fraction = [] ∧ n.exponent = none ∧ ¬(n.negative ∧ magnitude = 0) then
    (integer? (if n.negative then -magnitude else magnitude)).orElse fun _ => doubleOf? n
  else doubleOf? n

/-- The text of a number. -/
def text : Number → List Char
  | integer n _ => Text.decimalInt n
  | double x => layout.write x

/-- The value of an integer of 64 bits with a sign. -/
def int64? : Number → Option Int64
  | integer n _ => if n ≤ Int64.maxValue.toInt then some (Int64.ofInt n) else none
  | double _ => none

end Number

end RemoteRecords.Json
