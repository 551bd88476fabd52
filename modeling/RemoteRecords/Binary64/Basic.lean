/-!
# Doubles as exact numbers

A finite double of 64 bits as its sign, an integer below `2 ^ 53` and a power of
two, so that it has one form and an exact value; the doubles that are no number
stand beside it. Arithmetic takes the exact result, a quotient of natural
numbers, to the nearest double.

* `Finite.nearest?`: the double nearest to a quotient, of two the even one;
  none when the quotient is too large;
* `Finite.mul?`, `Finite.div?`: the product and the quotient of doubles;
* `ofBits`, `ofBits32`: the double with given bits, of either width;
* `roundHalfEven_mul`: an integer is its own rounding.
-/

namespace RemoteRecords.Binary64

/-- The pairs of an integer and an exponent in use: all 53 bits are used unless
the exponent is the least one. -/
def Canonical (m : Nat) (e : Int) : Prop :=
  m < Nat.pow 2 53 ∧ -1074 ≤ e ∧ e ≤ 971 ∧ (Nat.pow 2 52 ≤ m ∨ e = -1074)

instance (m : Nat) (e : Int) : Decidable (Canonical m e) := by
  unfold Canonical; infer_instance

/-- The finite double with the magnitude `mantissa * 2 ^ exponent`. -/
structure Finite where
  negative : Bool
  mantissa : Nat
  exponent : Int
  canonical : Canonical mantissa exponent
deriving DecidableEq, Repr

end RemoteRecords.Binary64

namespace RemoteRecords

/-- A double of 64 bits. -/
inductive Binary64
  | finite (x : Binary64.Finite)
  | infinite (negative : Bool)
  | nan
deriving DecidableEq, Repr

namespace Binary64

/-! ## Rounding a quotient -/

/-- The integer nearest to `num / den`; a half goes to the even neighbour. -/
def roundHalfEven (num den : Nat) : Nat :=
  let q := num / den
  let twice := 2 * (num % den)
  if twice < den then q else if den < twice then q + 1 else q + q % 2

/-- Whether `2 ^ k` is at most `num / den`. -/
def reachesTwoPow (num den : Nat) (k : Int) : Bool :=
  den * Nat.pow 2 k.toNat ≤ num * Nat.pow 2 (-k).toNat

/-- The exponent of the last of the 53 bits of `num / den`, at least the least
exponent of a double. -/
def lastBit (num den : Nat) : Int :=
  let k : Int := Int.ofNat num.log2 - Int.ofNat den.log2
  max (-1074) (if reachesTwoPow num den k then k - 52 else k - 53)

namespace Finite

/-- Zero of either sign. -/
def zero (negative : Bool) : Finite :=
  ⟨negative, 0, -1074, by decide⟩

/-- The double `m * 2 ^ e`, if the pair is in use. -/
def ofScaled? (negative : Bool) (m : Nat) (e : Int) : Option Finite :=
  if h : Canonical m e then some ⟨negative, m, e, h⟩ else none

/-- The double nearest to `num / den`, of two the one with an even integer; none
if no double is that large. -/
def nearest? (negative : Bool) (num den : Nat) : Option Finite :=
  if num = 0 then some (zero negative)
  else
    let e := lastBit num den
    let m := roundHalfEven (num * Nat.pow 2 (-e).toNat) (den * Nat.pow 2 e.toNat)
    if m = Nat.pow 2 53 then ofScaled? negative (Nat.pow 2 52) (e + 1) else ofScaled? negative m e

/-- The numerator of the magnitude. -/
def num (x : Finite) : Nat :=
  x.mantissa * Nat.pow 2 x.exponent.toNat

/-- The denominator of the magnitude, a power of two. -/
def den (x : Finite) : Nat :=
  Nat.pow 2 (-x.exponent).toNat

/-- Whether the double is zero, of either sign. -/
def isZero (x : Finite) : Bool :=
  x.mantissa == 0

/-- The double with the given sign and the magnitude of `x`. -/
def withSign (negative : Bool) (x : Finite) : Finite :=
  { x with negative }

/-- The product to the nearest double. -/
def mul? (x y : Finite) : Option Finite :=
  nearest? (x.negative != y.negative) (x.num * y.num) (x.den * y.den)

/-- The quotient to the nearest double; `y` is not zero. -/
def div? (x y : Finite) : Option Finite :=
  nearest? (x.negative != y.negative) (x.num * y.den) (x.den * y.num)

/-- A natural number to the nearest double. -/
def ofNat? (n : Nat) : Option Finite :=
  nearest? false n 1

end Finite

/-! ## Doubles from bits -/

theorem canonical_subnormal {fraction : Nat} (h : fraction < Nat.pow 2 52) :
    Canonical fraction (-1074) := by
  have h53 : Nat.pow 2 52 ≤ Nat.pow 2 53 := by decide
  exact ⟨Nat.lt_of_lt_of_le h h53, by decide, by decide, .inr rfl⟩

theorem canonical_normal {fraction biased : Nat} (h : fraction < Nat.pow 2 52) (h0 : biased ≠ 0)
    (h1 : biased < 2047) : Canonical (fraction + Nat.pow 2 52) ((biased : Int) - 1075) := by
  simp only [Canonical, Nat.pow_eq] at *
  omega

/-- The double with the given 64 bits: a sign, 11 bits of exponent and 52 of fraction. -/
def ofBits (bits : UInt64) : Binary64 :=
  let negative := Nat.pow 2 63 ≤ bits.toNat
  let biased : Nat := bits.toNat / Nat.pow 2 52 % Nat.pow 2 11
  let fraction : Nat := bits.toNat % Nat.pow 2 52
  have hf : fraction < Nat.pow 2 52 := Nat.mod_lt _ (by decide)
  if h0 : biased = 0 then .finite ⟨negative, fraction, -1074, canonical_subnormal hf⟩
  else if h1 : biased < 2047 then
    .finite ⟨negative, fraction + Nat.pow 2 52, (biased : Int) - 1075, canonical_normal hf h0 h1⟩
  else if fraction = 0 then .infinite negative
  else .nan

/-- The double equal to the number with the given 32 bits: a sign, 8 bits of
exponent and 23 of fraction. -/
def ofBits32 (bits : UInt32) : Binary64 :=
  let negative := Nat.pow 2 31 ≤ bits.toNat
  let biased : Nat := bits.toNat / Nat.pow 2 23 % Nat.pow 2 8
  let fraction : Nat := bits.toNat % Nat.pow 2 23
  if biased = 255 then if fraction = 0 then .infinite negative else .nan
  else
    let m := if biased = 0 then fraction else fraction + Nat.pow 2 23
    let e : Int := if biased = 0 then -149 else (biased : Int) - 150
    match Finite.nearest? negative (m * Nat.pow 2 e.toNat) (Nat.pow 2 (-e).toNat) with
    | some x => .finite x
    | none => .infinite negative

theorem roundHalfEven_mul (n : Nat) {den : Nat} (h : 0 < den) :
    roundHalfEven (n * den) den = n := by
  simp [roundHalfEven, Nat.mul_div_cancel n h, h]

end RemoteRecords.Binary64
