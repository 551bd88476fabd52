import RemoteRecords.Binary64.Decimal

/-!
# The shortest decimal of a double

A decimal reads back as a double if the double is the nearest one to it: it lies
in the interval between the halfway points to the two neighbours, whose ends
belong to it when the integer of the double is even. The shortest such decimal
is sought on the grids of 1 to 17 digits. On each grid only the two points
around the double can lie in the interval, and if both do the nearer one is
taken.

* `Finite.readsBack`: whether a decimal reads back as a double;
* `Finite.shortest`: the shortest decimal that does.
-/

namespace RemoteRecords

/-- Which of two decimals is taken when the double lies halfway between them. -/
inductive Tie
  | upper
  | even
deriving DecidableEq, Repr

namespace Binary64

/-- Whether `10 ^ k` is at most `num / den`. -/
def reachesTenPow (num den : Nat) (k : Int) : Bool :=
  den * Nat.pow 10 k.toNat ≤ num * Nat.pow 10 (-k).toNat

/-- The `k` with `10 ^ k ≤ num / den < 10 ^ (k + 1)`. The logarithm to the base
two gives it up to one. -/
def decimalExponent (num den : Nat) : Int :=
  let k := (Int.ofNat num.log2 - Int.ofNat den.log2) * 30103 / 100000
  if reachesTenPow num den (k + 1) then k + 1 else if reachesTenPow num den k then k else k - 1

namespace Finite

/-- The lower halfway point, in quarters of the unit of the last bit. Below a
power of two the neighbour is only half as far away. -/
def lowerEnd (x : Finite) : Nat :=
  if x.mantissa = Nat.pow 2 52 ∧ x.exponent ≠ -1074 then 4 * x.mantissa - 1 else 4 * x.mantissa - 2

/-- The upper halfway point, in quarters of the unit of the last bit. -/
def upperEnd (x : Finite) : Nat :=
  4 * x.mantissa + 2

/-- Whether the double nearest to `d` is `x`, up to the sign. -/
def readsBack (x : Finite) (d : Decimal) : Bool :=
  let point := d.digits * Nat.pow 10 d.exponent.toNat * Nat.pow 2 (2 - x.exponent).toNat
  let unit := Nat.pow 2 (x.exponent - 2).toNat * Nat.pow 10 (-d.exponent).toNat
  if x.mantissa % 2 = 0 then x.lowerEnd * unit ≤ point && point ≤ x.upperEnd * unit
  else x.lowerEnd * unit < point && point < x.upperEnd * unit

/-- The decimals around `x` on the grid of `n` digits, the nearer one first. -/
def neighbours (tie : Tie) (x : Finite) (n : Nat) : Decimal × Decimal :=
  let e := decimalExponent x.num x.den + 1 - n
  let num := x.num * Nat.pow 10 (-e).toNat
  let den := x.den * Nat.pow 10 e.toNat
  let q := num / den
  let twice := 2 * (num % den)
  let upperFirst := den < twice ∨ (twice = den ∧ (tie = .upper ∨ q % 2 = 1))
  if upperFirst then (⟨q + 1, e⟩, ⟨q, e⟩) else (⟨q, e⟩, ⟨q + 1, e⟩)

/-- The decimal of `n` digits nearest to `x` of those that read back. -/
def onGrid (tie : Tie) (x : Finite) (n : Nat) : Option Decimal :=
  let (nearer, other) := x.neighbours tie n
  if x.readsBack nearer then some nearer else if x.readsBack other then some other else none

/-- The shortest decimal that reads back as `x`, which is not zero. Seventeen
digits always suffice. -/
def shortest (tie : Tie) (x : Finite) : Decimal :=
  let found := (List.range' 1 17).findSome? (x.onGrid tie)
  (found.getD (x.neighbours tie 17).1).dropZeros 17

end Finite

end Binary64

end RemoteRecords
