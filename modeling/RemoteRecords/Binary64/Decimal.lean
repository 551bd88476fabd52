import RemoteRecords.Binary64.Basic

/-!
# Decimals and the doubles nearest to them

A decimal is a natural number times a power of ten. Any decimal has a nearest
double unless it is too large; its size is judged by its leading digit first, so
that no power of ten far out of range is ever computed.

* `Decimal.toDouble?`: the nearest double; none beyond the largest one;
* `Decimal.exists_dropZeros`: without the zeros at its end a decimal is the same number.
-/

namespace RemoteRecords

/-- The number `digits * 10 ^ exponent`. -/
structure Decimal where
  digits : Nat
  exponent : Int
deriving DecidableEq, Repr

namespace Decimal

/-- Drops up to `n` zeros from the end of the digits. -/
def dropZeros : Nat → Decimal → Decimal
  | 0, d => d
  | n + 1, d => if d.digits % 10 = 0 then dropZeros n ⟨d.digits / 10, d.exponent + 1⟩ else d

/-- The power of ten above the leading digit. -/
def order (d : Decimal) : Int :=
  (Nat.toDigits 10 d.digits).length + d.exponent

/-- The nearest double, of two the one with an even integer. All doubles but
zero lie between `10 ^ -324` and `10 ^ 309`. -/
def toDouble? (negative : Bool) (d : Decimal) : Option Binary64.Finite :=
  if d.digits = 0 ∨ d.order < -324 then some (.zero negative)
  else if 309 < d.order then none
  else
    Binary64.Finite.nearest? negative (d.digits * Nat.pow 10 d.exponent.toNat)
      (Nat.pow 10 (-d.exponent).toNat)

/-- What is dropped from the digits is added to the power of ten. -/
theorem exists_dropZeros (d : Decimal) (n : Nat) :
    ∃ k : Nat, d.digits = (d.dropZeros n).digits * Nat.pow 10 k ∧
      (d.dropZeros n).exponent = d.exponent + k := by
  induction n generalizing d with
  | zero => exact ⟨0, (Nat.mul_one _).symm, (Int.add_zero _).symm⟩
  | succ n ih =>
    simp only [dropZeros]
    split
    · next hzero =>
      obtain ⟨k, hdigits, hexponent⟩ := ih ⟨d.digits / 10, d.exponent + 1⟩
      refine ⟨k + 1, ?_, ?_⟩
      · have hpow : Nat.pow 10 (k + 1) = Nat.pow 10 k * 10 := rfl
        rw [hpow, ← Nat.mul_assoc, ← hdigits, Nat.div_mul_cancel (Nat.dvd_of_mod_eq_zero hzero)]
      · show _ = d.exponent + (k + 1 : Nat)
        have hsum : d.exponent + 1 + (k : Int) = d.exponent + (k + 1 : Nat) := by omega
        exact hexponent.trans hsum
    · exact ⟨0, (Nat.mul_one _).symm, (Int.add_zero _).symm⟩

end Decimal

end RemoteRecords
