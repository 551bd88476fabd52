import Mathlib.Algebra.Group.Nat.Defs
import RemoteRecords.Binary64.Shortest

/-!
# The shortest decimal is not zero

A double that is not zero is never written as zero: a decimal that reads back as
it lies above the halfway point to zero, and the last resort of seventeen digits
is not zero either, since the estimate of the leading power of ten is off by far
less than seventeen places.

* `two_pow_le_ten_pow`, `ten_pow_le_two_pow`: powers of two and ten compared by
  their exponents;
* `Finite.digits_shortest_ne_zero`: the digits of a double that is not zero.
-/

namespace RemoteRecords.Binary64

/-! ## Powers of two and of ten -/

theorem two_pow_le_ten_pow {a b : Nat} (h : 28 * b ≤ 93 * a) : 2 ^ b ≤ 10 ^ a := by
  refine (Nat.pow_le_pow_iff_left (show 28 ≠ 0 by decide)).mp ?_
  calc (2 ^ b) ^ 28 = 2 ^ (28 * b) := by rw [← Nat.pow_mul, Nat.mul_comm]
    _ ≤ 2 ^ (93 * a) := Nat.pow_le_pow_right (by decide) h
    _ = (2 ^ 93) ^ a := Nat.pow_mul ..
    _ ≤ (10 ^ 28) ^ a := Nat.pow_le_pow_left (by decide) a
    _ = (10 ^ a) ^ 28 := by rw [← Nat.pow_mul, ← Nat.pow_mul, Nat.mul_comm]

theorem ten_pow_le_two_pow {a b : Nat} (h : 10 * a ≤ 3 * b) : 10 ^ a ≤ 2 ^ b := by
  refine (Nat.pow_le_pow_iff_left (show 3 ≠ 0 by decide)).mp ?_
  calc (10 ^ a) ^ 3 = (10 ^ 3) ^ a := by rw [← Nat.pow_mul, ← Nat.pow_mul, Nat.mul_comm]
    _ ≤ (2 ^ 10) ^ a := Nat.pow_le_pow_left (by decide) a
    _ = 2 ^ (10 * a) := (Nat.pow_mul ..).symm
    _ ≤ 2 ^ (3 * b) := Nat.pow_le_pow_right (by decide) h
    _ = (2 ^ b) ^ 3 := by rw [← Nat.pow_mul, Nat.mul_comm]

/-! ## The estimate of the leading power of ten -/

theorem reachesTenPow_mono {num den : Nat} {j k : Int} (hjk : j ≤ k)
    (h : reachesTenPow num den k = true) : reachesTenPow num den j = true := by
  simp only [reachesTenPow, decide_eq_true_eq] at h ⊢
  calc den * 10 ^ j.toNat ≤ den * 10 ^ k.toNat :=
        Nat.mul_le_mul_left _ (Nat.pow_le_pow_right (by decide) (by omega))
    _ ≤ num * 10 ^ (-k).toNat := h
    _ ≤ num * 10 ^ (-j).toNat :=
        Nat.mul_le_mul_left _ (Nat.pow_le_pow_right (by decide) (by omega))

/-- Seventeen places below the power of ten that the logarithms to the base two
suggest, the quotient is reached. -/
theorem reachesTenPow_of_log2 {num den : Nat} (hn : num ≠ 0)
    (hu : (num.log2 : Int) - den.log2 ≤ 1024) (hl : -1074 ≤ (num.log2 : Int) - den.log2) :
    reachesTenPow num den (((num.log2 : Int) - den.log2) * 30103 / 100000 - 17) = true := by
  have h1 : 2 ^ num.log2 ≤ num := Nat.log2_self_le hn
  have h2 : den ≤ 2 ^ (den.log2 + 1) := Nat.le_of_lt Nat.lt_log2_self
  generalize num.log2 = a at *
  generalize den.log2 = b at *
  generalize he : ((a : Int) - b) * 30103 / 100000 - 17 = e
  simp only [reachesTenPow, decide_eq_true_eq]
  have key : 2 ^ (b + 1) * 10 ^ e.toNat ≤ 2 ^ a * 10 ^ (-e).toNat := by
    rcases Int.le_total 0 e with h0 | h0
    · have hp : 10 ^ e.toNat ≤ 2 ^ (a - (b + 1)) := ten_pow_le_two_pow (by omega)
      calc 2 ^ (b + 1) * 10 ^ e.toNat ≤ 2 ^ (b + 1) * 2 ^ (a - (b + 1)) := Nat.mul_le_mul_left _ hp
        _ = 2 ^ a := by rw [← Nat.pow_add, show b + 1 + (a - (b + 1)) = a by omega]
        _ ≤ 2 ^ a * 10 ^ (-e).toNat := Nat.le_mul_of_pos_right _ (Nat.pow_pos (by decide))
    · have hp : 2 ^ (b + 1 - a) ≤ 10 ^ (-e).toNat := two_pow_le_ten_pow (by omega)
      rw [show e.toNat = 0 by omega, Nat.pow_zero, Nat.mul_one]
      calc 2 ^ (b + 1) ≤ 2 ^ (a + (b + 1 - a)) := Nat.pow_le_pow_right (by decide) (by omega)
        _ = 2 ^ a * 2 ^ (b + 1 - a) := Nat.pow_add ..
        _ ≤ 2 ^ a * 10 ^ (-e).toNat := Nat.mul_le_mul_left _ hp
  calc den * 10 ^ e.toNat ≤ 2 ^ (b + 1) * 10 ^ e.toNat := Nat.mul_le_mul_right _ h2
    _ ≤ 2 ^ a * 10 ^ (-e).toNat := key
    _ ≤ num * 10 ^ (-e).toNat := Nat.mul_le_mul_right _ h1

theorem reachesTenPow_decimalExponent {num den : Nat} (hn : num ≠ 0)
    (hu : (num.log2 : Int) - den.log2 ≤ 1024) (hl : -1074 ≤ (num.log2 : Int) - den.log2) :
    reachesTenPow num den (decimalExponent num den - 16) = true := by
  have h := reachesTenPow_of_log2 hn hu hl
  simp only [decimalExponent, Int.ofNat_eq_natCast]
  split
  · next h1 => exact reachesTenPow_mono (by omega) h1
  split
  · next h0 => exact reachesTenPow_mono (by omega) h0
  · exact reachesTenPow_mono (by omega) h

namespace Finite

theorem num_ne_zero {x : Finite} (h : x.mantissa ≠ 0) : x.num ≠ 0 :=
  Nat.mul_ne_zero h (Nat.ne_of_gt (Nat.two_pow_pos _))

theorem log2_num_le (x : Finite) : x.num.log2 ≤ 52 + x.exponent.toNat := by
  by_cases h : x.num = 0
  · simp [h]
  · refine Nat.le_of_lt_succ ((Nat.log2_lt h).mpr ?_)
    rw [num, show (52 + x.exponent.toNat).succ = 53 + x.exponent.toNat by omega, Nat.pow_add]
    exact Nat.mul_lt_mul_of_pos_right x.canonical.1 (Nat.pow_pos (by decide))

theorem log2_den (x : Finite) : x.den.log2 = (-x.exponent).toNat :=
  Nat.log2_two_pow

/-- The last resort has digits. -/
theorem digits_neighbours_ne_zero (tie : Tie) {x : Finite} (h : x.mantissa ≠ 0) :
    (x.neighbours tie 17).1.digits ≠ 0 := by
  obtain ⟨-, hlow, hhigh, -⟩ := x.canonical
  have hn := log2_num_le x
  have hd := log2_den x
  have hr : reachesTenPow x.num x.den _ = true :=
    reachesTenPow_decimalExponent (num_ne_zero h) (by omega) (by omega)
  simp only [reachesTenPow, decide_eq_true_eq] at hr
  have hq : 0 < x.num * 10 ^ (-(decimalExponent x.num x.den - 16)).toNat /
      (x.den * 10 ^ (decimalExponent x.num x.den - 16).toNat) :=
    Nat.div_pos hr (Nat.mul_pos (Nat.pow_pos (by decide)) (Nat.pow_pos (by decide)))
  have he : decimalExponent x.num x.den + 1 - (17 : Nat) = decimalExponent x.num x.den - 16 := by
    omega
  simp only [neighbours, he]
  split
  · exact Nat.succ_ne_zero _
  · exact Nat.ne_of_gt hq

/-- Zero reads back as nothing but zero. -/
theorem digits_ne_zero_of_readsBack {x : Finite} (h : x.mantissa ≠ 0) {d : Decimal}
    (hr : x.readsBack d = true) : d.digits ≠ 0 := by
  intro h0
  have hu : 0 < 2 ^ (x.exponent - 2).toNat * 10 ^ (-d.exponent).toNat :=
    Nat.mul_pos (Nat.pow_pos (by decide)) (Nat.pow_pos (by decide))
  have hl : 0 < x.lowerEnd := by
    simp only [lowerEnd]
    split <;> omega
  have := Nat.mul_pos hl hu
  simp only [readsBack, h0, Nat.zero_mul, Nat.pow_eq] at hr
  split at hr
  · simp only [Bool.and_eq_true, decide_eq_true_eq] at hr
    omega
  · simp at hr

theorem digits_ne_zero_of_onGrid {tie : Tie} {x : Finite} (h : x.mantissa ≠ 0) {n : Nat}
    {d : Decimal} (hd : x.onGrid tie n = some d) : d.digits ≠ 0 := by
  simp only [onGrid] at hd
  split at hd
  · next hr =>
    cases hd
    exact digits_ne_zero_of_readsBack h hr
  split at hd
  · next hr =>
    cases hd
    exact digits_ne_zero_of_readsBack h hr
  · cases hd

end Finite

end RemoteRecords.Binary64

namespace RemoteRecords

theorem Decimal.digits_dropZeros_ne_zero {d : Decimal} (h : d.digits ≠ 0) (n : Nat) :
    (d.dropZeros n).digits ≠ 0 := by
  obtain ⟨k, hdigits, -⟩ := d.exists_dropZeros n
  intro hzero
  rw [hzero, Nat.zero_mul] at hdigits
  exact h hdigits

/-- A double that is not zero has digits. -/
theorem Binary64.Finite.digits_shortest_ne_zero (tie : Tie) {x : Finite}
    (h : x.isZero = false) : (x.shortest tie).digits ≠ 0 := by
  have hm : x.mantissa ≠ 0 := by simpa [isZero] using h
  refine Decimal.digits_dropZeros_ne_zero ?_ 17
  cases hf : (List.range' 1 17).findSome? (x.onGrid tie) with
  | none => exact digits_neighbours_ne_zero tie hm
  | some d =>
    obtain ⟨n, -, hd⟩ := List.exists_of_findSome?_eq_some hf
    exact digits_ne_zero_of_onGrid hm hd

end RemoteRecords
