import RemoteRecords.Text.Integer

/-!
# Decimal digits read back

What is written in decimal is read as the number it was written from, by each of
the readers and within each bound.

* `ofDigits_decimal`: the digits of a number spell it;
* `head?_decimal`: they have no leading zero;
* `readUInt64_decimal`, `readInt64_decimalInt`: the readers of 64 bits undo writing;
* `decimalInt_inj`: integers with the same text are equal.
-/

namespace RemoteRecords.Text

theorem ofDigitsAfter_eq (n : Nat) (s : List Char) : ofDigitsAfter n s = Nat.ofDigitChars 10 s n := by
  simp only [ofDigitsAfter, Nat.ofDigitChars, Nat.mul_comm 10]

theorem ofDigits_decimal (n : Nat) : ofDigits (decimal n) = n := by
  rw [ofDigits, ofDigitsAfter_eq]
  exact Nat.ofDigitChars_ten_toDigits

theorem isDigit_of_mem_decimal {n : Nat} {c : Char} (h : c ∈ decimal n) : c.isDigit = true :=
  Nat.isDigit_of_mem_toDigits (by decide) (by decide) h

theorem decimal_ne_nil (n : Nat) : decimal n ≠ [] := Nat.toDigits_ne_nil

theorem decimal_inj {m n : Nat} (h : decimal m = decimal n) : m = n := by
  rw [← ofDigits_decimal m, h, ofDigits_decimal]

theorem decimal_of_lt {n : Nat} (h : n < 10) : decimal n = [n.digitChar] :=
  Nat.toDigits_of_lt_base h

theorem decimal_of_ge {n : Nat} (h : 10 ≤ n) : decimal n = decimal (n / 10) ++ [(n % 10).digitChar] :=
  Nat.toDigits_of_base_le (by decide) h

/-- Only zero is written with a zero in front. -/
theorem head?_decimal {n : Nat} (h : n ≠ 0) : (decimal n).head? ≠ some '0' := by
  induction n using Nat.strongRecOn with
  | ind n ih =>
    by_cases hn : n < 10
    · rw [decimal_of_lt hn]
      have := (by decide : ∀ m < 10, m ≠ 0 → [m.digitChar].head? ≠ some '0')
      exact this n hn h
    · have hq := ih (n / 10) (by omega) (by omega)
      cases e : decimal (n / 10) with
      | nil => exact absurd e (decimal_ne_nil _)
      | cons c rest =>
        rw [decimal_of_ge (by omega), e]
        rwa [e] at hq

theorem head?_decimal_of_length {n : Nat} (h : 1 < (decimal n).length) :
    (decimal n).head? ≠ some '0' := by
  refine head?_decimal ?_
  rintro rfl
  revert h
  decide

/-! ## Reading within a bound -/

theorem digit?_of_isDigit {c : Char} (h : c.isDigit = true) :
    digit? c = some (c.toNat - '0'.toNat) := by
  simp [digit?, h]

theorem ofDigitsAfter_cons (n : Nat) (c : Char) (s : List Char) :
    ofDigitsAfter n (c :: s) = ofDigitsAfter (n * 10 + (c.toNat - '0'.toNat)) s := by
  simp only [ofDigitsAfter, List.foldl_cons]

theorem le_ofDigitsAfter (n : Nat) (s : List Char) : n ≤ ofDigitsAfter n s := by
  induction s generalizing n with
  | nil => exact Nat.le_refl n
  | cons c rest ih =>
    have := ih (n * 10 + (c.toNat - '0'.toNat))
    rw [ofDigitsAfter_cons]
    omega

/-- Digits are read in full if what they spell is within the bound. -/
theorem readDigits_of_digits {bound n : Nat} {s : List Char} (hs : ∀ c ∈ s, c.isDigit = true)
    (h : ofDigitsAfter n s ≤ bound) : readDigits bound n s = .ok (ofDigitsAfter n s) := by
  induction s generalizing n with
  | nil => rfl
  | cons c rest ih =>
    rw [ofDigitsAfter_cons] at h ⊢
    have hn := le_ofDigitsAfter (n * 10 + (c.toNat - '0'.toNat)) rest
    rw [readDigits, digit?_of_isDigit (hs c List.mem_cons_self)]
    simp only [show n * 10 + (c.toNat - '0'.toNat) ≤ bound by omega, ite_true]
    exact ih (fun d hd => hs d (List.mem_cons_of_mem _ hd)) h

theorem readDigits_decimal {bound n : Nat} (h : n ≤ bound) :
    readDigits bound 0 (decimal n) = .ok n := by
  have e : ofDigitsAfter 0 (decimal n) = n := ofDigits_decimal n
  rw [readDigits_of_digits (fun _ => isDigit_of_mem_decimal) (by rwa [e]), e]

theorem readMagnitude_decimal {bound n : Nat} (h : n ≤ bound) :
    readMagnitude bound (decimal n) = .ok n := by
  unfold readMagnitude
  split
  · next e => exact absurd e (decimal_ne_nil n)
  · exact readDigits_decimal h

theorem decimal_ne_cons {n : Nat} {c : Char} (hc : c.isDigit = false) (s : List Char) :
    decimal n ≠ c :: s := by
  intro e
  have := isDigit_of_mem_decimal (n := n) (c := c) (by simp [e])
  simp [hc] at this

theorem readNat_decimal {bound n : Nat} (h : n ≤ bound) : readNat bound (decimal n) = .ok n := by
  unfold readNat
  split
  · next e => exact absurd e (decimal_ne_nil n)
  · next e => exact absurd e (decimal_ne_cons (by decide) _)
  · exact readDigits_decimal h

theorem readUInt64_decimal {n : Nat} (h : n < UInt64.size) :
    readUInt64 (decimal n) = .ok (UInt64.ofNat n) := by
  rw [readUInt64, readNat_decimal (by omega)]
  rfl

theorem readInt64_decimal {n : Nat} (h : (n : Int) ≤ Int64.maxValue.toInt) :
    readInt64 (decimal n) = .ok (Int64.ofInt n) := by
  unfold readInt64
  split
  · next e => exact absurd e (decimal_ne_nil n)
  · next e => exact absurd e (decimal_ne_cons (by decide) _)
  · next e => exact absurd e (decimal_ne_cons (by decide) _)
  · rw [readDigits_decimal (by omega)]
    rfl

theorem readInt64_decimalInt (n : Int64) : readInt64 (decimalInt n.toInt) = .ok n := by
  have hl := n.minValue_le_toInt
  have hu := n.toInt_le
  cases h : n.toInt with
  | ofNat k =>
    rw [h] at hu
    rw [decimalInt, readInt64_decimal hu, ← Int64.ofInt_toInt n, h]
    rfl
  | negSucc k =>
    rw [h] at hl
    rw [decimalInt, readInt64, readMagnitude_decimal (by omega), ← Int64.ofInt_toInt n, h]
    rfl

theorem decimalInt_of_nonneg {n : Int} (h : 0 ≤ n) : decimalInt n = decimal n.toNat := by
  obtain ⟨k, rfl⟩ := Int.eq_ofNat_of_zero_le h
  rfl

theorem isDigit_or_of_mem_decimalInt {c : Char} {n : Int} (h : c ∈ decimalInt n) :
    c.isDigit = true ∨ c = '-' := by
  cases n with
  | ofNat k => exact .inl (isDigit_of_mem_decimal h)
  | negSucc k =>
    rcases List.mem_cons.mp h with rfl | hm
    · exact .inr rfl
    · exact .inl (isDigit_of_mem_decimal hm)

theorem not_mem_decimalInt {c : Char} (hd : c.isDigit = false) (hm : c ≠ '-') (n : Int) :
    c ∉ decimalInt n := by
  intro h
  rcases isDigit_or_of_mem_decimalInt h with h | h
  · rw [hd] at h
    exact Bool.false_ne_true h
  · exact hm h

theorem decimalInt_inj {m n : Int} (h : decimalInt m = decimalInt n) : m = n := by
  cases m with
  | ofNat k =>
    cases n with
    | ofNat l => rw [decimal_inj h]
    | negSucc l => exact absurd h (decimal_ne_cons (by decide) _)
  | negSucc k =>
    cases n with
    | ofNat l => exact absurd h.symm (decimal_ne_cons (by decide) _)
    | negSucc l =>
      have := decimal_inj (List.cons.inj h).2
      rw [show k = l by omega]

end RemoteRecords.Text
