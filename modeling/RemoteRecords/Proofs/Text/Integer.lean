import RemoteRecords.Proofs.Text.Cut
import RemoteRecords.Proofs.Text.Decimal

/-!
# The texts of an integer

An integer is read from one or more digits behind an optional sign, and from nothing
else. Zeros in front of the digits do not count, and neither does the sign of zero. Where
blanks may stand around an integer they are trimmed off before it is read.

* `SpellsInteger`, `SpellsPadded`: the texts of an integer, without blanks and with them;
* `readInt64_eq_ok_iff`, `readInt64_trim_eq_ok_iff`: what is read is what the text spells;
* `spellsPadded_decimalInt_iff`: the digits of an integer spell no other.
-/

namespace RemoteRecords.Text

/-! ## Digits -/

theorem isDigit_of_digit? {c : Char} {d : Nat} (h : digit? c = some d) :
    c.isDigit = true ∧ c.toNat - '0'.toNat = d := by
  unfold digit? at h
  split at h
  · next hc => exact ⟨hc, Option.some.inj h⟩
  · cases h

/-- Only digits are read in full. -/
theorem digits_of_readDigits {bound n k : Nat} {s : List Char}
    (h : readDigits bound n s = .ok k) :
    (∀ c ∈ s, c.isDigit = true) ∧ ofDigitsAfter n s = k := by
  induction s generalizing n with
  | nil => exact ⟨fun c hc => absurd hc List.not_mem_nil, Except.ok.inj h⟩
  | cons c rest ih =>
    rw [readDigits] at h
    cases hd : digit? c with
    | none =>
      rw [hd] at h
      cases h
    | some d =>
      obtain ⟨hc, rfl⟩ := isDigit_of_digit? hd
      simp only [hd] at h
      split at h
      · obtain ⟨hs, hk⟩ := ih h
        exact ⟨List.forall_mem_cons.mpr ⟨hc, hs⟩, by rw [ofDigitsAfter_cons, hk]⟩
      · cases h

theorem readDigits_eq_ok_iff {bound k : Nat} {s : List Char} :
    readDigits bound 0 s = .ok k ↔
      (∀ c ∈ s, c.isDigit = true) ∧ ofDigits s = k ∧ k ≤ bound := by
  constructor
  · intro h
    obtain ⟨hs, hk⟩ := digits_of_readDigits h
    exact ⟨hs, hk, readDigits_le (Nat.zero_le _) h⟩
  · rintro ⟨hs, rfl, hk⟩
    exact readDigits_of_digits hs hk

theorem readMagnitude_eq_ok_iff {bound k : Nat} {s : List Char} :
    readMagnitude bound s = .ok k ↔
      s ≠ [] ∧ (∀ c ∈ s, c.isDigit = true) ∧ ofDigits s = k ∧ k ≤ bound := by
  cases s with
  | nil => simp [readMagnitude]
  | cons c rest => simp only [readMagnitude, readDigits_eq_ok_iff, ne_eq, reduceCtorEq,
      not_false_eq_true, true_and]

/-! ## Integers -/

/-- The texts of an integer: digits, which may begin with zeros, behind an optional sign. -/
inductive SpellsInteger : List Char → Int → Prop
  | plain {s : List Char} (hn : s ≠ []) (hs : ∀ c ∈ s, c.isDigit = true) :
    SpellsInteger s (ofDigits s)
  | plus {s : List Char} (hn : s ≠ []) (hs : ∀ c ∈ s, c.isDigit = true) :
    SpellsInteger ('+' :: s) (ofDigits s)
  | minus {s : List Char} (hn : s ≠ []) (hs : ∀ c ∈ s, c.isDigit = true) :
    SpellsInteger ('-' :: s) (-ofDigits s)

/-- The texts of an integer with blanks before and behind it. -/
def SpellsPadded (s : List Char) (n : Int) : Prop :=
  ∃ before core after, s = before ++ core ++ after ∧ SpellsInteger core n ∧
    (∀ c ∈ before, isBlank c = true) ∧ ∀ c ∈ after, isBlank c = true

theorem exists_of_map_eq_ok {f : Int → Int64} {r : Except IntegerFault Nat} {n : Int64}
    (h : (r >>= fun k => pure (k : Int)).map f = .ok n) : ∃ k : Nat, r = .ok k ∧ f k = n := by
  cases r with
  | error e => cases h
  | ok k => exact ⟨k, rfl, Except.ok.inj h⟩

theorem toInt_ofInt_natCast {k : Nat} (h : k ≤ Int64.maxValue.toInt.toNat) :
    (Int64.ofInt k).toInt = k := by
  rw [Int64.toInt_maxValue] at h
  exact Int64.toInt_ofInt_of_le (by omega) (by omega)

theorem toInt_ofInt_neg_natCast {k : Nat} (h : k ≤ Int64.minValue.toInt.natAbs) :
    (Int64.ofInt (-k)).toInt = -k := by
  rw [Int64.toInt_minValue] at h
  exact Int64.toInt_ofInt_of_le (by omega) (by omega)

/-- An integer that is read is the one that the text spells. -/
theorem spellsInteger_of_readInt64 {s : List Char} {n : Int64} (h : readInt64 s = .ok n) :
    SpellsInteger s n.toInt := by
  unfold readInt64 at h
  split at h
  · cases h
  · obtain ⟨k, hk, rfl⟩ := exists_of_map_eq_ok h
    obtain ⟨hn, hs, rfl, hb⟩ := readMagnitude_eq_ok_iff.mp hk
    rw [toInt_ofInt_neg_natCast hb]
    exact .minus hn hs
  · obtain ⟨k, hk, rfl⟩ := exists_of_map_eq_ok h
    obtain ⟨hn, hs, rfl, hb⟩ := readMagnitude_eq_ok_iff.mp hk
    rw [toInt_ofInt_natCast hb]
    exact .plus hn hs
  · next hn _ _ =>
    obtain ⟨k, hk, rfl⟩ := exists_of_map_eq_ok h
    obtain ⟨hs, rfl, hb⟩ := readDigits_eq_ok_iff.mp hk
    rw [toInt_ofInt_natCast hb]
    exact .plain hn hs

/-- A text of an integer of 64 bits is read as that integer. -/
theorem readInt64_of_spellsInteger {s : List Char} {n : Int64} (h : SpellsInteger s n.toInt) :
    readInt64 s = .ok n := by
  have hl := n.minValue_le_toInt
  have hu := n.toInt_le
  have hofInt := n.ofInt_toInt
  generalize n.toInt = m at h hl hu hofInt
  subst hofInt
  cases h with
  | plain hn hs =>
    have hb : ofDigits s ≤ Int64.maxValue.toInt.toNat := by omega
    unfold readInt64
    split
    · exact absurd rfl hn
    · exact absurd (hs '-' List.mem_cons_self) (by decide)
    · exact absurd (hs '+' List.mem_cons_self) (by decide)
    · rw [readDigits_eq_ok_iff.mpr ⟨hs, rfl, hb⟩]
      rfl
  | plus hn hs =>
    rw [readInt64, readMagnitude_eq_ok_iff.mpr ⟨hn, hs, rfl, by omega⟩]
    rfl
  | minus hn hs =>
    rw [readInt64, readMagnitude_eq_ok_iff.mpr ⟨hn, hs, rfl, by omega⟩]
    rfl

theorem readInt64_eq_ok_iff {s : List Char} {n : Int64} :
    readInt64 s = .ok n ↔ SpellsInteger s n.toInt :=
  ⟨spellsInteger_of_readInt64, readInt64_of_spellsInteger⟩

/-! ## Between blanks -/

theorem isBlank_of_isDigit {c : Char} (h : c.isDigit = true) : isBlank c = false := by
  have hc : 48 ≤ c.toNat ∧ c.toNat ≤ 57 := by
    simpa [Char.isDigit, UInt32.le_iff_toNat_le] using h
  simp only [isBlank, Bool.or_eq_false_iff, Bool.and_eq_false_iff, decide_eq_false_iff_not,
    beq_eq_false_iff_ne]
  omega

theorem SpellsInteger.ne_nil {s : List Char} {n : Int} (h : SpellsInteger s n) : s ≠ [] := by
  cases h with
  | plain hn => exact hn
  | plus | minus => exact List.cons_ne_nil _ _

theorem SpellsInteger.isBlank_of_mem {s : List Char} {n : Int} (h : SpellsInteger s n) :
    ∀ c ∈ s, isBlank c = false := by
  cases h with
  | plain _ hs => exact fun c hc => isBlank_of_isDigit (hs c hc)
  | plus _ hs | minus _ hs =>
    exact List.forall_mem_cons.mpr ⟨rfl, fun c hc => isBlank_of_isDigit (hs c hc)⟩

theorem spellsPadded_iff_trim {s : List Char} {n : Int} :
    SpellsPadded s n ↔ SpellsInteger (trim s) n := by
  constructor
  · rintro ⟨before, core, after, rfl, h, hb, ha⟩
    rwa [trim_append hb ha h.ne_nil h.isBlank_of_mem]
  · intro h
    obtain ⟨before, after, hs, hb, ha⟩ := exists_trim s
    exact ⟨before, trim s, after, hs, h, hb, ha⟩

theorem readInt64_trim_eq_ok_iff {s : List Char} {n : Int64} :
    readInt64 (trim s) = .ok n ↔ SpellsPadded s n.toInt :=
  readInt64_eq_ok_iff.trans spellsPadded_iff_trim.symm

/-! ## The digits of an integer -/

theorem spellsInteger_decimalInt (n : Int) : SpellsInteger (decimalInt n) n := by
  cases n with
  | ofNat k =>
    have := SpellsInteger.plain (decimal_ne_nil k) fun _ => isDigit_of_mem_decimal
    rwa [ofDigits_decimal] at this
  | negSucc k =>
    have := SpellsInteger.minus (decimal_ne_nil (k + 1)) fun _ => isDigit_of_mem_decimal
    rwa [ofDigits_decimal] at this

/-- No text spells two integers. -/
theorem SpellsInteger.unique {s : List Char} {m n : Int} (hm : SpellsInteger s m)
    (hn : SpellsInteger s n) : m = n := by
  have hsign : ∀ {c : Char} {t : List Char}, c.isDigit = false →
      ¬∀ d ∈ c :: t, d.isDigit = true := by
    intro c t hc ht
    have := ht c List.mem_cons_self
    rw [hc] at this
    cases this
  cases hm with
  | plain _ hs =>
    cases hn with
    | plain => rfl
    | plus | minus => exact absurd hs (hsign rfl)
  | plus =>
    cases hn with
    | plain _ hs => exact absurd hs (hsign rfl)
    | plus => rfl
  | minus =>
    cases hn with
    | plain _ hs => exact absurd hs (hsign rfl)
    | minus => rfl

/-- The digits of an integer spell no other, with blanks or without. -/
theorem spellsPadded_decimalInt_iff {m n : Int} : SpellsPadded (decimalInt n) m ↔ m = n := by
  have h := spellsInteger_decimalInt n
  have htrim : trim (decimalInt n) = decimalInt n := by
    have := trim_append (fun c hc => absurd hc List.not_mem_nil)
      (fun c hc => absurd hc List.not_mem_nil) h.ne_nil h.isBlank_of_mem
    rwa [List.nil_append, List.append_nil] at this
  rw [spellsPadded_iff_trim, htrim]
  constructor
  · exact fun hm => hm.unique h
  · rintro rfl
    exact h

end RemoteRecords.Text
