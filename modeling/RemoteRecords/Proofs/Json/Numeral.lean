import RemoteRecords.Proofs.Binary64.Shortest
import RemoteRecords.Proofs.Json.Grammar
import RemoteRecords.Proofs.Text.Decimal

/-!
# Printed numbers are numerals

A numeral is read part by part: the digits before the point, those after it, and
the exponent. What is read is what the grammar calls a numeral. An integer in
decimal is a numeral without fraction and exponent, and a double in either
layout is one with a fraction or an exponent, so no text is both.

* `readUnsigned_append`, `readFraction_point`, `readExponent_digits`: numerals read
  part by part;
* `read_decimalInt`: the numeral of an integer;
* `read_write`: the numeral of a double, in any layout;
* `isNumeral_of_read`, `exists_read`: what is read are the numerals of the grammar;
* `isNumberChar_of_isNumeral`: the characters of a numeral.
-/

namespace RemoteRecords.Json.Numeral

open Text

/-- A run of digits before something else. -/
theorem takeWhile_digits {run tail : List Char} (hr : ∀ c ∈ run, c.isDigit = true)
    (ht : ∀ c ∈ tail.head?, c.isDigit = false) : (run ++ tail).takeWhile Char.isDigit = run := by
  rw [List.takeWhile_append_of_pos hr]
  cases tail with
  | nil => simp
  | cons c tail => simp [ht c rfl]

theorem dropWhile_digits {run tail : List Char} (hr : ∀ c ∈ run, c.isDigit = true)
    (ht : ∀ c ∈ tail.head?, c.isDigit = false) : (run ++ tail).dropWhile Char.isDigit = tail := by
  rw [List.dropWhile_append_of_pos hr]
  cases tail with
  | nil => rfl
  | cons c tail => simp [ht c rfl]

/-- The digits before the point, and what follows them. -/
theorem readUnsigned_append (negative : Bool) {whole tail : List Char}
    (hw : ∀ c ∈ whole, c.isDigit = true) (hn : whole ≠ [])
    (hz : 1 < whole.length → whole.head? ≠ some '0') (ht : ∀ c ∈ tail.head?, c.isDigit = false) :
    readUnsigned negative (whole ++ tail) =
      (readFraction tail).map fun p => ⟨negative, whole, p.1, p.2⟩ := by
  unfold readUnsigned
  rw [takeWhile_digits hw ht, dropWhile_digits hw ht]
  refine if_neg ?_
  rintro (h | ⟨hl, h⟩)
  · exact hn h
  · exact hz hl h

/-- The point, the digits after it, and what follows them. -/
theorem readFraction_point {fraction tail : List Char} (hf : ∀ c ∈ fraction, c.isDigit = true)
    (hn : fraction ≠ []) (ht : ∀ c ∈ tail.head?, c.isDigit = false) :
    readFraction ('.' :: (fraction ++ tail)) = (readExponent tail).map (fraction, ·) := by
  cases fraction with
  | nil => exact absurd rfl hn
  | cons c fraction => simp only [readFraction, takeWhile_digits hf ht, dropWhile_digits hf ht]

/-- A whole numeral with a point in it. -/
theorem readUnsigned_point (negative : Bool) {whole fraction : List Char}
    (hw : ∀ c ∈ whole, c.isDigit = true) (hn : whole ≠ [])
    (hz : 1 < whole.length → whole.head? ≠ some '0') (hf : ∀ c ∈ fraction, c.isDigit = true)
    (hfn : fraction ≠ []) :
    readUnsigned negative (whole ++ '.' :: fraction) = some ⟨negative, whole, fraction, none⟩ := by
  have : readFraction ('.' :: (fraction ++ [])) = some (fraction, none) :=
    readFraction_point hf hfn (by simp)
  rw [List.append_nil] at this
  rw [readUnsigned_append negative hw hn hz (by simp), this]
  rfl

theorem readFraction_exponent (s : List Char) :
    readFraction ('e' :: s) = (readExponent ('e' :: s)).map ([], ·) := rfl

theorem readFraction_nil : readFraction [] = some ([], none) := rfl

/-- An exponent is read with or without a sign. -/
theorem readExponent_digits {mark : Char} (hm : mark ∈ ['e', 'E']) {sign s : List Char}
    (hs : sign ∈ [[], ['+'], ['-']]) (h : IsDigits s) :
    readExponent (mark :: (sign ++ s)) = some (some (decide (sign = ['-']), s)) := by
  have hmark : mark = 'e' ∨ mark = 'E' := by simpa using hm
  have hall : s ≠ [] ∧ s.all Char.isDigit = true := ⟨h.1, List.all_eq_true.mpr h.2⟩
  simp only [readExponent, hmark, ite_true]
  simp only [List.mem_cons, List.not_mem_nil, or_false] at hs
  rcases hs with rfl | rfl | rfl
  · rw [List.nil_append]
    split
    · exact absurd (h.2 _ List.mem_cons_self) (by decide)
    · exact absurd (h.2 _ List.mem_cons_self) (by decide)
    · rw [if_pos hall]
      rfl
  · exact if_pos hall
  · exact if_pos hall

theorem isDigits_decimal (n : Nat) : IsDigits (decimal n) :=
  ⟨decimal_ne_nil n, fun _ hc => isDigit_of_mem_decimal hc⟩

/-- An exponent is written with its sign. -/
theorem readExponent_mark (plus : Bool) (leading : Int) :
    ∃ e, readExponent ('e' :: ((if plus ∧ 0 ≤ leading then ['+'] else []) ++ decimalInt leading)) =
      some (some e) := by
  have he : 'e' ∈ ['e', 'E'] := List.mem_cons_self
  cases leading with
  | negSucc n =>
    have h := readExponent_digits he (show ['-'] ∈ _ by simp) (isDigits_decimal (n + 1))
    exact ⟨_, by simpa [decimalInt] using h⟩
  | ofNat n =>
    cases plus with
    | true =>
      have h := readExponent_digits he (show ['+'] ∈ _ by simp) (isDigits_decimal n)
      exact ⟨_, by simpa [decimalInt] using h⟩
    | false =>
      have h := readExponent_digits he (show [] ∈ _ by simp) (isDigits_decimal n)
      exact ⟨_, by simpa [decimalInt] using h⟩

/-! ## Integers -/

theorem readUnsigned_decimal (negative : Bool) (n : Nat) :
    readUnsigned negative (decimal n) = some ⟨negative, decimal n, [], none⟩ := by
  have : readUnsigned negative (decimal n ++ []) = _ :=
    readUnsigned_append negative (fun c hc => isDigit_of_mem_decimal hc) (decimal_ne_nil n)
      head?_decimal_of_length (by simp)
  rwa [List.append_nil, readFraction_nil] at this

/-- A text that starts with a digit has no sign. -/
theorem read_of_isDigit {c : Char} (h : c.isDigit = true) (s : List Char) :
    read (c :: s) = readUnsigned false (c :: s) := by
  unfold read
  split
  · next e =>
    rw [(List.cons.inj e).1] at h
    exact absurd h (by decide)
  · rfl

theorem read_decimal (n : Nat) : read (decimal n) = some ⟨false, decimal n, [], none⟩ := by
  rw [← readUnsigned_decimal]
  cases h : decimal n with
  | nil => exact absurd h (decimal_ne_nil n)
  | cons c s => exact read_of_isDigit (isDigit_of_mem_decimal (n := n) (by simp [h])) s

/-- An integer in decimal is a numeral without fraction and exponent. -/
theorem read_decimalInt (n : Int) :
    read (decimalInt n) = some ⟨decide (n < 0), decimal n.natAbs, [], none⟩ := by
  cases n with
  | ofNat k => exact read_decimal k
  | negSucc k =>
    rw [decide_eq_true (Int.negSucc_lt_zero k)]
    exact readUnsigned_decimal true (k + 1)

/-! ## Doubles -/

section Layouts

variable {digits : List Char} (hd : ∀ c ∈ digits, c.isDigit = true) (hn : digits ≠ [])
include hd hn

/-- Digits with a point in place are a numeral with a fraction. -/
theorem readUnsigned_positional (negative : Bool) (hz : digits.head? ≠ some '0') (exponent : Int) :
    ∃ n, readUnsigned negative (positional digits exponent) = some n ∧ n.fraction ≠ [] := by
  obtain ⟨c, rest, rfl⟩ := List.exists_cons_of_ne_nil hn
  have hzeros : ∀ k, ∀ d ∈ List.replicate k '0', d.isDigit = true := by
    intro k d h
    rw [List.eq_of_mem_replicate h]
    rfl
  cases exponent with
  | ofNat zeros =>
    have hw : ∀ d ∈ (c :: rest) ++ List.replicate zeros '0', d.isDigit = true := fun d h =>
      (List.mem_append.mp h).elim (hd d) (hzeros zeros d)
    exact ⟨_, readUnsigned_point negative hw (by simp) (fun _ => hz) (hzeros 1) (by simp), by simp⟩
  | negSucc n =>
    simp only [positional]
    split
    · next hl =>
      obtain ⟨k, hk⟩ : ∃ k, (c :: rest).length - (n + 1) = k + 1 :=
        ⟨(c :: rest).length - (n + 1) - 1, by omega⟩
      have hdrop : (c :: rest).drop (k + 1) ≠ [] := by
        rw [ne_eq, List.drop_eq_nil_iff]
        omega
      rw [hk]
      exact ⟨_, readUnsigned_point negative (fun d h => hd d (List.mem_of_mem_take h)) (by simp)
        (fun _ => hz) (fun d h => hd d (List.mem_of_mem_drop h)) hdrop, hdrop⟩
    · have hf : ∀ d ∈ List.replicate (n + 1 - (c :: rest).length) '0' ++ c :: rest,
          d.isDigit = true := fun d h => (List.mem_append.mp h).elim (hzeros _ d) (hd d)
      have hne : List.replicate (n + 1 - (c :: rest).length) '0' ++ c :: rest ≠ [] := by simp
      have h0 : ∀ d ∈ ['0'], d.isDigit = true := hzeros 1
      exact ⟨_, readUnsigned_point negative h0 (by simp) (by simp) hf hne, hne⟩

/-- Digits with a power of ten are a numeral with an exponent. -/
theorem readUnsigned_scientific (negative plus : Bool) (leading : Int) :
    ∃ n, readUnsigned negative (scientific plus digits leading) = some n ∧ n.exponent ≠ none := by
  obtain ⟨c, rest, rfl⟩ := List.exists_cons_of_ne_nil hn
  obtain ⟨e, he⟩ := readExponent_mark plus leading
  have hc : ∀ d ∈ [c], d.isDigit = true :=
    List.forall_mem_singleton.mpr (hd c List.mem_cons_self)
  have hr : ∀ d ∈ rest, d.isDigit = true := fun d h => hd d (List.mem_cons_of_mem _ h)
  cases rest with
  | nil =>
    refine ⟨⟨negative, [c], [], some e⟩, ?_, by simp⟩
    have : readUnsigned negative ([c] ++ 'e' ::
        ((if plus ∧ 0 ≤ leading then ['+'] else []) ++ decimalInt leading)) = _ :=
      readUnsigned_append negative hc (by simp) (by simp) (by simp)
    rw [readFraction_exponent, he] at this
    simpa [scientific] using this
  | cons d rest =>
    refine ⟨⟨negative, [c], d :: rest, some e⟩, ?_, by simp⟩
    have : readUnsigned negative ([c] ++ '.' :: (d :: rest ++ 'e' ::
        ((if plus ∧ 0 ≤ leading then ['+'] else []) ++ decimalInt leading))) = _ :=
      readUnsigned_append negative hc (by simp) (by simp) (by simp)
    rw [readFraction_point hr (by simp) (by simp), he] at this
    simpa [scientific] using this

end Layouts

/-- Only an unsigned numeral is read without its sign. -/
theorem read_of_readUnsigned {s : List Char} {n : Numeral} (h : readUnsigned false s = some n) :
    read s = some n := by
  unfold read
  split
  · simp [readUnsigned, show Char.isDigit '-' = false by decide] at h
  · exact h

/-- A double in any layout is a numeral with a fraction or an exponent. -/
theorem read_write (layout : DecimalLayout) (x : Binary64.Finite) :
    ∃ n, read (layout.write x) = some n ∧ (n.fraction ≠ [] ∨ n.exponent ≠ none) := by
  have hmagnitude : ∀ negative, ∃ n, readUnsigned negative
      (if x.isZero then ['0', '.', '0'] else layout.writeDecimal (x.shortest layout.tie)) = some n ∧
        (n.fraction ≠ [] ∨ n.exponent ≠ none) := by
    intro negative
    have hd : ∀ c ∈ decimal (x.shortest layout.tie).digits, c.isDigit = true := fun c hc =>
      isDigit_of_mem_decimal hc
    split
    · exact ⟨⟨negative, ['0'], ['0'], none⟩, by cases negative <;> rfl, by simp⟩
    · next hx =>
      have h0 := Binary64.Finite.digits_shortest_ne_zero layout.tie (eq_false_of_ne_true hx)
      simp only [DecimalLayout.writeDecimal]
      split
      · obtain ⟨n, hn, hf⟩ := readUnsigned_positional hd (decimal_ne_nil _) negative
          (head?_decimal h0) (x.shortest layout.tie).exponent
        exact ⟨n, hn, .inl hf⟩
      · obtain ⟨n, hn, he⟩ := readUnsigned_scientific hd (decimal_ne_nil _) negative layout.plus
          ((x.shortest layout.tie).exponent + (decimal (x.shortest layout.tie).digits).length - 1)
        exact ⟨n, hn, .inr he⟩
  simp only [DecimalLayout.write]
  cases x.negative with
  | true => exact hmagnitude true
  | false =>
    obtain ⟨n, hn, hp⟩ := hmagnitude false
    exact ⟨n, read_of_readUnsigned hn, hp⟩

/-! ## The grammar -/

theorem isWhole_iff {s : List Char} :
    IsWhole s ↔ IsDigits s ∧ (1 < s.length → s.head? ≠ some '0') := by
  constructor
  · intro h
    cases h with
    | zero => exact ⟨⟨by simp, by simp⟩, by simp⟩
    | digits hc h0 hs => exact ⟨⟨by simp, by simpa using ⟨hc, hs⟩⟩, by simpa using fun _ => h0⟩
  · rintro ⟨⟨hn, hd⟩, hz⟩
    obtain ⟨c, rest, rfl⟩ := List.exists_cons_of_ne_nil hn
    have hr : ∀ d ∈ rest, d.isDigit = true := fun d hm => hd d (List.mem_cons_of_mem _ hm)
    by_cases h0 : c = '0'
    · rw [h0] at hz ⊢
      cases rest with
      | nil => exact .zero
      | cons d rest => exact absurd rfl (hz (by simp))
    · exact .digits (hd c List.mem_cons_self) h0 hr

theorem isExponent_of_read {s : List Char} {e : Option (Bool × List Char)}
    (h : readExponent s = some e) : IsExponent s := by
  cases s with
  | nil => exact .none
  | cons mark rest =>
    simp only [readExponent] at h
    split at h
    · next hm =>
      have hmark : mark ∈ ['e', 'E'] := by simpa using hm
      split at h <;> obtain ⟨⟨hn, hd⟩, -⟩ := Option.ite_none_right_eq_some.mp h
      · exact .digits hmark (show ['-'] ∈ _ by simp) ⟨hn, List.all_eq_true.mp hd⟩
      · exact .digits hmark (show ['+'] ∈ _ by simp) ⟨hn, List.all_eq_true.mp hd⟩
      · exact .digits hmark (show [] ∈ _ by simp) ⟨hn, List.all_eq_true.mp hd⟩
    · cases h

theorem exists_fraction_of_read {s : List Char} {p : List Char × Option (Bool × List Char)}
    (h : readFraction s = some p) :
    ∃ fraction exponent, IsFraction fraction ∧ IsExponent exponent ∧ s = fraction ++ exponent := by
  unfold readFraction at h
  split at h
  · next rest =>
    split at h
    · cases h
    · next hn =>
      obtain ⟨e, he, -⟩ := Option.map_eq_some_iff.mp h
      refine ⟨'.' :: rest.takeWhile Char.isDigit, rest.dropWhile Char.isDigit, ?_,
        isExponent_of_read he, ?_⟩
      · exact .digits ⟨hn, List.all_eq_true.mp List.all_takeWhile⟩
      · rw [List.cons_append, List.takeWhile_append_dropWhile]
  · obtain ⟨e, he, -⟩ := Option.map_eq_some_iff.mp h
    exact ⟨[], s, .none, isExponent_of_read he, rfl⟩

theorem exists_parts_of_readUnsigned {negative : Bool} {s : List Char} {n : Numeral}
    (h : readUnsigned negative s = some n) :
    ∃ whole fraction exponent, IsWhole whole ∧ IsFraction fraction ∧ IsExponent exponent ∧
      s = whole ++ (fraction ++ exponent) := by
  simp only [readUnsigned] at h
  split at h
  · cases h
  · next hw =>
    rw [not_or, not_and] at hw
    obtain ⟨p, hp, -⟩ := Option.map_eq_some_iff.mp h
    obtain ⟨fraction, exponent, hf, he, hs⟩ := exists_fraction_of_read hp
    have hwhole := isWhole_iff.mpr ⟨⟨hw.1, List.all_eq_true.mp List.all_takeWhile⟩, hw.2⟩
    exact ⟨_, fraction, exponent, hwhole, hf, he,
      by rw [← hs, List.takeWhile_append_dropWhile]⟩

/-- What is read as a numeral is one. -/
theorem isNumeral_of_read {s : List Char} {n : Numeral} (h : read s = some n) : IsNumeral s := by
  unfold read at h
  split at h
  · obtain ⟨whole, fraction, exponent, hw, hf, he, rfl⟩ := exists_parts_of_readUnsigned h
    exact .parts (show ['-'] ∈ _ by simp) hw hf he
  · obtain ⟨whole, fraction, exponent, hw, hf, he, rfl⟩ := exists_parts_of_readUnsigned h
    exact .parts (show [] ∈ _ by simp) hw hf he

theorem isNumeral_decimalInt (n : Int) : IsNumeral (decimalInt n) :=
  isNumeral_of_read (read_decimalInt n)

theorem isNumeral_write (layout : DecimalLayout) (x : Binary64.Finite) :
    IsNumeral (layout.write x) := by
  obtain ⟨n, hn, -⟩ := read_write layout x
  exact isNumeral_of_read hn

theorem exists_readExponent {s : List Char} (h : IsExponent s) : ∃ e, readExponent s = some e := by
  cases h with
  | none => exact ⟨_, rfl⟩
  | digits hm hs h => exact ⟨_, readExponent_digits hm hs h⟩

theorem head?_of_isExponent {s : List Char} (h : IsExponent s) :
    ∀ c ∈ s.head?, c = 'e' ∨ c = 'E' := by
  cases h with
  | none => simp
  | digits hm hs h => simpa using hm

theorem exists_readFraction {fraction exponent : List Char} (hf : IsFraction fraction)
    (he : IsExponent exponent) : ∃ p, readFraction (fraction ++ exponent) = some p := by
  obtain ⟨e, hr⟩ := exists_readExponent he
  cases hf with
  | none =>
    refine ⟨([], e), ?_⟩
    rw [List.nil_append]
    unfold readFraction
    split
    · exact absurd (head?_of_isExponent he '.' rfl) (by decide)
    · rw [hr, Option.map_some]
  | digits h =>
    have ht : ∀ c ∈ exponent.head?, c.isDigit = false := by
      intro c hc
      rcases head?_of_isExponent he c hc with rfl | rfl <;> rfl
    exact ⟨_, by rw [List.cons_append, readFraction_point h.2 h.1 ht, hr, Option.map_some]⟩

theorem exists_readUnsigned (negative : Bool) {whole fraction exponent : List Char}
    (hw : IsWhole whole) (hf : IsFraction fraction) (he : IsExponent exponent) :
    ∃ n, readUnsigned negative (whole ++ (fraction ++ exponent)) = some n := by
  obtain ⟨⟨hn, hd⟩, hz⟩ := isWhole_iff.mp hw
  obtain ⟨p, hp⟩ := exists_readFraction hf he
  have ht : ∀ c ∈ (fraction ++ exponent).head?, c.isDigit = false := by
    cases hf with
    | none =>
      intro c hc
      rcases head?_of_isExponent he c hc with rfl | rfl <;> rfl
    | digits h => simp
  exact ⟨_, by rw [readUnsigned_append negative hd hn hz ht, hp, Option.map_some]⟩

/-- A numeral is read as one. -/
theorem exists_read {s : List Char} (h : IsNumeral s) : ∃ n, read s = some n := by
  obtain ⟨hs, hw, hf, he⟩ := h
  simp only [List.mem_cons, List.not_mem_nil, or_false] at hs
  rcases hs with rfl | rfl
  · obtain ⟨n, hn⟩ := exists_readUnsigned false hw hf he
    exact ⟨n, read_of_readUnsigned hn⟩
  · obtain ⟨n, hn⟩ := exists_readUnsigned true hw hf he
    exact ⟨n, hn⟩

/-! ## Characters -/

theorem isNumberChar_of_isDigit {c : Char} (h : c.isDigit = true) : isNumberChar c = true := by
  simp [isNumberChar, h]

/-- A numeral starts with a digit or a minus sign, and has only the characters
of numbers. -/
theorem isNumberChar_of_isNumeral {s : List Char} (h : IsNumeral s) :
    (∃ c ∈ s.head?, c.isDigit = true ∨ c = '-') ∧ ∀ c ∈ s, isNumberChar c = true := by
  obtain ⟨hs, hw, hf, he⟩ := h
  rename_i sign whole fraction exponent
  obtain ⟨⟨hn, hd⟩, -⟩ := isWhole_iff.mp hw
  have hdigits : ∀ {l : List Char}, (∀ c ∈ l, c.isDigit = true) → ∀ c ∈ l, isNumberChar c = true :=
    fun hl c hc => isNumberChar_of_isDigit (hl c hc)
  have hsign : ∀ c ∈ sign, isNumberChar c = true := by
    simp only [List.mem_cons, List.not_mem_nil, or_false] at hs
    rcases hs with rfl | rfl <;> simp [isNumberChar]
  have hfraction : ∀ c ∈ fraction, isNumberChar c = true := by
    cases hf with
    | none => simp
    | digits h => exact List.forall_mem_cons.mpr ⟨rfl, hdigits h.2⟩
  have hexponent : ∀ c ∈ exponent, isNumberChar c = true := by
    cases he with
    | none => simp
    | digits hm hsign h =>
      have hmark := head?_of_isExponent (.digits hm hsign h) _ rfl
      simp only [List.mem_cons, List.not_mem_nil, or_false] at hsign
      refine List.forall_mem_cons.mpr ⟨?_, List.forall_mem_append.mpr ⟨?_, hdigits h.2⟩⟩
      · rcases hmark with rfl | rfl <;> rfl
      · rcases hsign with rfl | rfl | rfl <;> simp [isNumberChar]
  refine ⟨?_, ?_⟩
  · obtain ⟨c, rest, rfl⟩ := List.exists_cons_of_ne_nil hn
    simp only [List.mem_cons, List.not_mem_nil, or_false] at hs
    rcases hs with rfl | rfl
    · exact ⟨c, rfl, .inl (hd c List.mem_cons_self)⟩
    · exact ⟨'-', rfl, .inr rfl⟩
  · simp only [List.forall_mem_append]
    exact ⟨hsign, hdigits hd, hfraction, hexponent⟩

end RemoteRecords.Json.Numeral
