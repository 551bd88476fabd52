import RemoteRecords.Json.Value
import RemoteRecords.Proofs.Json.Numeral

/-!
# Scanning text piece by piece

The tokens of a text that is put together from pieces: what stands first is
scanned first, and what follows is scanned as if it stood alone. A mark, a blank
and a string need nothing of what follows them; a number or a word has to end
there (`Ends`).

* `SpellsMark.scan`, `scan_blank`: marks and blanks;
* `SpellsText.scan`: a string, with its escapes;
* `scan_numeral`, `scan_word`: a numeral and a word before anything that ends them.
-/

namespace RemoteRecords.Json

/-- Tokens, and those that are scanned after them. -/
def emit (tokens : List Token) (scanned : Option (List Token)) : Option (List Token) :=
  scanned.map (tokens ++ ·)

@[simp] theorem emit_some (front back : List Token) : emit front (some back) = some (front ++ back) := rfl

@[simp] theorem emit_none (front : List Token) : emit front none = none := rfl

@[simp] theorem emit_nil (scanned : Option (List Token)) : emit [] scanned = scanned := by
  cases scanned <;> rfl

@[simp] theorem emit_emit (front back : List Token) (scanned : Option (List Token)) :
    emit front (emit back scanned) = emit (front ++ back) scanned := by
  cases scanned <;> simp

namespace Scan

/-- The tokens of a text that is read from a state on, up to its end. -/
def rest (state : Scan) (s : List Char) : Option (List Token) := do
  let (last, tokens) ← run state s
  return tokens ++ (← last.finish)

theorem rest_cons {state next : Scan} {c : Char} {tokens : List Token}
    (h : step state c = some (next, tokens)) (s : List Char) :
    rest state (c :: s) = emit tokens (rest next s) := by
  simp only [rest, run, h, Option.bind_eq_bind, Option.bind_some]
  cases run next s with
  | none => rfl
  | some p => cases hf : p.1.finish <;> simp [hf]

theorem rest_cons_none {state : Scan} {c : Char} (h : step state c = none) (s : List Char) :
    rest state (c :: s) = none := by
  simp only [rest, run, h, Option.bind_eq_bind, Option.bind_none]

theorem rest_cons_nil {state next : Scan} {c : Char} (h : step state c = some (next, []))
    (s : List Char) : rest state (c :: s) = rest next s := by
  rw [rest_cons h, emit_nil]

end Scan

open Scan

theorem scan_eq_rest (s : List Char) : scan s = rest .between s := rfl

theorem scan_nil : scan [] = some [] := rfl

/-! ## Marks and blanks -/

theorem start_space {c : Char} (h : isSpace c = true) : start c = some (.between, []) := by
  rw [start, if_pos h]

theorem scan_blank {s : List Char} (h : IsBlank s) (t : List Char) : scan (s ++ t) = scan t := by
  induction s with
  | nil => rfl
  | cons c s ih =>
    have hc : step .between c = some (.between, []) := start_space (h c List.mem_cons_self)
    rw [List.cons_append, scan_eq_rest, rest_cons_nil hc]
    exact ih fun d hd => h d (List.mem_cons_of_mem _ hd)

theorem scan_mark {c : Char} {t : Token} (h : start c = some (.between, [t])) (s : List Char) :
    scan (c :: s) = emit [t] (scan s) :=
  rest_cons (show step .between c = _ from h) s

theorem SpellsMark.scan {s : List Char} {mark : Char} (h : SpellsMark s mark) {t : Token}
    (ht : start mark = some (.between, [t])) (u : List Char) :
    scan (s ++ u) = emit [t] (scan u) := by
  obtain ⟨before, after, hb, ha, rfl⟩ := h
  rw [List.append_assoc, scan_blank hb, List.cons_append, scan_mark ht, scan_blank ha]

/-! ## Strings -/

theorem rest_text_plain {c : Char} (h : isPlain c = true) (read s : List Char) :
    rest (.text read) (c :: s) = rest (.text (c :: read)) s := by
  simp only [isPlain, Bool.and_eq_true, bne_iff_ne, ne_eq, decide_eq_true_eq] at h
  refine rest_cons_nil ?_ s
  simp only [step, h.1.1, h.1.2, Nat.not_lt.mpr h.2, ite_false]

theorem rest_text_backslash (read s : List Char) :
    rest (.text read) ('\\' :: s) = rest (.escape read) s :=
  rest_cons_nil rfl s

/-- A short escape stands for its character. -/
theorem rest_escape {c d : Char} (h : unescape? c = some d) (read s : List Char) :
    rest (.escape read) (c :: s) = rest (.text (d :: read)) s := by
  have hu : c ≠ 'u' := by
    rintro rfl
    cases h
  refine rest_cons_nil ?_ s
  simp only [step, hu, h, ite_false, Option.map_some]

theorem rest_code {c : Char} {d : Nat} (h : Text.hexDigit? c = some d) (read : List Char)
    (high : Option Nat) (missing value : Nat) (s : List Char) :
    rest (.code read high (missing + 1) value) (c :: s) =
      rest (.code read high missing (value * 16 + d)) s :=
  rest_cons_nil (by simp [step, h]) s

/-- A code of four digits. -/
theorem SpellsCode.rest {digits : List Char} {n : Nat} (h : SpellsCode digits n)
    {read : List Char} {high : Option Nat} {next : Scan} (hn : afterCode read high n = some next)
    (s : List Char) : rest (.code read high 3 0) (digits ++ s) = rest next s := by
  cases h with
  | digits hp hq hr ht =>
    simp only [List.cons_append, List.nil_append]
    rw [rest_code hp, rest_code hq, rest_code hr, Nat.zero_mul, Nat.zero_add]
    refine rest_cons_nil ?_ s
    simp only [step, ht, Option.bind_eq_bind, Option.bind_some, hn, Option.map_some]

theorem rest_escape_code {digits : List Char} {n : Nat} (h : SpellsCode digits n)
    (hr : n < 0xD800 ∨ 0xE000 ≤ n) (read s : List Char) :
    rest (.escape read) ('u' :: (digits ++ s)) = rest (.text (Char.ofNat n :: read)) s := by
  have hu : step (.escape read) 'u' = some (.code read none 3 0, []) := rfl
  have hn : afterCode read none n = some (.text (Char.ofNat n :: read)) := by
    simp only [afterCode, hr, ite_true]
  rw [rest_cons_nil hu, h.rest hn]

theorem rest_escape_pair {upper lower : List Char} {m n : Nat} (hm : SpellsCode upper m)
    (hu : 0xD800 ≤ m ∧ m < 0xDC00) (hn : SpellsCode lower n) (hl : 0xDC00 ≤ n ∧ n < 0xE000)
    (read s : List Char) :
    rest (.escape read) ('u' :: (upper ++ '\\' :: 'u' :: (lower ++ s))) =
      rest (.text (Char.ofNat (0x10000 + (m - 0xD800) * 0x400 + (n - 0xDC00)) :: read)) s := by
  have hs : step (.escape read) 'u' = some (.code read none 3 0, []) := rfl
  have hb : step (.half read m) '\\' = some (.halfEscape read m, []) := rfl
  have hc : step (.halfEscape read m) 'u' = some (.code read (some m) 3 0, []) := rfl
  have hhalf : afterCode read none m = some (.half read m) := by
    simp only [afterCode, show ¬(m < 0xD800 ∨ 0xE000 ≤ m) by omega, hu.2, ite_false, ite_true]
  have hpair : afterCode read (some m) n = some (.text (Char.ofNat _ :: read)) := if_pos hl
  rw [rest_cons_nil hs, hm.rest hhalf, rest_cons_nil hb, rest_cons_nil hc, hn.rest hpair]

/-- The text of a string is read as the characters that it stands for. -/
theorem SpellsChars.rest {s l : List Char} (h : SpellsChars s l) (read t : List Char) :
    rest (.text read) (s ++ t) = rest (.text (l.reverse ++ read)) t := by
  induction h generalizing read with
  | nil => rfl
  | plain hc _ ih =>
    rw [List.cons_append, rest_text_plain hc, ih]
    simp
  | escape hd _ ih =>
    rw [List.cons_append, List.cons_append, rest_text_backslash, rest_escape hd, ih]
    simp
  | code hn hr _ ih =>
    rw [List.cons_append, List.cons_append, rest_text_backslash, List.append_assoc,
      rest_escape_code hn hr, ih]
    simp
  | pair hm hu hn hl _ ih =>
    simp only [List.cons_append, List.append_assoc]
    rw [rest_text_backslash, rest_escape_pair hm hu hn hl, ih]
    simp

theorem SpellsText.scan {s : List Char} {name : String} (h : SpellsText s name) (t : List Char) :
    scan (s ++ t) = emit [.text name] (scan t) := by
  cases h with
  | @quoted s l h =>
    have ho : step .between '"' = some (.text [], []) := rfl
    have hc : step (.text l.reverse) '"' = some (.between, [.text (String.ofList l)]) := by
      simp [step]
    rw [List.cons_append, List.append_assoc, scan_eq_rest, rest_cons_nil ho, h.rest,
      List.append_nil, List.singleton_append, rest_cons hc, scan_eq_rest]

/-! ## Numbers and words -/

/-- Nothing follows, or a character that is part of no number and no word. -/
def Ends (s : List Char) : Prop :=
  ∀ c ∈ s.head?, isNumberChar c = false ∧ isWordChar c = false

@[simp] theorem ends_nil : Ends [] := by simp [Ends]

@[simp] theorem ends_cons (c : Char) (s : List Char) :
    Ends (c :: s) ↔ isNumberChar c = false ∧ isWordChar c = false := by
  simp [Ends]

theorem ends_comma (s : List Char) : Ends (',' :: s) := by
  rw [ends_cons]
  decide

theorem ends_closeBrace (s : List Char) : Ends ('\x7d' :: s) := by
  rw [ends_cons]
  decide

theorem ends_space (s : List Char) : Ends (' ' :: s) := by
  rw [ends_cons]
  decide

theorem ends_closeBracket (s : List Char) : Ends (']' :: s) := by
  rw [ends_cons]
  decide

theorem rest_number_append {l : List Char} (h : ∀ c ∈ l, isNumberChar c = true)
    (spelling s : List Char) :
    rest (.number spelling) (l ++ s) = rest (.number (l.reverse ++ spelling)) s := by
  induction l generalizing spelling with
  | nil => rfl
  | cons c l ih =>
    have hc : step (.number spelling) c = some (.number (c :: spelling), []) := by
      simp [step, h c List.mem_cons_self]
    rw [List.cons_append, rest_cons_nil hc, ih fun d hd => h d (List.mem_cons_of_mem _ hd)]
    simp

theorem rest_word_append {l : List Char} (h : ∀ c ∈ l, isWordChar c = true)
    (letters s : List Char) :
    rest (.word letters) (l ++ s) = rest (.word (l.reverse ++ letters)) s := by
  induction l generalizing letters with
  | nil => rfl
  | cons c l ih =>
    have hc : step (.word letters) c = some (.word (c :: letters), []) := by
      simp [step, h c List.mem_cons_self]
    rw [List.cons_append, rest_cons_nil hc, ih fun d hd => h d (List.mem_cons_of_mem _ hd)]
    simp

/-- A token that is complete where its text ends, and what is scanned after it. -/
theorem rest_of_complete {state : Scan} {t : Token} (hf : state.finish = some [t])
    {s : List Char} (hs : ∀ c ∈ s.head?, step state c = startAfter (some t) c) :
    rest state s = emit [t] (scan s) := by
  cases s with
  | nil => simp [rest, run, hf, scan_nil]
  | cons c s =>
    have hc : step state c = (start c).map fun p => (p.1, t :: p.2) := by
      rw [hs c rfl, startAfter]
      cases start c <;> rfl
    cases h : start c with
    | none =>
      rw [h] at hc
      rw [rest_cons_none hc, scan_eq_rest, rest_cons_none (show step .between c = none from h)]
      rfl
    | some p =>
      rw [h] at hc
      rw [rest_cons hc, scan_eq_rest, rest_cons (show step .between c = some p from h), emit_emit]
      rfl

theorem start_number {c : Char} (hc : c.isDigit = true ∨ c = '-') :
    start c = some (.number [c], []) := by
  have hd : isSpace c = false ∧ c ≠ '"' := by
    rcases hc with hc | rfl
    · refine ⟨?_, ?_⟩
      · simp only [isSpace, Bool.or_eq_false_iff, beq_eq_false_iff_ne]
        refine ⟨⟨⟨?_, ?_⟩, ?_⟩, ?_⟩ <;> rintro rfl <;> revert hc <;> decide
      · rintro rfl
        revert hc
        decide
    · decide
  simp only [start, hd.1, hd.2, hc, ite_false, ite_true, Bool.false_eq_true]

/-- A numeral is scanned as itself where it ends. -/
theorem scan_numeral {u s : List Char} (h : IsNumeral u) (hs : Ends s) :
    scan (u ++ s) = emit [.number u] (scan s) := by
  obtain ⟨⟨c, hc, hd⟩, hall⟩ := Numeral.isNumberChar_of_isNumeral h
  obtain ⟨n, hn⟩ := Numeral.exists_read h
  obtain ⟨l, rfl⟩ := List.head?_eq_some_iff.mp hc
  have ht : Token.ofSpelling? (c :: l) = some (.number (c :: l)) := by
    simp [Token.ofSpelling?, hn]
  rw [scan_eq_rest, List.cons_append, rest_cons_nil (show step .between c = _ from start_number hd),
    rest_number_append fun d hd => hall d (List.mem_cons_of_mem _ hd)]
  refine rest_of_complete (by simp [finish, ht]) fun d hd => ?_
  simp [step, (hs d hd).1, ht]

theorem scan_letters {c : Char} {l s : List Char} {w : Word} (hc : start c = some (.word [c], []))
    (hl : l.all isWordChar = true) (hw : Token.ofLetters? (c :: l) = some (.word w))
    (hs : Ends s) : scan (c :: l ++ s) = emit [.word w] (scan s) := by
  rw [scan_eq_rest, List.cons_append, rest_cons_nil (show step .between c = _ from hc),
    rest_word_append (List.all_eq_true.mp hl)]
  refine rest_of_complete (by simp [finish, hw]) fun d hd => ?_
  simp [step, (hs d hd).2, hw]

theorem scan_word (w : Word) {s : List Char} (hs : Ends s) :
    scan (w.letters ++ s) = emit [.word w] (scan s) := by
  cases w <;> exact scan_letters rfl rfl rfl hs

end RemoteRecords.Json
