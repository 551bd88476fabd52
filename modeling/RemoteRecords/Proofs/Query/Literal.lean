import RemoteRecords.Proofs.Query.Cut

/-!
# Values that say where they end

A value in a payload says which literal it is and where it ends, as long as no
string holds a quote: a string ends with its quote, and any other value where
something follows that is part of no number and no word. No two kinds of values
share a text. Doubles are known by their text.

* `Operand.kindOfText_render`: the text of a value tells its kind;
* `Operand.render_append_inj`: values, up to their literals;
* `Operand.list_append_inj`: values in a list.
-/

namespace RemoteRecords

open Json (Ends Numeral isNumberChar isWordChar)

/-! ## Values -/

/-- What is compared of a value: a double is known by its text. -/
inductive Literal
  | integer (n : Int64)
  | number (text : List Char)
  | flag (b : Bool)
  | text (s : String)
deriving DecidableEq

namespace Operand

/-- The literal of a value. -/
def literal : Operand → Literal
  | integer n => .integer n
  | number x => .number (number x).render
  | flag b => .flag b
  | text s => .text s

/-- A value that is no string is written with the characters of numbers or of
words, and with at least one. -/
theorem render_of_isText_eq_false {v : Operand} (h : v.isText = false) :
    v.render ≠ [] ∧ ∀ c ∈ v.render, (isNumberChar c || isWordChar c) = true := by
  have hnumeral : ∀ {s : List Char}, Json.IsNumeral s →
      s ≠ [] ∧ ∀ c ∈ s, (isNumberChar c || isWordChar c) = true := by
    intro s hs
    obtain ⟨⟨c, hc, -⟩, hall⟩ := Numeral.isNumberChar_of_isNumeral hs
    refine ⟨?_, fun d hd => by rw [hall d hd]; rfl⟩
    rintro rfl
    cases hc
  have hword : ∀ w : Json.Word, w.letters ≠ [] ∧
      ∀ c ∈ w.letters, (isNumberChar c || isWordChar c) = true := by
    intro w
    rw [← List.all_eq_true]
    cases w <;> exact ⟨List.cons_ne_nil _ _, rfl⟩
  cases v with
  | integer n => exact hnumeral (Numeral.isNumeral_decimalInt _)
  | number x =>
    cases x with
    | finite x => exact hnumeral (Numeral.isNumeral_write layout x)
    | _ => exact hword .null
  | flag b =>
    cases b with
    | true => exact hword .true
    | false => exact hword .false
  | text s => cases h

/-- The kinds of literals. -/
inductive LiteralKind
  | integer
  | number
  | flag
  | text

/-- The kind of the literal of a value. -/
def kind : Operand → LiteralKind
  | integer _ => .integer
  | number _ => .number
  | flag _ => .flag
  | text _ => .text

/-- The kind of the literal that is written as a text. A double has a fraction or
an exponent, and one that is no number is written as a word. -/
def kindOfText (s : List Char) : LiteralKind :=
  match Numeral.read s with
  | some n => if n.fraction = [] ∧ n.exponent = none then .integer else .number
  | none =>
    if s = "null".toList then .number
    else if s = "true".toList ∨ s = "false".toList then .flag
    else .text

theorem kindOfText_render (v : Operand) : kindOfText v.render = v.kind := by
  cases v with
  | integer n =>
    rw [kindOfText, render, Numeral.read_decimalInt]
    rfl
  | number x =>
    cases x with
    | finite x =>
      obtain ⟨n, hn, hp⟩ := Numeral.read_write layout x
      rw [kindOfText, render, hn]
      exact if_neg fun ⟨hf, he⟩ => hp.elim (fun h => h hf) (fun h => h he)
    | _ => rfl
  | flag b => cases b <;> rfl
  | text s => rfl

/-- Values of different kinds are not written alike, and those of one kind only
with the same literal. -/
theorem literal_eq_of_render_eq {v w : Operand} (h : v.render = w.render) :
    v.literal = w.literal := by
  have hk : v.kind = w.kind := by rw [← kindOfText_render, h, kindOfText_render]
  cases v with
  | integer m =>
    cases w with
    | integer n => rw [literal, literal, Int64.toInt_inj.mp (Text.decimalInt_inj h)]
    | _ => cases hk
  | number x =>
    cases w with
    | number y => rw [literal, literal, h]
    | _ => cases hk
  | flag a =>
    cases w with
    | flag b =>
      cases a <;> cases b
      · rfl
      · exact absurd h (by decide)
      · exact absurd h (by decide)
      · rfl
    | _ => cases hk
  | text s =>
    cases w with
    | text t => rw [literal, literal, Fragment.quoted_inj h]
    | _ => cases hk

/-- How a value starts: with a quote if it is a string, else with a character of
a number or a word. -/
theorem render_eq_cons (v : Operand) :
    ∃ c rest, v.render = c :: rest ∧
      (if v.isText then c = '"' else (isNumberChar c || isWordChar c) = true) := by
  cases ht : v.isText with
  | true =>
    cases v with
    | text s => exact ⟨_, _, rfl, rfl⟩
    | _ => cases ht
  | false =>
    obtain ⟨hne, hall⟩ := render_of_isText_eq_false ht
    obtain ⟨c, rest, e⟩ := List.exists_cons_of_ne_nil hne
    exact ⟨c, rest, e, hall c (e ▸ List.mem_cons_self)⟩

theorem render_append_ne {v : Operand} {c : Char} (hq : c ≠ '"')
    (hc : (isNumberChar c || isWordChar c) = false) (s t : List Char) : v.render ++ s ≠ c :: t := by
  obtain ⟨d, rest, e, hd⟩ := v.render_eq_cons
  rw [e, List.cons_append]
  intro h
  obtain ⟨rfl, -⟩ := List.cons.inj h
  split at hd
  · exact hq hd
  · rw [hc] at hd
    cases hd

variable {v w : Operand} {r r' : List Char}

theorem isText_eq_of_append_eq (h : v.render ++ r = w.render ++ r') : v.isText = w.isText := by
  have hquote : (isNumberChar '"' || isWordChar '"') = false := rfl
  obtain ⟨c, _, ev, hc⟩ := v.render_eq_cons
  obtain ⟨d, _, ew, hd⟩ := w.render_eq_cons
  rw [ev, ew] at h
  obtain ⟨rfl, -⟩ := List.cons.inj h
  cases hv : v.isText with
  | true =>
    cases hw : w.isText with
    | true => rfl
    | false =>
      rw [hv, if_pos rfl] at hc
      rw [hw, if_neg Bool.false_ne_true, hc, hquote] at hd
      cases hd
  | false =>
    cases hw : w.isText with
    | true =>
      rw [hw, if_pos rfl] at hd
      rw [hv, if_neg Bool.false_ne_true, hd, hquote] at hc
      cases hc
    | false => rfl

/-- A value says its literal and where it ends. -/
theorem render_append_inj (hv : ∀ s ∈ v.texts, IsQuoteFree s) (hw : ∀ s ∈ w.texts, IsQuoteFree s)
    (hr : Ends r) (hr' : Ends r') (h : v.render ++ r = w.render ++ r') :
    v.literal = w.literal ∧ r = r' := by
  have ht := isText_eq_of_append_eq h
  cases hvt : v.isText with
  | true =>
    rw [hvt] at ht
    cases v with
    | text s =>
      cases w with
      | text t =>
        obtain ⟨rfl, hr⟩ := Fragment.quoted_append_inj (hv s List.mem_cons_self)
          (hw t List.mem_cons_self) h
        exact ⟨rfl, hr⟩
      | _ => cases ht
    | _ => cases hvt
  | false =>
    have hwt : w.isText = false := ht.symm.trans hvt
    have hends : ∀ {s : List Char}, Ends s →
        ∀ c ∈ s.head?, (isNumberChar c || isWordChar c) = false := by
      intro s hs c hc
      rw [(hs c hc).1, (hs c hc).2]
      rfl
    obtain ⟨he, hr⟩ := Text.append_inj_of_all (render_of_isText_eq_false hvt).2
      (render_of_isText_eq_false hwt).2 (hends hr) (hends hr') h
    exact ⟨literal_eq_of_render_eq he, hr⟩

/-- Values in a list. -/
theorem list_append_inj {l l' : List Operand} (hl : ∀ v ∈ l, ∀ s ∈ v.texts, IsQuoteFree s)
    (hl' : ∀ v ∈ l', ∀ s ∈ v.texts, IsQuoteFree s)
    (h : Fragment.list [','] (l.map render) ++ ']' :: r =
      Fragment.list [','] (l'.map render) ++ ']' :: r') :
    l.map literal = l'.map literal ∧ r = r' :=
  Fragment.list_append_inj (by decide) Json.ends_comma Json.ends_closeBracket
    (fun a ha b hb _ _ hs hs' => render_append_inj (hl a ha) (hl' b hb) hs hs')
    (fun _ _ => render_append_ne (by decide) rfl) (fun _ _ => render_append_ne (by decide) rfl) h

end Operand

end RemoteRecords
