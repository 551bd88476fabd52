import RemoteRecords.Json.Tree
import RemoteRecords.Query.Fragment

/-!
# The grammar of JSON

Which texts are JSON, and which document each of them is, said without a machine
that reads them: a relation between texts and documents with one rule for each
production. Blanks may stand around the six marks and around the whole text. A
half of a surrogate pair that stands alone is no character, so no text with one
is in the relation.

* `IsNumeral`: numbers;
* `SpellsChars`: what stands between the quotes of a string;
* `Spells`, `SpellsItems`, `SpellsMembers`: values, and what arrays and objects hold;
* `SpellsDocument`: a complete text.
-/

namespace RemoteRecords.Json

/-! ## Blanks, marks and words -/

/-- Blanks. -/
def IsBlank (s : List Char) : Prop :=
  ∀ c ∈ s, isSpace c = true

/-- A mark with the blanks around it. -/
def SpellsMark (s : List Char) (mark : Char) : Prop :=
  ∃ before after, IsBlank before ∧ IsBlank after ∧ s = before ++ mark :: after

/-- The letters of a word. -/
def Word.letters : Word → List Char
  | null => "null".toList
  | true => "true".toList
  | false => "false".toList

/-! ## Numbers -/

/-- One or more digits. -/
def IsDigits (s : List Char) : Prop :=
  s ≠ [] ∧ ∀ c ∈ s, c.isDigit = true

/-- The digits before the point: a zero, or digits that do not start with one. -/
inductive IsWhole : List Char → Prop
  | zero : IsWhole ['0']
  | digits {c : Char} {s : List Char} (hc : c.isDigit = true) (h0 : c ≠ '0')
      (hs : ∀ d ∈ s, d.isDigit = true) : IsWhole (c :: s)

/-- The point and the digits after it, if there are any. -/
inductive IsFraction : List Char → Prop
  | none : IsFraction []
  | digits {s : List Char} (h : IsDigits s) : IsFraction ('.' :: s)

/-- The exponent, if there is one. -/
inductive IsExponent : List Char → Prop
  | none : IsExponent []
  | digits {mark : Char} {sign s : List Char} (hm : mark ∈ ['e', 'E'])
      (hs : sign ∈ [[], ['+'], ['-']]) (h : IsDigits s) : IsExponent (mark :: (sign ++ s))

/-- A number. -/
inductive IsNumeral : List Char → Prop
  | parts {sign whole fraction exponent : List Char} (hs : sign ∈ [[], ['-']])
      (hw : IsWhole whole) (hf : IsFraction fraction) (he : IsExponent exponent) :
      IsNumeral (sign ++ (whole ++ (fraction ++ exponent)))

/-! ## Strings -/

/-- A character that stands for itself in a string. -/
def isPlain (c : Char) : Bool :=
  c != '"' && c != '\\' && 0x20 ≤ c.toNat

/-- A string without quotes, backslashes and control characters. -/
def IsPlain (s : String) : Prop :=
  ∀ c ∈ s.toList, isPlain c = true

instance (s : String) : Decidable (IsPlain s) :=
  decidable_of_iff (s.toList.all isPlain = true) List.all_eq_true

/-- A code of four hexadecimal digits. -/
inductive SpellsCode : List Char → Nat → Prop
  | digits {p q r s : Char} {a b c d : Nat} (hp : Text.hexDigit? p = some a)
      (hq : Text.hexDigit? q = some b) (hr : Text.hexDigit? r = some c)
      (hs : Text.hexDigit? s = some d) : SpellsCode [p, q, r, s] (((a * 16 + b) * 16 + c) * 16 + d)

/-- The text between two quotes and the characters that it stands for. A code is
a character by itself, or two codes are one as the halves of a pair. -/
inductive SpellsChars : List Char → List Char → Prop
  | nil : SpellsChars [] []
  | plain {c : Char} {s l : List Char} (hc : isPlain c = true) (h : SpellsChars s l) :
      SpellsChars (c :: s) (c :: l)
  | escape {c d : Char} {s l : List Char} (hd : unescape? c = some d) (h : SpellsChars s l) :
      SpellsChars ('\\' :: c :: s) (d :: l)
  | code {digits s l : List Char} {n : Nat} (hn : SpellsCode digits n)
      (hr : n < 0xD800 ∨ 0xE000 ≤ n) (h : SpellsChars s l) :
      SpellsChars ('\\' :: 'u' :: (digits ++ s)) (Char.ofNat n :: l)
  | pair {upper lower s l : List Char} {m n : Nat} (hm : SpellsCode upper m)
      (hu : 0xD800 ≤ m ∧ m < 0xDC00) (hn : SpellsCode lower n)
      (hl : 0xDC00 ≤ n ∧ n < 0xE000) (h : SpellsChars s l) :
      SpellsChars ('\\' :: 'u' :: (upper ++ '\\' :: 'u' :: (lower ++ s)))
        (Char.ofNat (0x10000 + (m - 0xD800) * 0x400 + (n - 0xDC00)) :: l)

/-- A string between its quotes. -/
inductive SpellsText : List Char → String → Prop
  | quoted {s l : List Char} (h : SpellsChars s l) :
      SpellsText ('"' :: (s ++ ['"'])) (String.ofList l)

/-! ## Values -/

mutual

/-- A value. -/
inductive Spells : List Char → Tree → Prop
  | word (w : Word) : Spells w.letters (.word w)
  | number {s : List Char} (h : IsNumeral s) : Spells s (.number s)
  | text {s : List Char} {name : String} (h : SpellsText s name) : Spells s (.text name)
  | array {opening s closing : List Char} {items : List Tree} (ho : SpellsMark opening '[')
      (h : SpellsItems s items) (hc : SpellsMark closing ']') :
      Spells (opening ++ s ++ closing) (.array items)
  | object {opening s closing : List Char} {members : List (String × Tree)}
      (ho : SpellsMark opening '\x7b') (h : SpellsMembers s members)
      (hc : SpellsMark closing '\x7d') : Spells (opening ++ s ++ closing) (.object members)

/-- Items in a row. -/
inductive SpellsItems : List Char → List Tree → Prop
  | nil : SpellsItems [] []
  | singleton {s : List Char} {t : Tree} (h : Spells s t) : SpellsItems s [t]
  | cons {s separator u : List Char} {t next : Tree} {rest : List Tree} (h : Spells s t)
      (hm : SpellsMark separator ',') (hr : SpellsItems u (next :: rest)) :
      SpellsItems (s ++ separator ++ u) (t :: next :: rest)

/-- Members in a row. -/
inductive SpellsMembers : List Char → List (String × Tree) → Prop
  | nil : SpellsMembers [] []
  | singleton {n gap s : List Char} {name : String} {t : Tree} (hn : SpellsText n name)
      (hg : SpellsMark gap ':') (h : Spells s t) : SpellsMembers (n ++ gap ++ s) [(name, t)]
  | cons {n gap s separator u : List Char} {name : String} {t : Tree} {next : String × Tree}
      {rest : List (String × Tree)} (hn : SpellsText n name) (hg : SpellsMark gap ':')
      (h : Spells s t) (hm : SpellsMark separator ',') (hr : SpellsMembers u (next :: rest)) :
      SpellsMembers (n ++ gap ++ s ++ separator ++ u) ((name, t) :: next :: rest)

end

/-- A complete text. -/
inductive SpellsDocument : List Char → Tree → Prop
  | value {before s after : List Char} {t : Tree} (hb : IsBlank before) (h : Spells s t)
      (ha : IsBlank after) : SpellsDocument (before ++ s ++ after) t

/-! ## Texts put together -/

theorem isBlank_nil : IsBlank [] := fun _ hc => absurd hc List.not_mem_nil

theorem isBlank_space : IsBlank [' '] := by
  intro c hc
  rw [List.mem_singleton.mp hc]
  rfl

theorem spellsMark (mark : Char) : SpellsMark [mark] mark :=
  ⟨[], [], isBlank_nil, isBlank_nil, rfl⟩

theorem spellsMark_space (mark : Char) : SpellsMark [mark, ' '] mark :=
  ⟨[], [' '], isBlank_nil, isBlank_space, rfl⟩

theorem space_spellsMark (mark : Char) : SpellsMark [' ', mark] mark :=
  ⟨[' '], [], isBlank_space, isBlank_nil, rfl⟩

theorem space_spellsMark_space (mark : Char) : SpellsMark [' ', mark, ' '] mark :=
  ⟨[' '], [' '], isBlank_space, isBlank_space, rfl⟩

theorem Spells.document {s : List Char} {t : Tree} (h : Spells s t) : SpellsDocument s t := by
  have := SpellsDocument.value isBlank_nil h isBlank_nil
  rwa [List.nil_append, List.append_nil] at this

/-- A string without characters to escape is written as it is. -/
theorem spellsText_quoted {name : String} (h : IsPlain name) :
    SpellsText (Fragment.quoted name) name := by
  have hchars : ∀ l : List Char, (∀ c ∈ l, isPlain c = true) → SpellsChars l l := by
    intro l hl
    induction l with
    | nil => exact .nil
    | cons c l ih =>
      exact .plain (hl c List.mem_cons_self) (ih fun d hd => hl d (List.mem_cons_of_mem _ hd))
  have := SpellsText.quoted (hchars name.toList h)
  rwa [String.ofList_toList] at this

namespace Spells

theorem quoted {name : String} (h : IsPlain name) : Spells (Fragment.quoted name) (.text name) :=
  .text (spellsText_quoted h)

theorem bracketed {s : List Char} {items : List Tree} (h : SpellsItems s items) :
    Spells ('[' :: s ++ [']']) (.array items) :=
  .array (spellsMark '[') h (spellsMark ']')

theorem braced {s : List Char} {members : List (String × Tree)} (h : SpellsMembers s members) :
    Spells ('\x7b' :: s ++ ['\x7d']) (.object members) :=
  .object (spellsMark '\x7b') h (spellsMark '\x7d')

/-- An object with a space inside either brace. -/
theorem braced_space {s : List Char} {members : List (String × Tree)}
    (h : SpellsMembers s members) :
    Spells ('\x7b' :: ' ' :: s ++ [' ', '\x7d']) (.object members) :=
  .object (spellsMark_space '\x7b') h (space_spellsMark '\x7d')

end Spells

/-- A list of values with a separator. -/
theorem SpellsItems.list {α : Type} {write : α → List Char} {tree : α → Tree}
    {separator : List Char} (hm : SpellsMark separator ',') {l : List α}
    (h : ∀ a ∈ l, Spells (write a) (tree a)) :
    SpellsItems (Fragment.list separator (l.map write)) (l.map tree) := by
  induction l with
  | nil => exact .nil
  | cons a rest ih =>
    have ha := h a List.mem_cons_self
    have ih := ih fun b hb => h b (List.mem_cons_of_mem _ hb)
    cases rest with
    | nil => exact .singleton ha
    | cons b rest => exact .cons ha hm ih

namespace SpellsMembers

/-- A name, a colon and a value. -/
theorem member {name : String} (hn : IsPlain name) {gap : List Char} (hg : SpellsMark gap ':')
    {s : List Char} {t : Tree} (h : Spells s t) :
    SpellsMembers (Fragment.quoted name ++ gap ++ s) [(name, t)] :=
  .singleton (spellsText_quoted hn) hg h

/-- Members, and members that follow them. -/
theorem append {separator u : List Char} {back : List (String × Tree)} :
    ∀ {s : List Char} {front : List (String × Tree)}, front ≠ [] → back ≠ [] →
      SpellsMembers s front → SpellsMark separator ',' → SpellsMembers u back →
      SpellsMembers (s ++ separator ++ u) (front ++ back)
  | _, _, hf, _, .nil, _, _ => absurd rfl hf
  | _, _, _, hb, .singleton hn hg h, hm, hu => by
    obtain ⟨next, rest, rfl⟩ := List.exists_cons_of_ne_nil hb
    exact .cons hn hg h hm hu
  | _, _ :: next :: rest, _, hb, .cons hn hg h hc hr, hm, hu => by
    have hrest : SpellsMembers _ (next :: (rest ++ back)) :=
      append (List.cons_ne_nil _ _) hb hr hm hu
    have := SpellsMembers.cons hn hg h hc hrest
    simpa only [List.append_assoc, List.cons_append] using this

/-- Lists of members with a separator. -/
theorem list {α : Type} {write : α → List Char} {members : α → List (String × Tree)} {l : List α}
    (h : ∀ a ∈ l, SpellsMembers (write a) (members a) ∧ members a ≠ []) :
    SpellsMembers (Fragment.list [','] (l.map write)) (l.flatMap members) := by
  induction l with
  | nil => exact nil
  | cons a rest ih =>
    obtain ⟨ha, hne⟩ := h a List.mem_cons_self
    have hrest : ∀ b ∈ rest, SpellsMembers (write b) (members b) ∧ members b ≠ [] := fun b hb =>
      h b (List.mem_cons_of_mem _ hb)
    cases rest with
    | nil => simpa [Fragment.list] using ha
    | cons b rest =>
      have hb : (b :: rest).flatMap members ≠ [] := by
        rw [List.flatMap_cons]
        exact List.append_ne_nil_of_left_ne_nil (hrest b List.mem_cons_self).2 _
      exact append hne hb ha (spellsMark ',') (ih hrest)

end SpellsMembers

end RemoteRecords.Json
