import RemoteRecords.Proofs.Text.Cut
import RemoteRecords.Settings.Address

/-!
# Templates and what they are filled with

A template is a row of literal texts and placeholders. As long as no name, no
literal and no value has a brace, filling in slots one after the other is one
substitution: each placeholder becomes the value of the first slot of its name,
or stays. Percent-encoded keys have no braces, whatever the keys are.

* `replace_text`: one slot fills the placeholders of its name and nothing else;
* `fill_text`: filling in slots is one substitution;
* `isBraceFree_encode`, `slash_not_mem_encode`: what percent-encoding keeps out.
-/

namespace RemoteRecords

/-- A text without braces. -/
def IsBraceFree (s : List Char) : Prop :=
  '\x7b' ∉ s ∧ '\x7d' ∉ s

instance (s : List Char) : Decidable (IsBraceFree s) := by
  unfold IsBraceFree; infer_instance

namespace Slot

/-- A slot of which neither the name nor the value has a brace. -/
def IsBraceFree (v : Slot) : Prop :=
  RemoteRecords.IsBraceFree v.1.toList ∧ RemoteRecords.IsBraceFree v.2

end Slot

/-- A piece of a template. -/
inductive Piece
  | literal (s : List Char)
  | hole (name : String)
deriving DecidableEq, Repr

namespace Piece

/-- The text of a piece in its template. -/
def text : Piece → List Char
  | literal s => s
  | hole name => placeholder name

/-- What a piece becomes when all slots are filled in at once. -/
def expand (slots : List Slot) : Piece → List Char
  | literal s => s
  | hole name => (slots.lookup name).getD (placeholder name)

/-- What a piece becomes when one slot is filled in. -/
def put (v : Slot) : Piece → Piece
  | literal s => .literal s
  | hole name => if name = v.1 then .literal v.2 else .hole name

/-- A piece of which neither the literal nor the name has a brace. -/
def IsBraceFree : Piece → Prop
  | literal s => RemoteRecords.IsBraceFree s
  | hole name => RemoteRecords.IsBraceFree name.toList

instance : (p : Piece) → Decidable p.IsBraceFree
  | literal s => inferInstanceAs (Decidable (RemoteRecords.IsBraceFree s))
  | hole name => inferInstanceAs (Decidable (RemoteRecords.IsBraceFree name.toList))

theorem isBraceFree_put {v : Slot} (hv : RemoteRecords.IsBraceFree v.2) {p : Piece}
    (hp : p.IsBraceFree) : (p.put v).IsBraceFree := by
  cases p with
  | literal s => exact hp
  | hole name =>
    rw [put]
    split
    · exact hv
    · exact hp

theorem expand_put (v : Slot) (slots : List Slot) (p : Piece) :
    (p.put v).expand slots = p.expand (v :: slots) := by
  cases p with
  | literal s => rfl
  | hole name =>
    obtain ⟨key, value⟩ := v
    by_cases h : name = key
    · simp [put, expand, h]
    · have hb : (name == key) = false := by simpa using h
      simp [put, expand, h, List.lookup_cons, hb]

end Piece

/-! ## One slot -/

namespace Text

theorem replaceFrom_append_of_not_mem {c : Char} {s : List Char} (word new t : List Char)
    (h : c ∉ s) :
    replaceFrom (c :: word) new 0 (s ++ t) = s ++ replaceFrom (c :: word) new 0 t := by
  induction s with
  | nil => rfl
  | cons d rest ih =>
    obtain ⟨hd, hr⟩ := not_or.mp (mt List.mem_cons.mpr h)
    have hp : (c :: word).isPrefixOf (d :: (rest ++ t)) = false := by simp [List.isPrefixOf, hd]
    rw [List.cons_append, replaceFrom, hp, if_neg Bool.false_ne_true, ih hr, List.cons_append]

theorem replaceFrom_skip (word new s t : List Char) :
    replaceFrom word new s.length (s ++ t) = replaceFrom word new 0 t := by
  induction s with
  | nil => rfl
  | cons c rest ih => exact ih

/-- An occurrence of the word at the front is replaced. -/
theorem replaceFrom_word_append (c : Char) (word new t : List Char) :
    replaceFrom (c :: word) new 0 (c :: word ++ t) = new ++ replaceFrom (c :: word) new 0 t := by
  have hp : (c :: word).isPrefixOf (c :: (word ++ t)) = true := by
    rw [List.isPrefixOf_iff_prefix]
    exact ⟨t, rfl⟩
  rw [List.cons_append, replaceFrom, hp, if_pos rfl, List.length_cons, Nat.add_sub_cancel,
    replaceFrom_skip]

end Text

/-- A placeholder of another name is left as it is. -/
theorem replace_placeholder_of_ne {name key : String} (hn : IsBraceFree name.toList)
    (hk : IsBraceFree key.toList) (h : name ≠ key) (value t : List Char) :
    Text.replace (placeholder key) value (placeholder name ++ t) =
      placeholder name ++ Text.replace (placeholder key) value t := by
  have hp : (placeholder key).isPrefixOf ('\x7b' :: (name.toList ++ '\x7d' :: t)) = false := by
    rw [Bool.eq_false_iff]
    intro hp
    obtain ⟨u, hu⟩ := List.isPrefixOf_iff_prefix.mp hp
    simp only [placeholder, List.cons_append, List.append_assoc, List.cons.injEq, true_and,
      List.nil_append] at hu
    exact h (String.toList_injective (Text.append_cons_inj_of_not_mem hk.2 hn.2 hu).1).symm
  have hb : '\x7b' ∉ name.toList ++ ['\x7d'] := by
    rw [List.mem_append, not_or]
    exact ⟨hn.1, by decide⟩
  have he : placeholder name ++ t = '\x7b' :: (name.toList ++ '\x7d' :: t) := by
    simp [placeholder]
  have hrest : Text.replaceFrom (placeholder key) value 0 (name.toList ++ ['\x7d'] ++ t) =
      name.toList ++ ['\x7d'] ++ Text.replaceFrom (placeholder key) value 0 t :=
    Text.replaceFrom_append_of_not_mem _ _ _ hb
  rw [List.append_assoc, List.singleton_append] at hrest
  rw [Text.replace, he, Text.replaceFrom, hp, if_neg Bool.false_ne_true, hrest]
  simp [placeholder, Text.replace]

theorem replace_piece {v : Slot} (hv : v.IsBraceFree) {p : Piece} (hp : p.IsBraceFree)
    (t : List Char) :
    Text.replace (placeholder v.1) v.2 (p.text ++ t) =
      (p.put v).text ++ Text.replace (placeholder v.1) v.2 t := by
  cases p with
  | literal s => exact Text.replaceFrom_append_of_not_mem _ _ _ hp.1
  | hole name =>
    rw [Piece.put]
    split
    · next h =>
      rw [h]
      exact Text.replaceFrom_word_append _ _ _ _
    · next h => exact replace_placeholder_of_ne hp hv.1 h _ _

/-- One slot fills the placeholders of its name and nothing else. -/
theorem replace_text {v : Slot} (hv : v.IsBraceFree) {pieces : List Piece}
    (hp : ∀ p ∈ pieces, p.IsBraceFree) :
    Text.replace (placeholder v.1) v.2 (pieces.flatMap Piece.text) =
      (pieces.map (Piece.put v)).flatMap Piece.text := by
  induction pieces with
  | nil => rfl
  | cons p rest ih =>
    rw [List.flatMap_cons, replace_piece hv (hp p List.mem_cons_self),
      ih fun q hq => hp q (List.mem_cons_of_mem _ hq)]
    rfl

/-! ## All slots -/

/-- Filling in slots one after the other is one substitution. -/
theorem fill_text {slots : List Slot} (hv : ∀ v ∈ slots, v.IsBraceFree) {pieces : List Piece}
    (hp : ∀ p ∈ pieces, p.IsBraceFree) :
    fill slots (pieces.flatMap Piece.text) = pieces.flatMap (Piece.expand slots) := by
  induction slots generalizing pieces with
  | nil =>
    have : Piece.expand [] = Piece.text := by
      funext p
      cases p <;> rfl
    rw [fill_nil, this]
  | cons v slots ih =>
    have hvf := hv v List.mem_cons_self
    have hput : ∀ p ∈ pieces.map (Piece.put v), p.IsBraceFree := by
      intro p hm
      obtain ⟨q, hq, rfl⟩ := List.mem_map.mp hm
      exact Piece.isBraceFree_put hvf.2 (hp q hq)
    have hstep : fill (v :: slots) (pieces.flatMap Piece.text) =
        fill slots (Text.replace (placeholder v.1) v.2 (pieces.flatMap Piece.text)) := rfl
    rw [hstep, replace_text hvf hp, ih (fun w hw => hv w (List.mem_cons_of_mem _ hw)) hput,
      List.flatMap_map]
    simp only [Piece.expand_put]

/-! ## Percent-encoded keys -/

namespace Text.Percent

theorem hexChar_isUnreserved : ∀ n, n < 16 → isUnreserved (hexChar 'A' n) = true := by decide

/-- Percent-encoding writes unreserved characters and percent signs only. -/
theorem isUnreserved_of_mem_encode {c : Char} {s : List Char} (h : c ∈ encode s) :
    isUnreserved c = true ∨ c = '%' := by
  obtain ⟨d, -, hd⟩ := List.mem_flatMap.mp h
  unfold encodeChar at hd
  split at hd
  · next hu =>
    rw [List.mem_singleton.mp hd]
    exact .inl hu
  · obtain ⟨b, -, hb⟩ := List.mem_flatMap.mp hd
    have hlt := b.toNat_lt
    simp only [escape, List.mem_cons, List.not_mem_nil, or_false] at hb
    rcases hb with rfl | rfl | rfl
    · exact .inr rfl
    · exact .inl (hexChar_isUnreserved _ (by omega))
    · exact .inl (hexChar_isUnreserved _ (by omega))

theorem not_mem_encode {c : Char} (hc : isUnreserved c = false) (hp : c ≠ '%') (s : List Char) :
    c ∉ encode s := by
  intro h
  rcases isUnreserved_of_mem_encode h with hu | he
  · rw [hc] at hu
    exact Bool.false_ne_true hu
  · exact hp he

theorem isBraceFree_encode (s : List Char) : IsBraceFree (encode s) :=
  ⟨not_mem_encode (by decide) (by decide) s, not_mem_encode (by decide) (by decide) s⟩

theorem slash_not_mem_encode (s : List Char) : '/' ∉ encode s :=
  not_mem_encode (by decide) (by decide) s

end Text.Percent

theorem Credentials.isBraceFree_slots (c : Credentials) : ∀ v ∈ c.slots, v.IsBraceFree := by
  intro v hv
  simp only [slots, List.mem_cons, List.not_mem_nil, or_false] at hv
  rcases hv with rfl | rfl
  · exact ⟨show IsBraceFree "csk".toList by decide, Text.Percent.isBraceFree_encode _⟩
  · exact ⟨show IsBraceFree "aci".toList by decide, Text.Percent.isBraceFree_encode _⟩

end RemoteRecords
