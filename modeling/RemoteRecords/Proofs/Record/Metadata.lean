import Mathlib.Data.List.Forall2
import RemoteRecords.Proofs.Text.Integer
import RemoteRecords.Record.Metadata

/-!
# Integers in two spellings

The service sends an integer as a number or as the text of its digits. Each reader of
metadata takes both and makes the same of them: of a number as an integer, as a truth
value, and as text. An integer beyond 64 bits with a sign is none in either spelling.

The readers look at an object through its members one at a time, so what they make of an
object is the same if each of its members is (`Json.Memberwise.reader_eq`). That is used
for a model, for a choice, for a field, and for the answers that hold them.

* `Metadata.integer?_eq_some_iff`: what counts as an integer;
* `Model.Respelled`, `Choice.Respelled`, `Field.Respelled`: what differs in spelling only;
* `Field.ofJson_eq_of_respelled`: a field does not depend on the spelling.
-/

namespace RemoteRecords

namespace Metadata

/-- The values that count as an integer: the number, and each of its texts with blanks
around it. -/
inductive IsInteger : Json → Int64 → Prop
  | number {n : Int64} (h : Int64.minValue.toInt ≤ n.toInt ∧ n.toInt < UInt64.size) :
    IsInteger (.number (.integer n.toInt h)) n
  | text {s : String} {n : Int64} (h : Text.SpellsPadded s.toList n.toInt) : IsInteger (.text s) n

theorem int64?_integer_eq_some_iff {k : Int}
    (h : Int64.minValue.toInt ≤ k ∧ k < UInt64.size) {n : Int64} :
    (Json.Number.integer k h).int64? = some n ↔ k = n.toInt := by
  rw [Json.Number.int64?]
  constructor
  · intro hn
    split at hn
    · next hk =>
      have := h.1
      rw [Int64.toInt_minValue] at this
      rw [Int64.toInt_maxValue] at hk
      rw [← Option.some.inj hn, Int64.toInt_ofInt_of_le this (by omega)]
    · cases hn
  · rintro rfl
    rw [if_pos n.toInt_le, Int64.ofInt_toInt]

theorem integer?_text_eq_some_iff {s : String} {n : Int64} :
    integer? (.text s) = some n ↔ Text.SpellsPadded s.toList n.toInt := by
  rw [← Text.readInt64_trim_eq_ok_iff, integer?]
  cases Text.readInt64 (Text.trim s.toList) with
  | error e => simp [Except.toOption]
  | ok k => simp [Except.toOption]

theorem integer?_eq_some_iff {v : Json} {n : Int64} : integer? v = some n ↔ IsInteger v n := by
  constructor
  · intro h
    unfold integer? at h
    split at h
    · next m =>
      cases m with
      | integer k hk =>
        obtain rfl := (int64?_integer_eq_some_iff hk).mp h
        exact .number hk
      | double x => cases h
    · exact .text (integer?_text_eq_some_iff.mp h)
    · cases h
  · intro h
    cases h with
    | number h => exact (int64?_integer_eq_some_iff h).mpr rfl
    | text h => exact integer?_text_eq_some_iff.mpr h

/-- A member that counts as an integer. -/
def HasInteger (name : String) (v : Json) (n : Int64) : Prop :=
  ∃ member, v.get? name = some member ∧ IsInteger member n

theorem integerMember_eq_some_iff {name : String} {v : Json} {n : Int64} :
    integerMember name v = some n ↔ HasInteger name v n := by
  simp only [integerMember, Option.bind_eq_some_iff, integer?_eq_some_iff, HasInteger]

theorem integerMember_eq_none_iff {name : String} {v : Json} :
    integerMember name v = none ↔ ∀ n, ¬HasInteger name v n := by
  simp only [Option.eq_none_iff_forall_ne_some, ne_eq, integerMember_eq_some_iff]

/-- An integer beyond 64 bits with a sign counts as none. -/
theorem not_hasInteger_of_lt {name : String} {v : Json} {k : Int}
    {h : Int64.minValue.toInt ≤ k ∧ k < UInt64.size}
    (hv : v.get? name = some (.number (.integer k h))) (hk : Int64.maxValue.toInt < k) (n : Int64) :
    ¬HasInteger name v n := by
  rintro ⟨member, hm, hn⟩
  obtain rfl := Option.some.inj (hv.symm.trans hm)
  cases hn
  exact absurd n.toInt_le (Int.not_le.mpr hk)

end Metadata

/-! ## Values that differ in spelling -/

namespace Json

/-- The same value, or the digits of an integer as text in the place of the integer. -/
inductive Respelled : Json → Json → Prop
  | same (v : Json) : Respelled v v
  | digits {n : Int} (h : Int64.minValue.toInt ≤ n ∧ n < UInt64.size) :
    Respelled (number (.integer n h)) (text (String.ofList (Text.decimalInt n)))

namespace Respelled

variable {v w : Json}

theorem integer?_eq (h : Respelled v w) : Metadata.integer? v = Metadata.integer? w := by
  cases h with
  | same => rfl
  | digits h =>
    refine Option.ext fun n => ?_
    rw [Metadata.integer?_text_eq_some_iff, String.toList_ofList, Text.spellsPadded_decimalInt_iff,
      eq_comm (a := n.toInt)]
    exact Metadata.int64?_integer_eq_some_iff h

theorem isYes_eq (h : Respelled v w) : Metadata.isYes v = Metadata.isYes w := by
  cases h with
  | same => rfl
  | @digits n h =>
    have hone : String.ofList (Text.decimalInt n) = "1" ↔ n = 1 := by
      constructor
      · intro e
        refine Text.decimalInt_inj ?_
        rw [← String.toList_ofList (l := Text.decimalInt n), e]
        rfl
      · rintro rfl
        rfl
    have htrue : String.ofList (Text.decimalInt n) ≠ "true" := by
      intro e
      refine Text.not_mem_decimalInt (c := 't') rfl (by decide) n ?_
      rw [← String.toList_ofList (l := Text.decimalInt n), e]
      decide
    rw [Metadata.isYes, Metadata.isYes, beq_eq_false_iff_ne.mpr htrue, Bool.or_false,
      Bool.eq_iff_iff, beq_iff_eq, beq_iff_eq, hone, Metadata.int64?_integer_eq_some_iff]
    rfl

end Respelled

/-! ## Member by member, item by item -/

/-- Objects with the same names in the same order, whose values differ by `R`. All other
values are the same. -/
inductive Memberwise (R : String → Json → Json → Prop) : Json → Json → Prop
  | same {v : Json} (h : v.members? = none) : Memberwise R v v
  | object {ms ns : List (String × Json)}
    (h : List.Forall₂ (fun m n => m.1 = n.1 ∧ R m.1 m.2 n.2) ms ns) :
    Memberwise R (object ms) (object ns)

/-- Objects whose values differ by `R` under some names, and not at all under others. -/
def DifferAt (names : List String) (R : Json → Json → Prop) : Json → Json → Prop :=
  Memberwise fun name v w => if name ∈ names then R v w else v = w

/-- Arrays whose items differ by `R`. All other values are the same. -/
inductive Itemwise (R : Json → Json → Prop) : Json → Json → Prop
  | same {v : Json} (h : v.items? = none) : Itemwise R v v
  | array {vs ws : List Json} (h : List.Forall₂ R vs ws) : Itemwise R (array vs) (array ws)

section

variable {R : String → Json → Json → Prop} {S : Json → Json → Prop} {names : List String}
  {v w : Json} {α : Type}

theorem rel_lookup {ms ns : List (String × Json)}
    (h : List.Forall₂ (fun m n => m.1 = n.1 ∧ R m.1 m.2 n.2) ms ns) (name : String) :
    Option.Rel (R name) (ms.lookup name) (ns.lookup name) := by
  induction h with
  | nil => exact .none
  | @cons m n _ _ hmn _ ih =>
    rw [List.lookup_cons, List.lookup_cons, ← hmn.1]
    cases hk : name == m.1 with
    | false => exact ih
    | true =>
      rw [beq_iff_eq] at hk
      subst hk
      exact .some hmn.2

theorem Memberwise.rel_get? (h : Memberwise R v w) (name : String) :
    Option.Rel (R name) (v.get? name) (w.get? name) := by
  cases h with
  | same h =>
    cases v with
    | object ms => cases h
    | _ => exact .none
  | object h => exact rel_lookup h name

theorem eq_of_rel {a b : Option Json} (h : Option.Rel S a b) (read : Option Json → α)
    (hread : ∀ v w, S v w → read (some v) = read (some w)) : read a = read b := by
  cases h with
  | some hab => exact hread _ _ hab
  | none => rfl

/-- What a reader of a member makes of two objects is the same, if it is the same for the
values of that member. -/
theorem Memberwise.reader_eq {name : String} (h : Memberwise R v w) (read : Option Json → α)
    (hread : ∀ a b, R name a b → read (some a) = read (some b)) :
    read (v.get? name) = read (w.get? name) :=
  eq_of_rel (h.rel_get? name) read hread

theorem DifferAt.rel_get? (h : DifferAt names S v w) {name : String} (hn : name ∈ names) :
    Option.Rel S (v.get? name) (w.get? name) := by
  have hrel := Memberwise.rel_get? h name
  simp only [if_pos hn] at hrel
  exact hrel

theorem DifferAt.reader_eq (h : DifferAt names S v w) {name : String} (hn : name ∈ names)
    (read : Option Json → α) (hread : ∀ a b, S a b → read (some a) = read (some b)) :
    read (v.get? name) = read (w.get? name) :=
  eq_of_rel (h.rel_get? hn) read hread

theorem DifferAt.get?_eq (h : DifferAt names S v w) {name : String} (hn : name ∉ names) :
    v.get? name = w.get? name := by
  refine Memberwise.reader_eq h id fun a b hab => ?_
  rw [if_neg hn] at hab
  exact congrArg some hab

theorem map_eq_of_forall₂ {β : Type} {T : β → β → Prop} {xs ys : List β} {f : β → α}
    (h : List.Forall₂ T xs ys) (hf : ∀ x y, T x y → f x = f y) : xs.map f = ys.map f := by
  rw [← List.forall₂_eq_eq_eq, List.forall₂_map_left_iff, List.forall₂_map_right_iff]
  exact h.imp hf

/-- What is made of the members of two objects is the same, if it is the same for each. -/
theorem Memberwise.map_eq {f : Json → α} (h : Memberwise R v w)
    (hf : ∀ name a b, R name a b → f a = f b) :
    v.members?.map (List.map fun m => f m.2) = w.members?.map (List.map fun m => f m.2) := by
  cases h with
  | same => rfl
  | object h => exact congrArg some (map_eq_of_forall₂ h fun m n hmn => hf m.1 m.2 n.2 hmn.2)

/-- What is made of the items of two arrays is the same, if it is the same for each item. -/
theorem Itemwise.map_eq {f : Json → α} (h : Itemwise S v w) (hf : ∀ a b, S a b → f a = f b) :
    v.items?.map (List.map f) = w.items?.map (List.map f) := by
  cases h with
  | same => rfl
  | array h => exact congrArg some (map_eq_of_forall₂ h hf)

end

end Json

/-! ## Models, choices and fields -/

open Metadata

/-- A model of a list whose number is spelled in another way. -/
def Model.Respelled : Json → Json → Prop :=
  Json.DifferAt ["id"] Json.Respelled

theorem Model.integerMember_eq_of_respelled {v w : Json} (h : Model.Respelled v w) :
    integerMember "id" v = integerMember "id" w :=
  h.reader_eq (by decide) (fun member? => member?.bind integer?) fun _ _ hab => hab.integer?_eq

theorem Model.ofJson_eq_of_respelled {v w : Json} (h : Model.Respelled v w) (id : ModelId) :
    Model.ofJson id v = Model.ofJson id w := by
  rw [ofJson, ofJson, textMember, textMember, textMember, textMember, h.get?_eq (by decide),
    h.get?_eq (by decide)]

/-- A choice whose integers are spelled in another way. -/
def Choice.Respelled : Json → Json → Prop :=
  Json.DifferAt ["value", "text"] Json.Respelled

theorem Choice.ofJson_eq_of_respelled {v w : Json} (h : Choice.Respelled v w) :
    Choice.ofJson v = Choice.ofJson w := by
  have hmember : ∀ name ∈ ["value", "text"], scalarMember name v = scalarMember name w := by
    intro name hn
    have hrel := h.rel_get? hn
    unfold scalarMember
    generalize v.get? name = a, w.get? name = b at hrel ⊢
    cases hrel with
    | none => rfl
    | some hab => cases hab <;> rfl
  rw [ofJson, ofJson, hmember "value" (by decide), hmember "text" (by decide)]

/-- A field whose integers are spelled in another way, those of its choices included. -/
def Field.Respelled : Json → Json → Prop :=
  Json.Memberwise fun name v w =>
    if name ∈ ["id", "field_type", "uniqueness", "required"] then v.Respelled w
    else if name = "items" then Json.Itemwise Choice.Respelled v w
    else v = w

/-- What is read of a field does not depend on the spelling of its integers. -/
theorem Field.ofJson_eq_of_respelled {v w : Json} (h : Field.Respelled v w) (model : ModelId) :
    Field.ofJson model v = Field.ofJson model w := by
  have hinteger : ∀ name ∈ ["id", "field_type"], integerMember name v = integerMember name w := by
    intro name hn
    have hname : name ∈ ["id", "field_type", "uniqueness", "required"] :=
      List.mem_append_left ["uniqueness", "required"] hn
    refine h.reader_eq (fun member? => member?.bind integer?) fun a b hab => ?_
    rw [if_pos hname] at hab
    exact hab.integer?_eq
  have hflag : ∀ name ∈ ["uniqueness", "required"], flagMember name v = flagMember name w := by
    intro name hn
    have hname : name ∈ ["id", "field_type", "uniqueness", "required"] :=
      List.mem_append_right ["id", "field_type"] hn
    refine h.reader_eq (fun member? => (member?.map isYes).getD false) fun a b hab => ?_
    rw [if_pos hname] at hab
    exact congrArg (fun yes => (some yes).getD false) hab.isYes_eq
  have htext : ∀ name ∈ ["identifier", "label", "comment"],
      textMember name v = textMember name w := by
    intro name hn
    have hother : name ∉ ["id", "field_type", "uniqueness", "required"] ∧ name ≠ "items" := by
      revert name
      decide
    refine h.reader_eq (fun member? => member?.bind Json.text?) fun a b hab => ?_
    rw [if_neg hother.1, if_neg hother.2] at hab
    rw [hab]
  have hchoices : (((v.get? "items").bind Json.items?).getD []).map Choice.ofJson =
      (((w.get? "items").bind Json.items?).getD []).map Choice.ofJson := by
    have hmap : ∀ items? : Option (List Json),
        (items?.getD []).map Choice.ofJson = (items?.map (List.map Choice.ofJson)).getD [] :=
      fun items? => (Option.getD_map _ [] items?).symm
    refine h.reader_eq (fun member? => ((member?.bind Json.items?).getD []).map Choice.ofJson)
      fun a b hab => ?_
    rw [if_neg (by decide), if_pos rfl] at hab
    rw [hmap, hmap, Option.bind_some, Option.bind_some,
      hab.map_eq fun _ _ => Choice.ofJson_eq_of_respelled]
  rw [ofJson, ofJson, hinteger "id" (by decide), hinteger "field_type" (by decide),
    hflag "uniqueness" (by decide), hflag "required" (by decide), htext "identifier" (by decide),
    htext "label" (by decide), htext "comment" (by decide), hchoices]

end RemoteRecords
