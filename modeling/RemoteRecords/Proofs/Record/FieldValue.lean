import Mathlib.Data.List.Forall2
import RemoteRecords.Record.FieldValue

/-!
# Fields in pages and in single records

An object of an answer becomes a record field by field, in the order of its members,
and what becomes of a field depends on its value alone. A page leaves out empty
objects only. A single record leaves out every object that has neither an array nor a
string first, so its fields are among those of the page; where both keep a field they
differ only on an object with a string first.

* `FieldValue.unwrapped`: what the two make of one value;
* `Record.keys_ofMembers`, `Record.lookup_ofMembers`: a record, field by field;
* `Record.fields_kept`: the two records of one object.
-/

namespace RemoteRecords

/-! ## Values and what stands first in them -/

namespace Json

/-- Whether a value is an object. -/
def isObject (v : Json) : Bool :=
  v.members?.isSome

/-- The first value in an object. -/
def first? (v : Json) : Option Json :=
  (v.members?.bind List.head?).map Prod.snd

/-- Whether a value is an object without members. -/
def isEmptyObject (v : Json) : Bool :=
  v.isObject && v.first?.isNone

/-- Whether a value is an object that has neither an array nor a string first. -/
def isUnusable (v : Json) : Bool :=
  v.isObject && !v.first?.any fun first => first.items?.isSome || first.text?.isSome

/-- Whether a value is an array with the given items, or an object that has it first. -/
def HoldsList (v : Json) (items : List Json) : Prop :=
  v = .array items ∨ v.first? = some (.array items)

/-- An item of an array and its text: a string is itself, any other item is written as
JSON. -/
inductive HasText : Json → String → Prop
  | text (s : String) : HasText (.text s) s
  | other {v : Json} (h : ∀ s, v ≠ .text s) : HasText v (String.ofList v.compact)

@[simp]
theorem first?_object_nil : first? (.object []) = none := rfl

@[simp]
theorem first?_object_cons (m : String × Json) (rest : List (String × Json)) :
    first? (.object (m :: rest)) = some m.2 := rfl

theorem first?_of_isObject_eq_false {v : Json} (h : v.isObject = false) : v.first? = none := by
  have hm : v.members? = none := Option.isNone_iff_eq_none.mp (Option.isSome_eq_false_iff.mp h)
  rw [first?, hm]
  rfl

theorem isUnusable_of_isEmptyObject {v : Json} (h : v.isEmptyObject = true) :
    v.isUnusable = true := by
  obtain ⟨ho, hf⟩ := Bool.and_eq_true_iff.mp h
  rw [isUnusable, ho, Option.isNone_iff_eq_none.mp hf]
  rfl

theorem hasText_iff {v : Json} {s : String} : HasText v s ↔ s = itemText v := by
  constructor
  · rintro (s | h)
    · rfl
    · cases v with
      | text s => exact absurd rfl (h s)
      | _ => rfl
  · rintro rfl
    cases v with
    | text s => exact .text s
    | _ => exact .other fun s => by simp

theorem forall₂_hasText_iff {items : List Json} {texts : List String} :
    List.Forall₂ HasText items texts ↔ texts = items.map itemText := by
  induction items generalizing texts with
  | nil => rw [List.forall₂_nil_left_iff, List.map_nil]
  | cons v rest ih => simp [List.forall₂_cons_left_iff, hasText_iff, ih]

end Json

/-! ## One field -/

namespace FieldValue

open Json

/-- What a page and a single record make of a value, if they keep it. -/
structure Unwrapped (v : Json) (page single : Option FieldValue) : Prop where
  /-- A value that is no object is the same in both. -/
  plain : v.isObject = false → page = some (ofJson v) ∧ single = some (ofJson v)
  /-- Of an object with a string first, a page keeps all, a single record the string. -/
  text : ∀ s, v.first? = some (.text s) → page = some (.structured v) ∧ single = some (.text s)
  /-- Any other value that both keep is the same in both. -/
  same : (∀ s, v.first? ≠ some (.text s)) → ∀ a ∈ page, ∀ b ∈ single, a = b
  /-- A list has a text for each item of an array, in their order. -/
  pageList : ∀ texts, page = some (.list texts) ↔
    ∃ items, v.HoldsList items ∧ List.Forall₂ HasText items texts
  singleList : ∀ texts, single = some (.list texts) ↔
    ∃ items, v.HoldsList items ∧ List.Forall₂ HasText items texts

/-- The list of the texts of an array. -/
theorem list_iff_of_holdsList {v : Json} {items : List Json} (h : ∀ l, v.HoldsList l ↔ l = items)
    (texts : List String) :
    some (FieldValue.list (items.map itemText)) = some (.list texts) ↔
      ∃ l, v.HoldsList l ∧ List.Forall₂ HasText l texts := by
  simp [h, forall₂_hasText_iff, eq_comm]

/-- No array, and no list. -/
theorem list_iff_of_not_holdsList {v : Json} (h : ∀ l, ¬v.HoldsList l) {kept : Option FieldValue}
    (hk : ∀ texts, kept ≠ some (.list texts)) (texts : List String) :
    kept = some (.list texts) ↔ ∃ l, v.HoldsList l ∧ List.Forall₂ HasText l texts := by
  simp [h, hk]

theorem ofJson_list_iff {v : Json} (h : v.isObject = false) (texts : List String) :
    some (ofJson v) = some (.list texts) ↔
      ∃ items, v.HoldsList items ∧ List.Forall₂ HasText items texts := by
  have hl : ∀ items, v.HoldsList items ↔ v = .array items := by
    simp [HoldsList, first?_of_isObject_eq_false h]
  cases v with
  | object members => cases h
  | array items => exact list_iff_of_holdsList (by simp [hl, eq_comm]) texts
  | _ => exact list_iff_of_not_holdsList (by simp [hl]) (by simp [ofJson]) texts

theorem unwrapped_of_plain {v : Json} (h : v.isObject = false) :
    Unwrapped v (some (ofJson v)) (some (ofJson v)) where
  plain _ := ⟨rfl, rfl⟩
  text s hs := by
    rw [first?_of_isObject_eq_false h] at hs
    cases hs
  same _ a ha b hb := by
    cases ha
    cases hb
    rfl
  pageList := ofJson_list_iff h
  singleList := ofJson_list_iff h

theorem unwrapped_object_nil : Unwrapped (.object []) none none where
  plain h := by cases h
  text s h := by cases h
  same _ a ha := by cases ha
  pageList := list_iff_of_not_holdsList (by simp [HoldsList]) (by simp)
  singleList := list_iff_of_not_holdsList (by simp [HoldsList]) (by simp)

section First

variable (name : String) (rest : List (String × Json))

theorem unwrapped_of_array (items : List Json) :
    Unwrapped (.object ((name, .array items) :: rest)) (some (.list (items.map itemText)))
      (some (.list (items.map itemText))) where
  plain h := by cases h
  text s h := by cases h
  same _ a ha b hb := by
    cases ha
    cases hb
    rfl
  pageList := list_iff_of_holdsList (by simp [HoldsList, eq_comm])
  singleList := list_iff_of_holdsList (by simp [HoldsList, eq_comm])

theorem unwrapped_of_text (s : String) :
    Unwrapped (.object ((name, .text s) :: rest))
      (some (.structured (.object ((name, .text s) :: rest)))) (some (.text s)) where
  plain h := by cases h
  text t h := by
    cases h
    exact ⟨rfl, rfl⟩
  same h := absurd rfl (h s)
  pageList := list_iff_of_not_holdsList (by simp [HoldsList]) (by simp)
  singleList := list_iff_of_not_holdsList (by simp [HoldsList]) (by simp)

/-- An object with another value first is kept by a page only. -/
theorem unwrapped_of_other {first : Json} (ha : ∀ items, first ≠ .array items)
    (ht : ∀ s, first ≠ .text s) :
    Unwrapped (.object ((name, first) :: rest))
      (some (.structured (.object ((name, first) :: rest)))) none where
  plain h := by cases h
  text s h := absurd (Option.some.inj h) (ht s)
  same _ _ _ b hb := by cases hb
  pageList := list_iff_of_not_holdsList (by simp [HoldsList, ha]) (by simp)
  singleList := list_iff_of_not_holdsList (by simp [HoldsList, ha]) (by simp)

end First

/-- What a page and a single record make of a value, by what stands first in it. -/
theorem unwrapped (v : Json) : Unwrapped v (ofPage? v) (ofSingle? v) := by
  cases v with
  | object members =>
    match members with
    | [] => exact unwrapped_object_nil
    | (name, .array items) :: rest => exact unwrapped_of_array name rest items
    | (name, .text s) :: rest => exact unwrapped_of_text name rest s
    | (name, .null) :: rest | (name, .bool _) :: rest | (name, .number _) :: rest
    | (name, .object _) :: rest => exact unwrapped_of_other name rest nofun nofun
  | _ => exact unwrapped_of_plain rfl

/-- A page leaves out empty objects only. -/
theorem isSome_ofPage? (v : Json) : (ofPage? v).isSome = !v.isEmptyObject := by
  cases v with
  | object members =>
    match members with
    | [] => rfl
    | (_, .array _) :: _ | (_, .text _) :: _ | (_, .null) :: _ | (_, .bool _) :: _
    | (_, .number _) :: _ | (_, .object _) :: _ => rfl
  | _ => rfl

/-- A single record leaves out the objects without an array or a string to take. -/
theorem isSome_ofSingle? (v : Json) : (ofSingle? v).isSome = !v.isUnusable := by
  cases v with
  | object members =>
    match members with
    | [] => rfl
    | (_, .array _) :: _ | (_, .text _) :: _ | (_, .null) :: _ | (_, .bool _) :: _
    | (_, .number _) :: _ | (_, .object _) :: _ => rfl
  | _ => rfl

end FieldValue

/-! ## All fields -/

namespace Record

open FieldValue

theorem keys_ofMembers (unwrap? : Json → Option FieldValue) (members : List (String × Json)) :
    (ofMembers unwrap? members).map Prod.fst =
      (members.filter fun m => (unwrap? m.2).isSome).map Prod.fst := by
  induction members with
  | nil => rfl
  | cons m rest ih =>
    rw [ofMembers] at ih ⊢
    cases h : unwrap? m.2 <;> simp [h, ih]

theorem ofMembers_cons (unwrap? : Json → Option FieldValue) (name : String) (v : Json)
    (rest : List (String × Json)) :
    ofMembers unwrap? ((name, v) :: rest) =
      ((unwrap? v).map (name, ·)).toList ++ ofMembers unwrap? rest := by
  rw [ofMembers, List.filterMap_cons]
  cases unwrap? v <;> rfl

/-- The value of a name in a record is what becomes of its value in the object. -/
theorem lookup_ofMembers (unwrap? : Json → Option FieldValue) {members : List (String × Json)}
    (h : (members.map Prod.fst).Nodup) (key : String) :
    (ofMembers unwrap? members).lookup key = (members.lookup key).bind unwrap? := by
  induction members with
  | nil => rfl
  | cons m rest ih =>
    obtain ⟨name, v⟩ := m
    obtain ⟨hname, hrest⟩ := List.nodup_cons.mp h
    rw [ofMembers_cons, List.lookup_append, ih hrest]
    by_cases hk : key = name
    · subst hk
      -- A name that is left out here does not come again.
      have hnone : rest.lookup key = none := by
        refine List.lookup_eq_none_iff.mpr fun m hm => ?_
        rw [bne_iff_ne]
        intro he
        exact hname (List.mem_map.mpr ⟨m, hm, he.symm⟩)
      rw [List.lookup_cons_self, Option.bind_some, hnone]
      cases unwrap? v <;> simp
    · have hb : (key == name) = false := beq_eq_false_iff_ne.mpr hk
      rw [List.lookup_cons, hb]
      cases unwrap? v <;> simp [List.lookup_cons, hb]

/-- A page and a single record of the same object. Each holds the names of the object in
their order, and leaves out nothing but empty objects and objects without an array or a
string first; so the single record holds no field that the page does not. -/
theorem fields_kept {members : List (String × Json)} (h : (members.map Prod.fst).Nodup) :
    (ofPageItem members).map Prod.fst =
        (members.filter fun m => !m.2.isEmptyObject).map Prod.fst ∧
      (ofSingle members).map Prod.fst =
        (members.filter fun m => !m.2.isUnusable).map Prod.fst ∧
      ((ofSingle members).map Prod.fst).Sublist ((ofPageItem members).map Prod.fst) ∧
      ((ofPageItem members).map Prod.fst).Nodup ∧ ((ofSingle members).map Prod.fst).Nodup ∧
      ∀ key v, members.lookup key = some v →
        Unwrapped v ((ofPageItem members).lookup key) ((ofSingle members).lookup key) := by
  have hpage : (ofPageItem members).map Prod.fst =
      (members.filter fun m => !m.2.isEmptyObject).map Prod.fst := by
    simp only [ofPageItem, keys_ofMembers, isSome_ofPage?]
  have hsingle : (ofSingle members).map Prod.fst =
      (members.filter fun m => !m.2.isUnusable).map Prod.fst := by
    simp only [ofSingle, keys_ofMembers, isSome_ofSingle?]
  have hsub : ((ofSingle members).map Prod.fst).Sublist ((ofPageItem members).map Prod.fst) := by
    rw [hpage, hsingle]
    refine (List.monotone_filter_right members fun m hm => ?_).map Prod.fst
    -- An empty object has neither an array nor a string first.
    cases he : m.2.isEmptyObject
    · rfl
    · rw [Json.isUnusable_of_isEmptyObject he] at hm
      cases hm
  have hnodup : ((ofPageItem members).map Prod.fst).Nodup := by
    rw [hpage]
    exact h.sublist (List.filter_sublist.map Prod.fst)
  refine ⟨hpage, hsingle, hsub, hnodup, hnodup.sublist hsub, fun key v hv => ?_⟩
  rw [ofPageItem, ofSingle, lookup_ofMembers _ h, lookup_ofMembers _ h, hv]
  exact unwrapped v

/-- A member of each kind. -/
def sampleMembers : List (String × Json) := [
  ("name", .text "Eleazar"),
  ("langs", .object [("value", .array [.text "en", .number (.integer 3 (by decide))])]),
  ("country", .object [("value", .text "ve"), ("text", .text "Venezuela")]),
  ("score", .object [("value", .number (.integer 9 (by decide)))]),
  ("none", .object []),
  ("deleted", .null)]

theorem fields_kept_sample :
    (sampleMembers.map Prod.fst).Nodup ∧
      (ofPageItem sampleMembers).map Prod.fst = ["name", "langs", "country", "score", "deleted"] ∧
      (ofSingle sampleMembers).map Prod.fst = ["name", "langs", "country", "deleted"] ∧
      (ofSingle sampleMembers).lookup "langs" = some (.list ["en", "3"]) ∧
      (ofSingle sampleMembers).lookup "country" = some (.text "ve") := by
  have hn : (sampleMembers.map Prod.fst).Nodup := by decide
  obtain ⟨hpage, hsingle, -, -, -, hvalue⟩ := fields_kept hn
  refine ⟨hn, hpage.trans (by decide), hsingle.trans (by decide), ?_, ?_⟩
  · have hthree : Json.HasText (.number (.integer 3 (by decide))) "3" := .other nofun
    exact ((hvalue "langs" _ rfl).singleList _).mpr
      ⟨_, .inr rfl, .cons (.text "en") (.cons hthree .nil)⟩
  · exact ((hvalue "country" _ rfl).text "ve" rfl).2

end Record

end RemoteRecords
