import RemoteRecords.Json.Value

/-!
# Fields of a record

The service wraps the values of fields in several shapes. A record is the list
of its fields in the order of the answer, each with its value unwrapped. Pages
and single records unwrap objects differently: a list under the first name is
taken in both, a string only in single records, and any other object is kept
whole in pages and left out of single records. Empty objects are left out.

* `FieldValue.ofPage?_eq_none_iff`: the fields that a page leaves out;
* `FieldValue.ofPage?_eq_ofSingle?`: the two agree on everything but objects.
-/

namespace RemoteRecords

/-- The value of a field. -/
inductive FieldValue
  | text (s : String)
  | list (items : List String)
  | number (n : Json.Number)
  | flag (b : Bool)
  | absent
  /-- An object, as it was received. -/
  | structured (value : Json)

/-- The fields of a record in their order. -/
abbrev Record := List (String × FieldValue)

/-- An item of a list as text: a string is itself, all else is written as JSON. -/
def itemText : Json → String
  | .text s => s
  | v => String.ofList v.compact

namespace FieldValue

/-- The value of a field that is not wrapped. -/
def ofJson : Json → FieldValue
  | .text s => text s
  | .number n => number n
  | .bool b => flag b
  | .null => absent
  | .array items => list (items.map itemText)
  | .object members => structured (.object members)

/-- The value of a field in a page of records. -/
def ofPage? : Json → Option FieldValue
  | .object [] => none
  | .object ((_, .array items) :: _) => some (list (items.map itemText))
  | v => some (ofJson v)

/-- The value of a field in a record that was loaded by itself. -/
def ofSingle? : Json → Option FieldValue
  | .object ((_, .array items) :: _) => some (list (items.map itemText))
  | .object ((_, .text s) :: _) => some (text s)
  | .object _ => none
  | v => some (ofJson v)

theorem ofPage?_eq_none_iff (v : Json) : ofPage? v = none ↔ v = .object [] := by
  unfold ofPage?
  split <;> simp_all

theorem ofPage?_eq_ofSingle? {v : Json} (h : ∀ members, v ≠ .object members) :
    ofPage? v = ofSingle? v := by
  cases v with
  | object members => exact absurd rfl (h members)
  | _ => rfl

end FieldValue

/-- The record with the given members, each unwrapped by `unwrap?`. -/
def Record.ofMembers (unwrap? : Json → Option FieldValue) (members : List (String × Json)) :
    Record :=
  members.filterMap fun m => (unwrap? m.2).map (m.1, ·)

/-- A record of a page. -/
def Record.ofPageItem (members : List (String × Json)) : Record :=
  ofMembers FieldValue.ofPage? members

/-- A record that was loaded by itself. -/
def Record.ofSingle (members : List (String × Json)) : Record :=
  ofMembers FieldValue.ofSingle? members

end RemoteRecords
