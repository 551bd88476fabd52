import RemoteRecords.Query.Clause
import RemoteRecords.Record.FieldValue
import RemoteRecords.Text.Blank

/-!
# Models and their fields

What the service tells about models. It sends integers as numbers or as text,
truth values also as `1` or `"true"`, and leaves members out; each reader takes
every spelling and has a value for what is missing.

* `Metadata.textMember_eq_some_iff`: text is read from strings only, as it is;
* `FieldType.ofCode_code`: the code of a type leads back to it;
* `FieldType.ofCode_of_unknown`: an unknown code means a number.
-/

namespace RemoteRecords

/-- A model, the counterpart of a table. -/
structure Model where
  id : ModelId
  name : Option String
  description : Option String
deriving DecidableEq, Repr

/-- The type of a field. -/
inductive FieldType
  | text
  | number
  | checkbox
  | radioButton
  | select
  | selectMultiSelection
  | textarea
  | bigText
  | password
  | date
deriving DecidableEq, Repr

/-- The type with a code; unknown codes are numbers. -/
def FieldType.ofCode (code : Int64) : FieldType :=
  if code = 1 then text
  else if code = 2 then checkbox
  else if code = 3 then radioButton
  else if code = 4 then select
  else if code = 5 then selectMultiSelection
  else if code = 6 then textarea
  else if code = 7 then bigText
  else if code = 8 then password
  else if code = 9 then date
  else number

/-- The code of a type. -/
def FieldType.code : FieldType → Int64
  | text => 1
  | checkbox => 2
  | radioButton => 3
  | select => 4
  | selectMultiSelection => 5
  | textarea => 6
  | bigText => 7
  | password => 8
  | date => 9
  | number => 10

/-- One of the choices that a field offers. -/
structure Choice where
  value : String
  text : String
deriving DecidableEq, Repr

/-- A field of a model. -/
structure Field where
  id : Int64
  identifier : Option String
  label : Option String
  comment : Option String
  unique : Bool
  required : Bool
  type : FieldType
  choices : List Choice
  model : ModelId
deriving DecidableEq, Repr

namespace Metadata

/-! ## Members in their spellings -/

/-- A member that is a string. -/
def textMember (name : String) (v : Json) : Option String :=
  (v.get? name).bind Json.text?

theorem textMember_eq_some_iff {name : String} {v : Json} {s : String} :
    textMember name v = some s ↔ v.get? name = some (.text s) := by
  simp only [textMember, Option.bind_eq_some_iff, Json.text?_eq_some_iff, exists_eq_right]

/-- An integer, as a number or as text with blanks around it. -/
def integer? : Json → Option Int64
  | .number n => n.int64?
  | .text s => (Text.readInt64 (Text.trim s.toList)).toOption
  | _ => none

/-- A member that is an integer in either spelling. -/
def integerMember (name : String) (v : Json) : Option Int64 :=
  (v.get? name).bind integer?

/-- Whether a value means yes. -/
def isYes : Json → Bool
  | .bool b => b
  | .number n => n.int64? == some 1
  | .text s => s == "1" || s == "true"
  | _ => false

/-- A member that means yes; a missing one means no. -/
def flagMember (name : String) (v : Json) : Bool :=
  ((v.get? name).map isYes).getD false

/-- Any member but null as text; a missing one is empty. -/
def scalarMember (name : String) (v : Json) : String :=
  match v.get? name with
  | none | some .null => ""
  | some member => itemText member

end Metadata

open Metadata

/-- A choice from an answer. -/
def Choice.ofJson (v : Json) : Choice :=
  ⟨scalarMember "value" v, scalarMember "text" v⟩

/-- A field from an answer. -/
def Field.ofJson (model : ModelId) (v : Json) : Field where
  id := (integerMember "id" v).getD (-1)
  identifier := textMember "identifier" v
  label := textMember "label" v
  comment := textMember "comment" v
  unique := flagMember "uniqueness" v
  required := flagMember "required" v
  type := .ofCode ((integerMember "field_type" v).getD 0)
  choices := (((v.get? "items").bind Json.items?).getD []).map Choice.ofJson
  model := model

/-- A model from an answer. -/
def Model.ofJson (id : ModelId) (v : Json) : Model :=
  ⟨id, textMember "name" v, textMember "description" v⟩

theorem FieldType.ofCode_code (t : FieldType) : ofCode t.code = t := by
  cases t <;> rfl

theorem FieldType.ofCode_of_unknown {code : Int64} (h : ∀ t, t ≠ number → code ≠ t.code) :
    ofCode code = number := by
  have h1 := h text (by decide)
  have h2 := h checkbox (by decide)
  have h3 := h radioButton (by decide)
  have h4 := h select (by decide)
  have h5 := h selectMultiSelection (by decide)
  have h6 := h textarea (by decide)
  have h7 := h bigText (by decide)
  have h8 := h password (by decide)
  have h9 := h date (by decide)
  simp only [FieldType.code] at h1 h2 h3 h4 h5 h6 h7 h8 h9
  simp [ofCode, h1, h2, h3, h4, h5, h6, h7, h8, h9]

end RemoteRecords
