import RemoteRecords.Query.Fragment
import RemoteRecords.Text.Integer

/-!
# Clauses

Joins, orderings, groupings and projections of a query. Each writes a member of
its own, and not a filter, so its text is the same wherever it stands.

* `JoinKind.name_inj`: the kinds of joins have different names;
* `columnsFragment_eq_nil_iff`: only a projection without columns writes nothing.
-/

namespace RemoteRecords

/-- The number of a model at the service. -/
abbrev ModelId := Int64

/-- The digits of a model's number. -/
def ModelId.text (id : ModelId) : List Char :=
  Text.decimalInt id.toInt

/-- Which side of a join keeps the records without a partner. -/
inductive JoinKind
  | left
  | right
  | inner
  | leftOuter
  | rightOuter
deriving DecidableEq, Repr

/-- The name of a kind of join. -/
def JoinKind.name : JoinKind → String
  | left => "left"
  | right => "right"
  | inner => "inner"
  | leftOuter => "left outer"
  | rightOuter => "right outer"

/-- A join with another model, which the criterion knows by its label. -/
structure Join where
  kind : JoinKind
  target : ModelId
  label : String
  criterion : String
deriving DecidableEq, Repr

/-- The field by which records are sorted, and the direction. -/
structure SortOrder where
  field : String
  ascending : Bool
deriving DecidableEq, Repr

/-- The fields by which records are grouped. -/
structure Grouping where
  fields : List String
deriving DecidableEq, Repr

/-- A part of a query that is no filter. -/
inductive Clause
  | join (j : Join)
  | order (o : SortOrder)
  | group (g : Grouping)
deriving DecidableEq, Repr

/-- A join as an object. -/
def Join.render (j : Join) : List Char :=
  "\x7b \"type\": ".toList ++ Fragment.quoted j.kind.name ++
    ", \"alias\": ".toList ++ Fragment.quoted j.label ++
    ", \"target\": ".toList ++ '"' :: j.target.text ++ '"' ::
    ", \"on\": ".toList ++ Fragment.quoted j.criterion ++ " \x7d".toList

/-- An ordering as a member. -/
def SortOrder.render (o : SortOrder) : List Char :=
  "\"order\": ".toList ++
    Fragment.quoted (o.field ++ if o.ascending then " ASC" else " DESC")

/-- A grouping as a member. -/
def Grouping.render (g : Grouping) : List Char :=
  "\"groupBy\": [".toList ++ Fragment.list [','] (g.fields.map Fragment.quoted) ++ [']']

/-- The text of a clause. -/
def Clause.render : Clause → List Char
  | join j => j.render
  | order o => o.render
  | group g => g.render

/-- The joins of a query as a member. -/
def Join.renderAll (joins : List Join) : List Char :=
  "\"joins\": [".toList ++ Fragment.list [',', ' '] (joins.map Join.render) ++ [']']

/-- The label of a model as a member, with the comma after it; none without label. -/
def labelFragment : Option String → List Char
  | none => []
  | some label => "\"alias\": ".toList ++ Fragment.quoted label ++ ", ".toList

/-- The columns of a projection as a member; none without columns. -/
def columnsFragment : Option (List String) → List Char
  | none | some [] => []
  | some columns =>
    "\"columns\": [".toList ++ Fragment.list [','] (columns.map Fragment.quoted) ++ [']']

theorem JoinKind.name_inj {a b : JoinKind} (h : a.name = b.name) : a = b := by
  revert h
  cases a <;> cases b <;> decide

theorem columnsFragment_eq_nil_iff (columns : Option (List String)) :
    columnsFragment columns = [] ↔ columns = none ∨ columns = some [] := by
  rcases columns with _ | _ | _ <;> simp [columnsFragment]

end RemoteRecords
