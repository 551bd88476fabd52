import RemoteRecords.Query.Condition
import RemoteRecords.Text.Blank

/-!
# The payload of a query

A payload is one JSON object with its members in a fixed order: the label of the
model, the joins, the columns, the filter, the grouping and the ordering. Joins
and filter are always there, the others only if they are given.

* `projectionPart_blank`: a projection of blanks only is left out.
-/

namespace RemoteRecords

/-- What a query asks for. The projection is a fragment that is written as it
is, without the blanks at its ends. -/
structure Criteria where
  label : Option String
  joins : List Join
  projection : List Char
  conditions : List Condition
  grouping : Option Grouping
  ordering : Option SortOrder

namespace Criteria

/-- The projection, and the comma before it. -/
def projectionPart (projection : List Char) : List Char :=
  match Text.trim projection with
  | [] => []
  | fragment => ", ".toList ++ fragment

/-- A member that may be missing, and the comma before it. -/
def trailingPart {α : Type} (render : α → List Char) : Option α → List Char
  | none => []
  | some clause => ',' :: render clause

/-- The text of the payload. -/
def render (q : Criteria) : List Char :=
  '\x7b' :: labelFragment q.label ++ Join.renderAll q.joins ++ projectionPart q.projection ++
    ", \"where\": \x7b".toList ++ Condition.whereBody q.conditions ++ '\x7d' ::
    trailingPart Grouping.render q.grouping ++ trailingPart SortOrder.render q.ordering ++ ['\x7d']

theorem projectionPart_blank {projection : List Char} (h : Text.trim projection = []) :
    projectionPart projection = [] := by
  simp [projectionPart, h]

end Criteria

end RemoteRecords
