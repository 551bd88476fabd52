import RemoteRecords.Query.Criteria
import RemoteRecords.Session.Account

/-!
# Queries

A query is put together by edits and remembers where it stands: its offset, its
page size and the columns it was run with last. Clauses that are added become
parts of the query itself and never of its filter. A request depends only on the
query and the account; an answer changes neither.

* `currentOffset_nonneg`: the offset in force is never negative;
* `effectiveCount_pos`: the page size in force is positive;
* `conditions_add_clause`: an added clause leaves the filter alone.
-/

namespace RemoteRecords

/-- A query of one model, which its conditions may know by a label. -/
structure Query where
  model : ModelId
  label : Option String
  conditions : List Condition
  joins : List Join
  ordering : Option SortOrder
  grouping : Option Grouping
  /-- The offset as it was set; a negative one means the start. -/
  offset : Int64
  /-- The page size as it was set; one that is not positive means the usual one. -/
  count : Int64
  columns : Option (List String)
  /-- Whether the query was moved to a further page. -/
  paged : Bool

namespace Query

/-- A query of all records of a model. -/
def ofModel (model : ModelId) : Query where
  model := model
  label := none
  conditions := []
  joins := []
  ordering := none
  grouping := none
  offset := -1
  count := -1
  columns := none
  paged := false

/-! ## Edits -/

/-- A change of what a query asks for. -/
inductive Edit
  | add (c : Condition)
  | setLabel (label : String)
  | join (j : Join)
  | orderBy (field : String)
  | direct (ascending : Bool)
  | groupBy (fields : List String)
  | setOffset (offset : Int64)
  | setCount (count : Int64)

/-- Adds a clause to the query: a join after the others, an ordering or a
grouping in place of the one before. -/
def addClause (q : Query) : Clause → Query
  | .join j => { q with joins := q.joins ++ [j] }
  | .order o => { q with ordering := some o }
  | .group g => { q with grouping := some g }

/-- Adds a condition to the filter, or a clause to the query. -/
def add (q : Query) : Condition → Query
  | .clause c => q.addClause c
  | c => { q with conditions := q.conditions ++ [c] }

/-- Turns the ordering in force. -/
def direct (q : Query) (ascending : Bool) : Except Fault Query :=
  match q.ordering with
  | some o => .ok { q with ordering := some { o with ascending } }
  | none => .error .orderingRequired

/-- Applies an edit. -/
def edit (q : Query) : Edit → Except Fault Query
  | .add c => .ok (q.add c)
  | .setLabel label => .ok { q with label := some label }
  | .join j => .ok (q.addClause (.join j))
  | .orderBy field => .ok (q.addClause (.order ⟨field, true⟩))
  | .direct ascending => q.direct ascending
  | .groupBy fields => .ok (q.addClause (.group ⟨fields⟩))
  | .setOffset offset => .ok { q with offset }
  | .setCount count => .ok { q with count }

/-! ## Pages -/

/-- The page size where none is set. -/
def usualCount : Int64 := 15

/-- The offset in force. -/
def currentOffset (q : Query) : Int64 :=
  if 0 < q.offset then q.offset else 0

/-- The page size in force. -/
def effectiveCount (q : Query) : Int64 :=
  if 0 < q.count then q.count else usualCount

/-- A sum that stays at the largest integer instead of going beyond it. -/
def addUpTo (a b : Int64) : Int64 :=
  Int64.ofInt (min (a.toInt + b.toInt) Int64.maxValue.toInt)

/-- The query moved to its next page. -/
def advance (q : Query) : Query :=
  { q with offset := addUpTo q.currentOffset q.effectiveCount, paged := true }

/-- The query with the columns that it is to be run with. -/
def project (q : Query) (columns : Option (List String)) : Query :=
  { q with columns }

/-! ## Requests -/

/-- What the query asks for. -/
def criteria (q : Query) : Criteria where
  label := q.label
  joins := q.joins
  projection := columnsFragment q.columns
  conditions := q.conditions
  grouping := q.grouping
  ordering := q.ordering

/-- The payload of the query. -/
def payload (q : Query) : String :=
  String.ofList q.criteria.render

/-- The endpoint that answers the query: a projection has one of its own. -/
def endpoint (q : Query) : Endpoint :=
  match q.columns with
  | none | some [] => .records
  | some _ => .recordsByProjection

/-- What the address of the query is filled with. -/
def slots (q : Query) : List Slot :=
  [.ofInt "mid" q.model, .ofInt "count" q.effectiveCount, .ofInt "offset" q.currentOffset]

/-- The request for the page at which the query stands. -/
def request (q : Query) (a : Account) : Request :=
  (Request.bare .post (a.address q.endpoint q.slots)).withParam "criteria" q.payload

theorem currentOffset_nonneg (q : Query) : 0 ≤ q.currentOffset := by
  unfold currentOffset
  split
  · exact Int64.le_of_lt ‹_›
  · exact Int64.le_refl 0

theorem effectiveCount_pos (q : Query) : 0 < q.effectiveCount := by
  unfold effectiveCount
  split
  · assumption
  · decide

theorem conditions_add_clause (q : Query) (c : Clause) :
    (q.add (.clause c)).conditions = q.conditions := by
  cases c <;> rfl

end Query

/-! ## Inspection -/

/-- A query, as it is shown for inspection. -/
def Text.Inspect.query (q : Query) : List Char :=
  openRecord "RecordQuery" [field "model_id" ("ModelId(".toList ++ q.model.text ++ [')']),
    field "alias" (optionalText q.label), field "conditions" (Text.decimal q.conditions.length),
    field "joins" (Text.decimal q.joins.length), field "offset" (Text.decimalInt q.offset.toInt),
    field "count" (Text.decimalInt q.count.toInt),
    field "state" (if q.paged then "Paged".toList else "Fresh".toList)]

end RemoteRecords
