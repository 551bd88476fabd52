import RemoteRecords.Query.Criteria

/-!
# What a query is made of

The strings and the clauses in a query, wherever they stand, and induction over
conditions: a composite has the conditions of its parts, an existence check those
of its list.

* `Condition.induct`: induction over conditions;
* `Condition.texts`, `Selection.texts`: all strings;
* `Condition.clauses`: the clauses in condition position.
-/

namespace RemoteRecords

/-! ## Strings -/

/-- The strings of a value. -/
def Operand.texts : Operand → List String
  | text s => [s]
  | _ => []

/-- The strings of a test. -/
def Test.texts : Test → List String
  | compare _ value => value.texts
  | between low high => low.texts ++ high.texts
  | among _ values => values.flatMap Operand.texts
  | like _ pattern => [pattern]
  | absent _ => []

/-- The strings of a join. -/
def Join.texts (j : Join) : List String :=
  [j.label, j.criterion]

/-- The strings of a clause. -/
def Clause.texts : Clause → List String
  | join j => j.texts
  | order o => [o.field]
  | group g => g.fields

namespace Condition

/-- Induction over conditions. -/
@[elab_as_elim, induction_eliminator]
theorem induct {motive : Condition → Prop} (test : ∀ field t, motive (test field t))
    (both : ∀ left right, motive left → motive right → motive (both left right))
    (either : ∀ left right, motive left → motive right → motive (either left right))
    (check : ∀ negated model label joins conditions, (∀ c ∈ conditions, motive c) →
      motive (check negated model label joins conditions))
    (clause : ∀ c, motive (clause c)) (c : Condition) : motive c :=
  @Condition.rec motive (fun conditions => ∀ c ∈ conditions, motive c) test both either check clause
    (fun _ h => absurd h List.not_mem_nil)
    (fun _ _ hc hrest => List.forall_mem_cons.mpr ⟨hc, hrest⟩) c

mutual

/-- The strings of a condition. -/
def texts : Condition → List String
  | test field t => field :: t.texts
  | both left right => left.texts ++ right.texts
  | either left right => left.texts ++ right.texts
  | check _ _ label joins conditions =>
    joins.flatMap Join.texts ++ label.toList ++ textsEach conditions
  | clause c => c.texts

/-- The strings of several conditions. -/
def textsEach : List Condition → List String
  | [] => []
  | c :: rest => c.texts ++ textsEach rest

end

mutual

/-- The clauses in a condition. -/
def clauses : Condition → List Clause
  | test .. => []
  | both left right => left.clauses ++ right.clauses
  | either left right => left.clauses ++ right.clauses
  | check _ _ _ _ conditions => clausesEach conditions
  | clause c => [c]

/-- The clauses in several conditions. -/
def clausesEach : List Condition → List Clause
  | [] => []
  | c :: rest => c.clauses ++ clausesEach rest

end

theorem textsEach_eq_flatMap (conditions : List Condition) :
    textsEach conditions = conditions.flatMap texts := by
  induction conditions with
  | nil => rfl
  | cons c rest ih => rw [textsEach, ih, List.flatMap_cons]

theorem clausesEach_eq_flatMap (conditions : List Condition) :
    clausesEach conditions = conditions.flatMap clauses := by
  induction conditions with
  | nil => rfl
  | cons c rest ih => rw [clausesEach, ih, List.flatMap_cons]

end Condition

/-! ## Queries with a list of columns -/

/-- What a query asks for, with its projection as a list of columns. -/
structure Selection where
  label : Option String
  joins : List Join
  columns : Option (List String)
  conditions : List Condition
  grouping : Option Grouping
  ordering : Option SortOrder

namespace Selection

/-- The criteria with the projection as a fragment. -/
def criteria (q : Selection) : Criteria where
  label := q.label
  joins := q.joins
  projection := columnsFragment q.columns
  conditions := q.conditions
  grouping := q.grouping
  ordering := q.ordering

/-- The text of the payload. -/
def render (q : Selection) : List Char :=
  q.criteria.render

/-- The columns of the projection; none and an empty list are the same. -/
def columnList (q : Selection) : List String :=
  q.columns.getD []

/-- All strings. -/
def texts (q : Selection) : List String :=
  q.label.toList ++ q.joins.flatMap Join.texts ++ q.columnList ++
    q.conditions.flatMap Condition.texts ++ (q.grouping.map Grouping.fields).getD [] ++
    (q.ordering.map SortOrder.field).toList

/-- The clauses in condition position. -/
def clauses (q : Selection) : List Clause :=
  q.conditions.flatMap Condition.clauses

end Selection

end RemoteRecords
