import RemoteRecords.Proofs.Query.Parts
import RemoteRecords.Json.Tree

/-!
# The document of a query

The JSON document that a query is meant to be sent as, said without any text: a
member for each part of the query, and for the filter the members of its
conditions from left to right. A conjunction lists its members where it stands,
but under a disjunction it is one `where` object; a disjunction is one `$or`
object, but in another disjunction it lists its members where it stands.

* `Condition.members`: the members of a condition under each parent;
* `Selection.tree`: the document of a query;
* `Condition.members_ne_nil`: each condition but a join has members.
-/

namespace RemoteRecords

open Json (Tree)

/-- The document of a value. -/
def Operand.tree : Operand → Tree
  | integer n => .number (Text.decimalInt n.toInt)
  | number (.finite x) => .number (layout.write x)
  | number _ => .word .null
  | flag b => .word (if b then .true else .false)
  | text s => .text s

/-- The member of a comparison. -/
def Comparison.member (op : Comparison) (field : String) (value : Tree) : String × Tree :=
  match op with
  | .equal => (field, value)
  | .notEqual => ("$ne", .object [(field, value)])
  | .atLeast => (field, .object [("$gte", value)])
  | .atMost => (field, .object [("$lte", value)])
  | .above => (field, .object [("$gt", value)])
  | .below => (field, .object [("$lt", value)])

/-- The member of a test. -/
def Test.member (field : String) : Test → String × Tree
  | compare op value => op.member field value.tree
  | between low high => (field, .object [("$between", .array [low.tree, high.tree])])
  | among negated values =>
    (field, .object [(if negated then "$nin" else "$in", .array (values.map Operand.tree))])
  | like negated pattern =>
    (field, .object [(if negated then "$nlike" else "$like", .text pattern)])
  | absent negated => (field, .object [(if negated then "$notNull" else "$null", .text "1")])

/-- The document of a join. -/
def Join.tree (j : Join) : Tree :=
  .object [("type", .text j.kind.name), ("alias", .text j.label),
    ("target", .text (String.ofList j.target.text)), ("on", .text j.criterion)]

/-- The member of the joins of a query. -/
def Join.member (joins : List Join) : String × Tree :=
  ("joins", .array (joins.map tree))

/-- The member of an ordering. -/
def SortOrder.member (o : SortOrder) : String × Tree :=
  ("order", .text (o.field ++ if o.ascending then " ASC" else " DESC"))

/-- The member of a grouping. -/
def Grouping.member (g : Grouping) : String × Tree :=
  ("groupBy", .array (g.fields.map .text))

/-- The members of a clause in condition position; a join has none to give. -/
def Clause.members : Clause → List (String × Tree)
  | join _ => []
  | order o => [o.member]
  | group g => [g.member]

/-- The members for the label of a model. -/
def labelMembers (label : Option String) : List (String × Tree) :=
  (label.map fun s => ("alias", Tree.text s)).toList

/-- The members for the model of an existence check. -/
def modelMembers (model : Option ModelId) : List (String × Tree) :=
  (model.map fun id => ("model", Tree.number id.text)).toList

/-- The members for the columns of a query. -/
def columnMembers : List String → List (String × Tree)
  | [] => []
  | columns => [("columns", .array (columns.map .text))]

/-- Members of a node, in an object of their own if they are to be wrapped. -/
def groupWhen (wrapped : Bool) (name : String) (members : List (String × Tree)) :
    List (String × Tree) :=
  if wrapped then [(name, .object members)] else members

namespace Condition

mutual

/-- The members of a condition under a parent. -/
def members (parent : Parent) : Condition → List (String × Tree)
  | test field t => [t.member field]
  | both left right =>
    groupWhen (parent == .disjunction) "where"
      (left.members .conjunction ++ right.members .conjunction)
  | either left right =>
    groupWhen (parent != .disjunction) "$or"
      (left.members .disjunction ++ right.members .disjunction)
  | check negated model label joins conditions =>
    [(if negated then "$nexists" else "$exists",
      .object (Join.member joins :: modelMembers model ++ labelMembers label ++
        [("where", .object (membersEach .conjunction conditions))]))]
  | clause c => c.members

/-- The members of several conditions under one parent. -/
def membersEach (parent : Parent) : List Condition → List (String × Tree)
  | [] => []
  | c :: rest => c.members parent ++ membersEach parent rest

end

theorem membersEach_eq_flatMap (parent : Parent) (conditions : List Condition) :
    membersEach parent conditions = conditions.flatMap (members parent) := by
  induction conditions with
  | nil => rfl
  | cons c rest ih => rw [membersEach, ih, List.flatMap_cons]

/-- The root and a conjunction make the same of a condition. -/
theorem members_root (c : Condition) : c.members .root = c.members .conjunction := by
  cases c <;> simp [members, groupWhen]

/-- Each condition but a join has members. -/
theorem members_ne_nil {c : Condition} (h : ∀ j, Clause.join j ∉ c.clauses) (parent : Parent) :
    c.members parent ≠ [] := by
  induction c generalizing parent with
  | test field t => simp [members]
  | both left right ihl _ =>
    rw [members, groupWhen]
    split
    · simp
    · exact List.append_ne_nil_of_left_ne_nil
        (ihl (fun j hj => h j (List.mem_append_left _ hj)) _) _
  | either left right ihl _ =>
    rw [members, groupWhen]
    split
    · simp
    · exact List.append_ne_nil_of_left_ne_nil
        (ihl (fun j hj => h j (List.mem_append_left _ hj)) _) _
  | check => simp [members]
  | clause c =>
    cases c with
    | join j => exact absurd List.mem_cons_self (h j)
    | order o => simp [members, Clause.members]
    | group g => simp [members, Clause.members]

end Condition

/-- The document of a query. -/
def Selection.tree (q : Selection) : Tree :=
  .object (labelMembers q.label ++ Join.member q.joins :: columnMembers q.columnList ++
    ("where", .object (Condition.membersEach .conjunction q.conditions)) ::
      (q.grouping.map Grouping.member).toList ++ (q.ordering.map SortOrder.member).toList)

end RemoteRecords
