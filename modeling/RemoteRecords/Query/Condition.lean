import RemoteRecords.Query.Clause
import RemoteRecords.Query.Operand

/-!
# Conditions

The filter of a query is a tree of tests on fields, conjunctions, disjunctions
and existence checks; a clause may stand in it as well. The service reads a
filter as members of a JSON object, so the text of a node depends on what its
parent makes of its members: a conjunction lists its parts where they are, and
wraps itself only under a disjunction; a disjunction wraps itself unless it
stands in another one. The where body of a list is that of its conjunction.

* `render_both`, `render_either`: the two composites under each parent;
* `render_test`: a test looks the same under every parent;
* `render_root`: a node is written at the root as it is in a conjunction;
* `whereBody_eq_map`: so the where body lists its conditions as the parts of one.
-/

namespace RemoteRecords

/-- How a field is compared with one value. -/
inductive Comparison
  | equal
  | notEqual
  | atLeast
  | above
  | below
  | atMost
deriving DecidableEq, Repr

/-- A test of one field. -/
inductive Test
  | compare (op : Comparison) (value : Operand)
  | between (low high : Operand)
  | among (negated : Bool) (values : List Operand)
  | like (negated : Bool) (pattern : String)
  | absent (negated : Bool)
deriving DecidableEq

/-- A node of the filter of a query. -/
inductive Condition
  | test (field : String) (t : Test)
  | both (left right : Condition)
  | either (left right : Condition)
  | check (negated : Bool) (model : Option ModelId) (label : Option String) (joins : List Join)
      (conditions : List Condition)
  | clause (c : Clause)

/-- What the members of a node become parts of. -/
inductive Parent
  | root
  | conjunction
  | disjunction
deriving DecidableEq, Repr

/-- An operator applied to a value, after the colon that follows its field. -/
def operatorObject (operator : String) (gap : List Char) (value : List Char) : List Char :=
  "\x7b ".toList ++ Fragment.quoted operator ++ gap ++ value ++ " \x7d".toList

/-- The member of a comparison. An inequality is named by its operator and holds
the field. -/
def Comparison.render (op : Comparison) (field : String) (value : Operand) : List Char :=
  let key := Fragment.quoted field
  match op with
  | .equal => key ++ " : ".toList ++ value.render
  | .notEqual => "\"$ne\" : \x7b".toList ++ key ++ " : ".toList ++ value.render ++ ['\x7d']
  | .atLeast => key ++ " : ".toList ++ operatorObject "$gte" [':', ' '] value.render
  | .atMost => key ++ " : ".toList ++ operatorObject "$lte" [':', ' '] value.render
  | .above => key ++ ": ".toList ++ operatorObject "$gt" [':', ' '] value.render
  | .below => key ++ ": ".toList ++ operatorObject "$lt" [':', ' '] value.render

/-- The member of a test. -/
def Test.render (field : String) : Test → List Char
  | compare op value => op.render field value
  | between low high =>
    Fragment.quoted field ++ ": \x7b \"$between\": [".toList ++ low.render ++ ',' :: high.render ++
      "]\x7d".toList
  | among negated values =>
    Fragment.quoted field ++ ": \x7b".toList ++
      Fragment.quoted (if negated then "$nin" else "$in") ++ ": [".toList ++
      Fragment.list [','] (values.map Operand.render) ++ "]\x7d".toList
  | like negated pattern =>
    Fragment.quoted field ++ ": ".toList ++
      operatorObject (if negated then "$nlike" else "$like") " : ".toList (Fragment.quoted pattern)
  | absent negated =>
    Fragment.quoted field ++ ": \x7b".toList ++
      Fragment.quoted (if negated then "$notNull" else "$null") ++ ": \"1\"\x7d".toList

/-- Text between an opening and the brace that closes it, if it is to be wrapped. -/
def wrapWhen (wrapped : Bool) (opening : String) (body : List Char) : List Char :=
  if wrapped then opening.toList ++ body ++ ['\x7d'] else body

/-- The model of an existence check as a member, with the comma after it. -/
def modelFragment : Option ModelId → List Char
  | none => []
  | some id => "\"model\": ".toList ++ id.text ++ ", ".toList

/-- The members of an existence check that stand before its filter. -/
def checkHead (negated : Bool) (model : Option ModelId) (label : Option String)
    (joins : List Join) : List Char :=
  Fragment.quoted (if negated then "$nexists" else "$exists") ++ ": \x7b ".toList ++
    Join.renderAll joins ++ ", ".toList ++ modelFragment model ++ labelFragment label

/-- What the conditions of a list are parts of: a single one stands at the root. -/
def listParent {α : Type} : List α → Parent
  | [_] => .root
  | _ => .conjunction

namespace Condition

mutual

/-- The text of a node among the members of its parent. -/
def render (parent : Parent) : Condition → List Char
  | test field t => t.render field
  | both left right =>
    wrapWhen (parent == .disjunction) "\"where\": \x7b"
      (left.render .conjunction ++ ',' :: right.render .conjunction)
  | either left right =>
    wrapWhen (parent != .disjunction) "\"$or\": \x7b"
      (left.render .disjunction ++ ',' :: right.render .disjunction)
  | check negated model label joins conditions =>
    checkHead negated model label joins ++ "\"where\": \x7b".toList ++
      Fragment.list [','] (renderEach (listParent conditions) conditions) ++ ['\x7d', '\x7d']
  | clause c => c.render

/-- The texts of several nodes under one parent. -/
def renderEach (parent : Parent) : List Condition → List (List Char)
  | [] => []
  | c :: rest => c.render parent :: renderEach parent rest

end

/-- The members of the where object for a list of conditions, all of which are
required. -/
def whereBody (conditions : List Condition) : List Char :=
  Fragment.list [','] (renderEach (listParent conditions) conditions)

/-- The conjunction of a list, nested to the left; none for the empty list. -/
def conjunction? : List Condition → Option Condition
  | [] => none
  | c :: rest => some (rest.foldl both c)

theorem renderEach_eq_map (parent : Parent) (conditions : List Condition) :
    renderEach parent conditions = conditions.map (render parent) := by
  induction conditions with
  | nil => simp [renderEach]
  | cons c rest ih => simp [renderEach, ih]

theorem render_test (parent : Parent) (field : String) (t : Test) :
    render parent (test field t) = t.render field := by
  simp [render]

theorem render_both (parent : Parent) (left right : Condition) :
    render parent (both left right) =
      wrapWhen (parent == .disjunction) "\"where\": \x7b"
        (left.render .conjunction ++ ',' :: right.render .conjunction) := by
  simp [render]

theorem render_either (parent : Parent) (left right : Condition) :
    render parent (either left right) =
      wrapWhen (parent != .disjunction) "\"$or\": \x7b"
        (left.render .disjunction ++ ',' :: right.render .disjunction) := by
  simp [render]

theorem render_check (parent : Parent) (negated : Bool) (model : Option ModelId)
    (label : Option String) (joins : List Join) (conditions : List Condition) :
    render parent (check negated model label joins conditions) =
      checkHead negated model label joins ++ "\"where\": \x7b".toList ++ whereBody conditions ++
        ['\x7d', '\x7d'] := by
  simp [render, whereBody]

/-- A node is written at the root as it is in a conjunction. -/
theorem render_root (c : Condition) : c.render .root = c.render .conjunction := by
  cases c with
  | both left right => rw [render_both, render_both]; rfl
  | either left right => rw [render_either, render_either]; rfl
  | _ => simp [render]

/-- The where body lists the conditions as the parts of a conjunction. -/
theorem whereBody_eq_map (conditions : List Condition) :
    whereBody conditions = Fragment.list [','] (conditions.map (render .conjunction)) := by
  rw [whereBody, renderEach_eq_map]
  match conditions with
  | [] => rfl
  | [c] => exact c.render_root
  | _ :: _ :: _ => rfl

end Condition

end RemoteRecords
