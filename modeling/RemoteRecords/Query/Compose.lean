import RemoteRecords.Query.Condition

/-!
# Composing conditions

A conjunction or disjunction of two parts of which either may turn out to be a
plain value, and the existence check while it is being put together.

* `Part.combine?_eq_error_iff`: composing fails exactly when a part is a plain value.
-/

namespace RemoteRecords

/-- What a caller hands in as a part of a composite. -/
inductive Part
  | condition (c : Condition)
  | plain (value : Operand)

/-- A composite was asked for with a part that is no condition. -/
structure NotACondition where
deriving DecidableEq, Repr

/-- The text that describes the fault. -/
def NotACondition.message (_ : NotACondition) : String :=
  "left and right should implement Condition"

/-- Two parts joined by `join`, if both are conditions. -/
def Part.combine? (join : Condition → Condition → Condition) :
    Part → Part → Except NotACondition Condition
  | .condition left, .condition right => .ok (join left right)
  | _, _ => .error ⟨⟩

/-- The conjunction of two parts. -/
def Part.both? : Part → Part → Except NotACondition Condition :=
  combine? .both

/-- The disjunction of two parts. -/
def Part.either? : Part → Part → Except NotACondition Condition :=
  combine? .either

/-- An existence check that is being put together. -/
structure ExistenceCheck where
  negated : Bool
  model : Option ModelId
  label : Option String
  joins : List Join
  conditions : List Condition

namespace ExistenceCheck

/-- A check without joins and conditions. -/
def empty (negated : Bool) (model : Option ModelId) (label : Option String) : ExistenceCheck :=
  ⟨negated, model, label, [], []⟩

/-- The check as a node of a filter. -/
def toCondition (check : ExistenceCheck) : Condition :=
  .check check.negated check.model check.label check.joins check.conditions

/-- Requires one more condition, whatever its kind. -/
def add (check : ExistenceCheck) (c : Condition) : ExistenceCheck :=
  { check with conditions := check.conditions ++ [c] }

/-- Joins one more model. -/
def join (check : ExistenceCheck) (j : Join) : ExistenceCheck :=
  { check with joins := check.joins ++ [j] }

/-- Gives the model of the check a label. -/
def setLabel (check : ExistenceCheck) (label : String) : ExistenceCheck :=
  { check with label := some label }

/-- Sets the model of the check. -/
def setModel (check : ExistenceCheck) (model : ModelId) : ExistenceCheck :=
  { check with model := some model }

end ExistenceCheck

theorem Part.combine?_eq_error_iff (join : Condition → Condition → Condition) (left right : Part) :
    combine? join left right = .error ⟨⟩ ↔ (∃ v, left = .plain v) ∨ ∃ v, right = .plain v := by
  cases left <;> cases right <;> simp [combine?]

end RemoteRecords
