import RemoteRecords.Binary64.Layout
import RemoteRecords.Query.Fragment

/-!
# Operands

The values that a condition compares a field with, and their text in a payload:
integers in decimal, doubles with their shortest digits, truth values as words
and strings between quotes, without any escaping. A double that is no number
becomes `null`.
-/

namespace RemoteRecords

/-- A value to compare with. -/
inductive Operand
  | integer (n : Int64)
  | number (x : Binary64)
  | flag (b : Bool)
  | text (s : String)
deriving DecidableEq

namespace Operand

/-- Doubles have their point in place from `0.0001` up to `10 ^ 16`, a positive
exponent has no sign, and of two equally near decimals the larger is written. -/
def layout : DecimalLayout where
  least := -4
  beyond := 16
  plus := false
  tie := .upper

/-- Whether the value is a string. -/
def isText : Operand → Bool
  | text _ => true
  | _ => false

/-- The text of a value in a payload. -/
def render : Operand → List Char
  | integer n => Text.decimalInt n.toInt
  | number (.finite x) => layout.write x
  | number _ => "null".toList
  | flag b => if b then "true".toList else "false".toList
  | text s => Fragment.quoted s

end Operand

end RemoteRecords
