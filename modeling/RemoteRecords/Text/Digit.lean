/-!
# Digits

Decimal and hexadecimal digits as characters and as numbers. Only the ASCII
digits count.

* `hexDigit?_hexChar`: a digit that is written is read as itself, in either case;
* `ofDigits_append`: the number that digits spell, cut anywhere.
-/

namespace RemoteRecords.Text

/-- The value of a decimal digit. -/
def digit? (c : Char) : Option Nat :=
  if c.isDigit then some (c.toNat - '0'.toNat) else none

/-- The number that decimal digits spell after the number `n`. -/
def ofDigitsAfter (n : Nat) (digits : List Char) : Nat :=
  digits.foldl (fun n c => n * 10 + (c.toNat - '0'.toNat)) n

/-- The number that decimal digits spell. -/
def ofDigits (digits : List Char) : Nat :=
  ofDigitsAfter 0 digits

/-- The value of a hexadecimal digit, in upper or lower case. -/
def hexDigit? (c : Char) : Option Nat :=
  if c.isDigit then some (c.toNat - '0'.toNat)
  else if 'a' ≤ c ∧ c ≤ 'f' then some (c.toNat - 'a'.toNat + 10)
  else if 'A' ≤ c ∧ c ≤ 'F' then some (c.toNat - 'A'.toNat + 10)
  else none

/-- The hexadecimal digit of a number below 16, with letters from `ten` on. -/
def hexChar (ten : Char) (n : Nat) : Char :=
  if n < 10 then Char.ofNat ('0'.toNat + n) else Char.ofNat (ten.toNat + (n - 10))

/-- The number that hexadecimal digits spell, if all are digits. -/
def ofHex? (digits : List Char) : Option Nat :=
  digits.foldlM (fun n c => (hexDigit? c).map (n * 16 + ·)) 0

theorem ofDigits_append (s t : List Char) : ofDigits (s ++ t) = ofDigitsAfter (ofDigits s) t := by
  simp [ofDigits, ofDigitsAfter]

theorem hexDigit?_hexChar {ten : Char} (hten : ten = 'a' ∨ ten = 'A') :
    ∀ n, n < 16 → hexDigit? (hexChar ten n) = some n := by
  rcases hten with rfl | rfl <;> decide

end RemoteRecords.Text
