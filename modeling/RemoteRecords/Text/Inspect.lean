/-!
# Values shown for inspection

The form in which a person inspects a value: text in quotes with its quotes,
backslashes and control characters escaped, an optional text as `Some` or
`None`, and a record as its name and its fields. Only ASCII text has a fixed
form here; what is left out of other text is said at `char`.
-/

namespace RemoteRecords.Text.Inspect

/-- The lower case hexadecimal digits of a number. -/
def hex (n : Nat) : List Char :=
  Nat.toDigits 16 n

/-- One character of a quoted text, in the form fixed for ASCII. Of the other characters,
those that are not printable and those that extend the character before them are to be
escaped by their number too, such as a space of no width. Which these are is a matter of
tables of characters, and these are left out: every other character is shown as it is. -/
def char (c : Char) : List Char :=
  match c with
  | '"' => ['\\', '"']
  | '\\' => ['\\', '\\']
  | '\n' => ['\\', 'n']
  | '\r' => ['\\', 'r']
  | '\t' => ['\\', 't']
  | '\x00' => ['\\', '0']
  | c =>
    if c.toNat < 0x20 ∨ c.toNat = 0x7f then "\\u\x7b".toList ++ hex c.toNat ++ ['\x7d'] else [c]

/-- A text in quotes. -/
def text (s : String) : List Char :=
  '"' :: s.toList.flatMap char ++ ['"']

/-- A text that may be absent. -/
def optionalText : Option String → List Char
  | none => "None".toList
  | some s => "Some(".toList ++ text s ++ [')']

/-- One field of a record. -/
def field (name : String) (shown : List Char) : List Char :=
  name.toList ++ ": ".toList ++ shown

/-- A record with all its fields. -/
def record (name : String) (fields : List (List Char)) : List Char :=
  name.toList ++ " \x7b ".toList ++ List.intercalate ", ".toList fields ++ " \x7d".toList

/-- A record that has more fields than it shows. -/
def openRecord (name : String) (fields : List (List Char)) : List Char :=
  record name (fields ++ ["..".toList])

end RemoteRecords.Text.Inspect
