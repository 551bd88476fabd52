import RemoteRecords.Json.Tree

/-!
# Values of JSON

What a document means: numbers by their value, and objects with one member for
each name, in the order in which the names came first and with the value that
came last. Reading a text refuses documents that nest deeper than 127 levels and
numbers beyond the doubles. A value is written without any blanks.

* `put_of_not_mem`: a new name goes to the end of an object;
* `keys_put`: a known name keeps its place;
* `read`, `compact`: the two directions between text and value.
-/

namespace RemoteRecords

/-- A value of JSON. -/
inductive Json
  | null
  | bool (b : Bool)
  | number (n : Json.Number)
  | text (s : String)
  | array (items : List Json)
  | object (members : List (String × Json))

namespace Json

/-! ## Objects -/

/-- Gives a name a value: in its place if it has one, else at the end. -/
def put {α : Type} (members : List (String × α)) (name : String) (value : α) :
    List (String × α) :=
  match members with
  | [] => [(name, value)]
  | (key, old) :: rest =>
    if key = name then (key, value) :: rest else (key, old) :: put rest name value

/-- The object that results when members are put one after the other. -/
def merge {α : Type} (members : List (String × α)) : List (String × α) :=
  members.foldl (fun done m => put done m.1 m.2) []

/-- The value of a member of an object. -/
def get? (name : String) : Json → Option Json
  | object members => members.lookup name
  | _ => none

/-- The items of an array. -/
def items? : Json → Option (List Json)
  | array items => some items
  | _ => none

/-- The members of an object. -/
def members? : Json → Option (List (String × Json))
  | object members => some members
  | _ => none

/-- A string. -/
def text? : Json → Option String
  | text s => some s
  | _ => none

/-- An integer of 64 bits with a sign. -/
def int64? : Json → Option Int64
  | number n => n.int64?
  | _ => none

theorem items?_eq_some_iff {v : Json} {items : List Json} :
    v.items? = some items ↔ v = array items := by
  cases v <;> simp [items?]

theorem members?_eq_some_iff {v : Json} {members : List (String × Json)} :
    v.members? = some members ↔ v = object members := by
  cases v <;> simp [members?]

theorem text?_eq_some_iff {v : Json} {s : String} : v.text? = some s ↔ v = text s := by
  cases v <;> simp [text?]

theorem put_of_not_mem {α : Type} {members : List (String × α)} {name : String} (value : α)
    (h : name ∉ members.map Prod.fst) : put members name value = members ++ [(name, value)] := by
  induction members with
  | nil => rfl
  | cons m rest ih =>
    obtain ⟨key, old⟩ := m
    simp only [List.map_cons, List.mem_cons, not_or] at h
    simp [put, Ne.symm h.1, ih h.2]

theorem keys_put {α : Type} {members : List (String × α)} {name : String} (value : α)
    (h : name ∈ members.map Prod.fst) :
    (put members name value).map Prod.fst = members.map Prod.fst := by
  induction members with
  | nil => simp at h
  | cons m rest ih =>
    obtain ⟨key, old⟩ := m
    by_cases hk : key = name
    · simp [put, hk]
    · have : name ∈ rest.map Prod.fst := by
        rcases List.mem_cons.mp h with hm | hm
        · exact absurd hm.symm hk
        · exact hm
      simp [put, hk, ih this]

/-! ## Reading -/

/-- The value of a word. -/
def ofWord : Word → Json
  | .null => null
  | .true => bool true
  | .false => bool false

mutual

/-- The value of a document; none if a number has no value. -/
def ofTree? : Tree → Option Json
  | .word w => some (ofWord w)
  | .number spelling => ((Numeral.read spelling).bind Number.ofNumeral?).map number
  | .text s => some (text s)
  | .array items => (ofItems? items).map array
  | .object members => (ofMembers? members).map fun ms => object (merge ms)

/-- The values of the items of an array. -/
def ofItems? : List Tree → Option (List Json)
  | [] => some []
  | t :: rest => (ofTree? t).bind fun v => (ofItems? rest).map (v :: ·)

/-- The values of the members of an object. -/
def ofMembers? : List (String × Tree) → Option (List (String × Json))
  | [] => some []
  | (name, t) :: rest => (ofTree? t).bind fun v => (ofMembers? rest).map ((name, v) :: ·)

end

/-- How deep a document may nest. -/
def maxDepth : Nat := 127

/-- The value of a text; none if the text is no document, nests too deep, or
holds a number beyond the doubles. -/
def read (s : List Char) : Option Json :=
  (Tree.read s).bind fun t => if t.depth ≤ maxDepth then ofTree? t else none

/-! ## Writing -/

/-- One character of a string. Quotes, backslashes and control characters are
escaped, all others stand for themselves. -/
def escapeChar (c : Char) : List Char :=
  if c = '"' then ['\\', '"']
  else if c = '\\' then ['\\', '\\']
  else if c = '\x08' then ['\\', 'b']
  else if c = '\t' then ['\\', 't']
  else if c = '\n' then ['\\', 'n']
  else if c = '\x0c' then ['\\', 'f']
  else if c = '\r' then ['\\', 'r']
  else if c.toNat < 0x20 then
    ['\\', 'u', '0', '0', Text.hexChar 'a' (c.toNat / 16), Text.hexChar 'a' (c.toNat % 16)]
  else [c]

/-- A string between quotes. -/
def compactText (s : String) : List Char :=
  '"' :: s.toList.flatMap escapeChar ++ ['"']

mutual

/-- The text of a value, without blanks. -/
def compact : Json → List Char
  | null => "null".toList
  | bool true => "true".toList
  | bool false => "false".toList
  | number n => n.text
  | text s => compactText s
  | array [] => ['[', ']']
  | array (v :: rest) => '[' :: compact v ++ compactItems rest
  | object [] => ['\x7b', '\x7d']
  | object ((name, v) :: rest) =>
    '\x7b' :: compactText name ++ ':' :: compact v ++ compactMembers rest

/-- The items after the first one, and the end of the array. -/
def compactItems : List Json → List Char
  | [] => [']']
  | v :: rest => ',' :: compact v ++ compactItems rest

/-- The members after the first one, and the end of the object. -/
def compactMembers : List (String × Json) → List Char
  | [] => ['\x7d']
  | (name, v) :: rest => ',' :: compactText name ++ ':' :: compact v ++ compactMembers rest

end

end Json

end RemoteRecords
