import RemoteRecords.Toml.Scalar
import RemoteRecords.Toml.Text

/-!
# Documents of TOML

A document is read line by line. A header says to which table the keys of the
following lines belong; a key adds a value to that table. Arrays and tables
between braces may go over several lines, may end in a comma, and may nest 80
levels deep.

* `read`: the root table of a document; none if any line is at fault.
-/

namespace RemoteRecords.Toml

mutual

/-- Reads a value. The first number bounds the steps, the second the levels. -/
def readValue : Nat → Nat → List Char → Option (Node × List Char)
  | 0, _, _ => none
  | steps + 1, levels, s =>
    match s, levels with
    | '[' :: _, 0 | '\x7b' :: _, 0 => none
    | '[' :: rest, levels + 1 => readItems steps levels [] rest
    | '\x7b' :: rest, levels + 1 => readPairs steps levels [] rest
    | '"' :: _, _ | '\'' :: _, _ => (readString s).map fun (t, rest) => (.text t, rest)
    | _, _ => readScalar s

/-- Reads the items of an array after its bracket or a comma; those read so far
are in reverse. -/
def readItems : Nat → Nat → List Node → List Char → Option (Node × List Char)
  | 0, _, _, _ => none
  | steps + 1, levels, items, s => do
    match ← skipTrivia false s with
    | ']' :: rest => some (.array items.reverse, rest)
    | s =>
      let (item, rest) ← readValue steps levels s
      match ← skipTrivia false rest with
      | ',' :: rest => readItems steps levels (item :: items) rest
      | ']' :: rest => some (.array (item :: items).reverse, rest)
      | _ => none

/-- Reads the pairs of a table between braces after its brace or a comma. Ends of
lines and comments may stand wherever blanks may, but not within a key. -/
def readPairs : Nat → Nat → Members → List Char → Option (Node × List Char)
  | 0, _, _, _ => none
  | steps + 1, levels, members, s => do
    match ← skipTrivia false s with
    | '\x7d' :: rest => some (.table .inline members, rest)
    | s =>
      let (path, name, rest) ← readKey s
      let rest ← match ← skipTrivia false rest with
        | '=' :: rest => skipTrivia false rest
        | _ => none
      let (value, rest) ← readValue steps levels rest
      let members ← insert? value path name members
      match ← skipTrivia false rest with
      | ',' :: rest => readPairs steps levels members rest
      | '\x7d' :: rest => some (.table .inline members, rest)
      | _ => none

end

/-- How deep arrays and tables between braces may nest. -/
def maxLevels : Nat := 80

/-- The root table and the path of the table to which keys belong. -/
structure State where
  root : Members
  current : List String

/-- Reads a header of one bracket, after it. -/
def readHeader (state : State) (s : List Char) : Option (State × List Char) := do
  let (path, name, rest) ← readKey s
  match rest with
  | ']' :: rest =>
    let root ← alongHeader (openTable? name) path state.root
    return (⟨root, path ++ [name]⟩, rest)
  | _ => none

/-- Reads a header of two brackets, after them. -/
def readElementHeader (state : State) (s : List Char) : Option (State × List Char) := do
  let (path, name, rest) ← readKey s
  match rest with
  | ']' :: ']' :: rest =>
    let root ← alongHeader (openElement? name) path state.root
    return (⟨root, path ++ [name]⟩, rest)
  | _ => none

/-- Reads a key and its value. -/
def readPair (state : State) (s : List Char) : Option (State × List Char) := do
  let (path, name, rest) ← readKey s
  match rest with
  | '=' :: rest =>
    let (value, rest) ← readValue (2 * rest.length + 2) maxLevels (skipBlank rest)
    let root ← alongHeader (insert? value path name) state.current state.root
    return (⟨root, state.current⟩, rest)
  | _ => none

/-- Reads what a line says, without its end. -/
def readLine (state : State) (s : List Char) : Option (State × List Char) :=
  match skipBlank s with
  | [] => some (state, [])
  | '#' :: rest => some (state, '#' :: rest)
  | '\n' :: rest => some (state, '\n' :: rest)
  | '\r' :: rest => some (state, '\r' :: rest)
  | '[' :: '[' :: rest => readElementHeader state rest
  | '[' :: rest => readHeader state rest
  | s => readPair state s

/-- Reads up to so many lines. -/
def readLines : Nat → State → List Char → Option Members
  | 0, _, _ => none
  | _, state, [] => some state.root
  | lines + 1, state, s => do
    let (state, rest) ← readLine state s
    readLines lines state (← endLine rest)

/-- The text after a byte order mark. -/
def skipMark : List Char → List Char
  | '\ufeff' :: rest => rest
  | s => s

/-- The root table of a document. Every line but the last has an end of its own,
so there are no more lines than characters. -/
def read (s : List Char) : Option Members :=
  readLines (s.length + 1) ⟨[], []⟩ (skipMark s)

end RemoteRecords.Toml
