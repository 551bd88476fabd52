import RemoteRecords.Text.Digit

/-!
# Strings and keys of TOML

The four kinds of strings, on one line or several, with escapes or as they are,
and the keys in front of values. Each reader gives what it read and the rest of
the text, and none if the text cannot start this way.

* `readKey`: the parts of a key between its dots;
* `skipTrivia`: blanks, ends of lines and comments, as they stand between brackets
  and braces.
-/

namespace RemoteRecords.Toml

/-- The blanks within a line. -/
def isBlank (c : Char) : Bool :=
  c == ' ' || c == '\t'

/-- The characters that neither strings nor comments may hold. -/
def isControl (c : Char) : Bool :=
  (c.toNat < 0x20 && c != '\t') || c.toNat == 0x7f

/-- The text after the blanks at its start. -/
def skipBlank (s : List Char) : List Char :=
  s.dropWhile isBlank

/-- The text after the end of a line. -/
def newline? : List Char → Option (List Char)
  | '\n' :: rest => some rest
  | '\r' :: '\n' :: rest => some rest
  | _ => none

/-- The text from the end of a comment on. -/
def skipComment : List Char → Option (List Char)
  | [] => some []
  | '\n' :: rest => some ('\n' :: rest)
  | '\r' :: '\n' :: rest => some ('\r' :: '\n' :: rest)
  | c :: rest => if isControl c then none else skipComment rest

/-- The text after what may follow a value in its line, and the end of the line.
The last line needs no end. -/
def endLine (s : List Char) : Option (List Char) :=
  match skipBlank s with
  | [] => some []
  | '#' :: rest => (skipComment rest).bind fun rest => if rest = [] then some [] else newline? rest
  | rest => newline? rest

/-- The text after blanks, ends of lines and comments. -/
def skipTrivia (inComment : Bool) : List Char → Option (List Char)
  | [] => some []
  | '\n' :: rest => skipTrivia false rest
  | '\r' :: '\n' :: rest => skipTrivia false rest
  | c :: rest =>
    if inComment then if isControl c then none else skipTrivia true rest
    else if isBlank c then skipTrivia false rest
    else if c = '#' then skipTrivia true rest
    else some (c :: rest)

/-! ## Escapes -/

/-- The character with a code in hexadecimal, of two, four or eight digits. -/
def charOfHex? (digits : List Char) : Option Char := do
  let n ← Text.ofHex? digits
  if n < 0xD800 ∨ (0xE000 ≤ n ∧ n < 0x110000) then some (Char.ofNat n) else none

/-- The character that a letter stands for after a backslash. -/
def unescape? : Char → Option Char
  | 'b' => some '\x08'
  | 'e' => some '\x1b'
  | 't' => some '\t'
  | 'n' => some '\n'
  | 'f' => some '\x0c'
  | 'r' => some '\r'
  | '"' => some '"'
  | '\\' => some '\\'
  | _ => none

/-! ## Strings on one line -/

/-- Reads a string with escapes, after its opening quote. -/
def readBasic (read : List Char) : List Char → Option (String × List Char)
  | [] => none
  | '"' :: rest => some (String.ofList read.reverse, rest)
  | '\\' :: 'x' :: a :: b :: rest =>
    (charOfHex? [a, b]).bind fun x => readBasic (x :: read) rest
  | '\\' :: 'u' :: a :: b :: c :: d :: rest =>
    (charOfHex? [a, b, c, d]).bind fun x => readBasic (x :: read) rest
  | '\\' :: 'U' :: a :: b :: c :: d :: e :: f :: g :: h :: rest =>
    (charOfHex? [a, b, c, d, e, f, g, h]).bind fun x => readBasic (x :: read) rest
  | '\\' :: c :: rest => (unescape? c).bind fun x => readBasic (x :: read) rest
  | c :: rest => if isControl c then none else readBasic (c :: read) rest

/-- Reads a string without escapes, after its opening quote. -/
def readLiteral (read : List Char) : List Char → Option (String × List Char)
  | [] => none
  | '\'' :: rest => some (String.ofList read.reverse, rest)
  | c :: rest => if isControl c then none else readLiteral (c :: read) rest

/-! ## Strings on several lines -/

/-- How a string on several lines goes on. -/
inductive Joint
  | plain
  /-- A backslash came last in its line, as far as can be seen. -/
  | lineEnd
  /-- Blanks and ends of lines are dropped until other text comes. -/
  | dropping
deriving DecidableEq

/-- Whether a backslash before this text has nothing but blanks after it in its
line. -/
def endsLine (s : List Char) : Bool :=
  (newline? (skipBlank s)).isSome

/-- Quotes that have been counted as a part of a string on several lines, in
front of what was read. -/
def withQuotes (quote : Char) (n : Nat) (read : List Char) : List Char :=
  List.replicate n quote ++ read

/-- Reads a string on several lines with escapes. The quotes read last are
counted: three end the string, and up to two more in front of them belong to it. -/
def readMultiBasic (joint : Joint) (quotes : Nat) (read : List Char) :
    List Char → Option (String × List Char)
  | [] =>
    if 3 ≤ quotes then some (String.ofList (withQuotes '"' (quotes - 3) read).reverse, []) else none
  | '"' :: rest => if quotes < 5 then readMultiBasic .plain (quotes + 1) read rest else none
  | c :: rest =>
    if 3 ≤ quotes then
      some (String.ofList (withQuotes '"' (quotes - 3) read).reverse, c :: rest)
    else
      let read := withQuotes '"' quotes read
      if c = '\n' then
        match joint with
        | .plain => readMultiBasic .plain 0 (c :: read) rest
        | _ => readMultiBasic .dropping 0 read rest
      else if c = '\r' then
        if (newline? (c :: rest)).isSome then
          match joint with
          | .plain => readMultiBasic .plain 0 (c :: read) rest
          | joint => readMultiBasic joint 0 read rest
        else none
      else if joint ≠ .plain ∧ isBlank c then readMultiBasic joint 0 read rest
      else if c = '\\' then
        if endsLine rest then readMultiBasic .lineEnd 0 read rest
        else
          match rest with
          | 'x' :: x :: y :: rest =>
            (charOfHex? [x, y]).bind fun v => readMultiBasic .plain 0 (v :: read) rest
          | 'u' :: x :: y :: z :: w :: rest =>
            (charOfHex? [x, y, z, w]).bind fun v => readMultiBasic .plain 0 (v :: read) rest
          | 'U' :: x :: y :: z :: w :: p :: q :: r :: s :: rest =>
            (charOfHex? [x, y, z, w, p, q, r, s]).bind fun v =>
              readMultiBasic .plain 0 (v :: read) rest
          | d :: rest => (unescape? d).bind fun v => readMultiBasic .plain 0 (v :: read) rest
          | [] => none
      else if isControl c then none
      else readMultiBasic .plain 0 (c :: read) rest

/-- Reads a string on several lines without escapes; its quotes are counted in
the same way. -/
def readMultiLiteral (quotes : Nat) (read : List Char) : List Char → Option (String × List Char)
  | [] =>
    if 3 ≤ quotes then some (String.ofList (withQuotes '\'' (quotes - 3) read).reverse, [])
    else none
  | '\'' :: rest => if quotes < 5 then readMultiLiteral (quotes + 1) read rest else none
  | c :: rest =>
    if 3 ≤ quotes then
      some (String.ofList (withQuotes '\'' (quotes - 3) read).reverse, c :: rest)
    else
      let read := withQuotes '\'' quotes read
      if c = '\n' ∨ (c = '\r' ∧ rest.head? = some '\n') ∨ ¬isControl c then
        readMultiLiteral 0 (c :: read) rest
      else none

/-- The text after a line end that directly follows the opening quotes. -/
def skipFirstNewline (s : List Char) : List Char :=
  (newline? s).getD s

/-- Reads a string of any kind. -/
def readString : List Char → Option (String × List Char)
  | '"' :: '"' :: '"' :: rest => readMultiBasic .plain 0 [] (skipFirstNewline rest)
  | '\'' :: '\'' :: '\'' :: rest => readMultiLiteral 0 [] (skipFirstNewline rest)
  | '"' :: rest => readBasic [] rest
  | '\'' :: rest => readLiteral [] rest
  | _ => none

/-! ## Keys -/

/-- The characters of a key without quotes. -/
def isKeyChar (c : Char) : Bool :=
  c.isAlphanum || c == '_' || c == '-'

/-- Reads one part of a key. -/
def readKeyPart : List Char → Option (String × List Char)
  | '"' :: rest => readBasic [] rest
  | '\'' :: rest => readLiteral [] rest
  | s =>
    match s.takeWhile isKeyChar with
    | [] => none
    | name => some (String.ofList name, s.dropWhile isKeyChar)

/-- Reads a key of up to so many parts, with dots and blanks between them. Gives
the parts before the last one, the last one, and the text after the blanks. -/
def readKeyParts : Nat → List String → List Char → Option (List String × String × List Char)
  | 0, _, _ => none
  | n + 1, path, s => do
    let (name, rest) ← readKeyPart (skipBlank s)
    match skipBlank rest with
    | '.' :: rest => readKeyParts n (path ++ [name]) rest
    | rest => some (path, name, rest)

/-- How many parts a key may have. -/
def maxKeyParts : Nat := 80

/-- Reads a key with all its parts. -/
def readKey (s : List Char) : Option (List String × String × List Char) :=
  readKeyParts maxKeyParts [] s

end RemoteRecords.Toml
