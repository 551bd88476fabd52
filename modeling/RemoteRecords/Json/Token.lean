import RemoteRecords.Json.Numeral

/-!
# Tokens of JSON

A text is cut into tokens by a machine that reads one character at a time. Its
state says what the last characters belong to: nothing, a number, a word, or a
string with its escapes. Numbers and words end where another character comes,
and only then are they checked. The machine gives up at the first character
that cannot stand where it is.

* `Scan.run_append`: the machine reads a text in two parts as it reads the whole;
* `scan`: the tokens of a complete text.
-/

namespace RemoteRecords.Json

/-- The words of the format. -/
inductive Word
  | null
  | true
  | false
deriving DecidableEq, Repr

/-- A unit of a text. -/
inductive Token
  | openBrace
  | closeBrace
  | openBracket
  | closeBracket
  | comma
  | colon
  | word (w : Word)
  /-- A number in the spelling of the text. -/
  | number (spelling : List Char)
  | text (s : String)
deriving DecidableEq, Repr

/-- The blanks of the format. -/
def isSpace (c : Char) : Bool :=
  c == ' ' || c == '\t' || c == '\n' || c == '\r'

/-- The characters that numbers are made of. -/
def isNumberChar (c : Char) : Bool :=
  c.isDigit || c == '-' || c == '+' || c == '.' || c == 'e' || c == 'E'

/-- The characters that words are made of. -/
def isWordChar (c : Char) : Bool :=
  'a' ≤ c && c ≤ 'z'

/-- The token of a character that is one by itself. -/
def Token.ofChar? : Char → Option Token
  | '\x7b' => some .openBrace
  | '\x7d' => some .closeBrace
  | '[' => some .openBracket
  | ']' => some .closeBracket
  | ',' => some .comma
  | ':' => some .colon
  | _ => none

/-- The token of a number, if the spelling is one. -/
def Token.ofSpelling? (spelling : List Char) : Option Token :=
  (Numeral.read spelling).map fun _ => .number spelling

/-- The token of a word, if there is such a word. -/
def Token.ofLetters? (letters : List Char) : Option Token :=
  if letters = "null".toList then some (.word .null)
  else if letters = "true".toList then some (.word .true)
  else if letters = "false".toList then some (.word .false)
  else none

/-- The character that a letter stands for after a backslash. -/
def unescape? : Char → Option Char
  | '"' => some '"'
  | '\\' => some '\\'
  | '/' => some '/'
  | 'b' => some '\x08'
  | 'f' => some '\x0c'
  | 'n' => some '\n'
  | 'r' => some '\r'
  | 't' => some '\t'
  | _ => none

/-- What the characters read last belong to. The characters of an unfinished
number, word or string are held in reverse. -/
inductive Scan
  | between
  | number (spelling : List Char)
  | word (letters : List Char)
  | text (read : List Char)
  /-- A backslash was read. -/
  | escape (read : List Char)
  /-- A code in hexadecimal is being read, with so many digits to come; the first
  half of a pair may stand before it. -/
  | code (read : List Char) (high : Option Nat) (missing value : Nat)
  /-- The first half of a pair was read, and the second half has to follow. -/
  | half (read : List Char) (high : Nat)
  /-- As before, and the backslash of the second half was read. -/
  | halfEscape (read : List Char) (high : Nat)
deriving DecidableEq, Repr

namespace Scan

/-- The state after a code of four digits. A code of the surrogate range counts
only as a pair of its two halves. -/
def afterCode (read : List Char) (high : Option Nat) (value : Nat) : Option Scan :=
  match high with
  | some h =>
    if 0xDC00 ≤ value ∧ value < 0xE000 then
      some (text (Char.ofNat (0x10000 + (h - 0xD800) * 0x400 + (value - 0xDC00)) :: read))
    else none
  | none =>
    if value < 0xD800 ∨ 0xE000 ≤ value then some (text (Char.ofNat value :: read))
    else if value < 0xDC00 then some (half read value)
    else none

/-- Reads a character that starts a token or stands between two. -/
def start (c : Char) : Option (Scan × List Token) :=
  if isSpace c then some (between, [])
  else if c = '"' then some (text [], [])
  else if c.isDigit ∨ c = '-' then some (number [c], [])
  else if isWordChar c then some (word [c], [])
  else (Token.ofChar? c).map fun t => (between, [t])

/-- Reads a character after a complete token. -/
def startAfter (token : Option Token) (c : Char) : Option (Scan × List Token) := do
  let t ← token
  let (next, tokens) ← start c
  return (next, t :: tokens)

/-- Reads one character; gives the tokens that are complete with it. -/
def step : Scan → Char → Option (Scan × List Token)
  | between, c => start c
  | number spelling, c =>
    if isNumberChar c then some (number (c :: spelling), [])
    else startAfter (Token.ofSpelling? spelling.reverse) c
  | word letters, c =>
    if isWordChar c then some (word (c :: letters), [])
    else startAfter (Token.ofLetters? letters.reverse) c
  | text read, c =>
    if c = '"' then some (between, [.text (String.ofList read.reverse)])
    else if c = '\\' then some (escape read, [])
    else if c.toNat < 0x20 then none
    else some (text (c :: read), [])
  | escape read, c =>
    if c = 'u' then some (code read none 3 0, [])
    else (unescape? c).map fun d => (text (d :: read), [])
  | code read high missing value, c => do
    let d ← Text.hexDigit? c
    match missing with
    | 0 => (afterCode read high (value * 16 + d)).map (·, [])
    | missing + 1 => some (code read high missing (value * 16 + d), [])
  | half read high, c => if c = '\\' then some (halfEscape read high, []) else none
  | halfEscape read high, c => if c = 'u' then some (code read (some high) 3 0, []) else none

/-- Reads a text from a state on; gives the last state and the complete tokens. -/
def run : Scan → List Char → Option (Scan × List Token)
  | state, [] => some (state, [])
  | state, c :: rest => do
    let (next, tokens) ← step state c
    let (last, more) ← run next rest
    return (last, tokens ++ more)

/-- The token that the end of the text completes. -/
def finish : Scan → Option (List Token)
  | between => some []
  | number spelling => (Token.ofSpelling? spelling.reverse).map ([·])
  | word letters => (Token.ofLetters? letters.reverse).map ([·])
  | _ => none

theorem run_append (state : Scan) (s t : List Char) :
    run state (s ++ t) = do
      let (next, tokens) ← run state s
      let (last, more) ← run next t
      return (last, tokens ++ more) := by
  induction s generalizing state with
  | nil => cases h : run state t <;> simp [run, h]
  | cons c rest ih =>
    cases h : step state c with
    | none => simp [run, h]
    | some p =>
      cases hr : run p.1 rest with
      | none => simp [run, h, ih, hr]
      | some q => cases hq : run q.1 t <;> simp [run, h, ih, hr, hq]

end Scan

/-- The tokens of a text. -/
def scan (s : List Char) : Option (List Token) := do
  let (last, tokens) ← Scan.run .between s
  return tokens ++ (← last.finish)

end RemoteRecords.Json
