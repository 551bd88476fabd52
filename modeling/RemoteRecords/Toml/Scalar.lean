import RemoteRecords.Binary64.Decimal
import RemoteRecords.Text.Digit
import RemoteRecords.Toml.Table

/-!
# Numbers, truth values and dates of TOML

The values that are written without quotes. Such a value is the longest run of
the characters in use, with one blank between a date and its time; what the run
is depends on its form alone.

* `digitsOf?`: digits with single underscores between them;
* `integer?`, `float?`: numbers, which may be beyond the sizes in use;
* `isDate`, `isTime`: dates of the calendar and times of the day.
-/

namespace RemoteRecords.Toml

/-- The digits of a run in which single underscores may stand between digits. -/
def digitsOf? (isDigit : Char → Bool) : List Char → Option (List Char)
  | [] => none
  | [c] => if isDigit c then some [c] else none
  | c :: '_' :: rest => if isDigit c then (digitsOf? isDigit rest).map (c :: ·) else none
  | c :: rest => if isDigit c then (digitsOf? isDigit rest).map (c :: ·) else none

/-- A sign, if there is one, and the rest. -/
def splitSign : List Char → Bool × List Char
  | '-' :: rest => (true, rest)
  | '+' :: rest => (false, rest)
  | s => (false, s)

/-! ## Integers -/

/-- The value of digits in a base up to 16. -/
def valueOf (base : Nat) (digits : List Char) : Int :=
  digits.foldl (fun n c => n * base + (Text.hexDigit? c).getD 0) 0

/-- The digits of a decimal number before its point: no zero stands in front. -/
def wholeDigits? (s : List Char) : Option (List Char) :=
  match digitsOf? Char.isDigit s with
  | some ('0' :: _ :: _) => none
  | digits => digits

/-- An integer in decimal, or in another base after its mark. -/
def integer? : List Char → Option Int
  | '0' :: 'x' :: s => (digitsOf? (fun c => (Text.hexDigit? c).isSome) s).map (valueOf 16)
  | '0' :: 'o' :: s => (digitsOf? (fun c => '0' ≤ c && c ≤ '7') s).map (valueOf 8)
  | '0' :: 'b' :: s => (digitsOf? (fun c => c == '0' || c == '1') s).map (valueOf 2)
  | s =>
    let (negative, magnitude) := splitSign s
    (wholeDigits? magnitude).map fun ds => if negative then -valueOf 10 ds else valueOf 10 ds

/-- An integer, if it has a size in use: 128 bits, with a sign or without. -/
def Node.ofInteger (n : Int) : Node :=
  if -Nat.pow 2 127 ≤ n ∧ n < Nat.pow 2 128 then .integer n else .excessive

/-! ## Floats -/

/-- Whether the character marks an exponent. -/
def isExponentMark (c : Char) : Bool :=
  c == 'e' || c == 'E'

/-- The digits after the point of a number, given with the point; none without. -/
def fractionDigits? : List Char → Option (List Char)
  | [] => some []
  | _ :: digits => digitsOf? Char.isDigit digits

/-- The exponent of a number, given with its mark; zero without. -/
def exponent? : List Char → Option Int
  | [] => some 0
  | _ :: s =>
    let (negative, digits) := splitSign s
    (digitsOf? Char.isDigit digits).map fun ds => if negative then -valueOf 10 ds else valueOf 10 ds

/-- The decimal that a magnitude with a fraction, an exponent, or both spells. -/
def decimal? (magnitude : List Char) : Option Decimal := do
  let mantissa := magnitude.takeWhile (!isExponentMark ·)
  let exponent := magnitude.dropWhile (!isExponentMark ·)
  let fraction := mantissa.dropWhile (· != '.')
  if fraction = [] ∧ exponent = [] then none
  let whole ← wholeDigits? (mantissa.takeWhile (· != '.'))
  let places ← fractionDigits? fraction
  let power ← exponent? exponent
  return ⟨Text.ofDigits (whole ++ places), power - places.length⟩

/-- The double nearest to a decimal, if there is one. -/
def Node.ofDecimal (negative : Bool) (d : Decimal) : Node :=
  match d.toDouble? negative with
  | some x => .float (.finite x)
  | none => .excessive

/-- A float. There are words for what is beyond all numbers, and for none. -/
def float? (s : List Char) : Option Node :=
  let (negative, magnitude) := splitSign s
  if magnitude = "inf".toList then some (.float (.infinite negative))
  else if magnitude = "nan".toList then some (.float .nan)
  else (decimal? magnitude).map (.ofDecimal negative)

/-! ## Dates and times -/

/-- The value of a run of so many digits. -/
def number? (length : Nat) (s : List Char) : Option Nat :=
  if s.length = length ∧ s.all Char.isDigit then some (Text.ofDigits s) else none

/-- Whether February has 29 days. -/
def isLeap (year : Nat) : Bool :=
  year % 4 == 0 && (year % 100 != 0 || year % 400 == 0)

/-- How many days a month has. -/
def daysIn (year month : Nat) : Nat :=
  if month = 2 then if isLeap year then 29 else 28
  else if month = 4 ∨ month = 6 ∨ month = 9 ∨ month = 11 then 30
  else 31

/-- Whether a text is a date of the calendar. -/
def isDate : List Char → Bool
  | [a, b, c, d, '-', e, f, '-', g, h] =>
    match number? 4 [a, b, c, d], number? 2 [e, f], number? 2 [g, h] with
    | some year, some month, some day =>
      1 ≤ month && month ≤ 12 && 1 ≤ day && day ≤ daysIn year month
    | _, _, _ => false
  | _ => false

/-- Whether two pairs of digits are an hour and a minute. -/
def isHourMinute (a b c d : Char) : Bool :=
  (number? 2 [a, b]).any (· ≤ 23) && (number? 2 [c, d]).any (· ≤ 59)

/-- Whether a text is nothing, or a point and digits. -/
def isFractionOfSecond : List Char → Bool
  | [] => true
  | '.' :: digits => digits != [] && digits.all Char.isDigit
  | _ => false

/-- Whether a text is a time of the day, with seconds or without; a leap second
counts. -/
def isTime : List Char → Bool
  | [a, b, ':', c, d] => isHourMinute a b c d
  | a :: b :: ':' :: c :: d :: ':' :: e :: f :: rest =>
    isHourMinute a b c d && (number? 2 [e, f]).any (· ≤ 60) && isFractionOfSecond rest
  | _ => false

/-- Whether a text is a distance from universal time. -/
def isOffset : List Char → Bool
  | ['Z'] | ['z'] => true
  | [sign, a, b, ':', c, d] => (sign == '+' || sign == '-') && isHourMinute a b c d
  | _ => false

/-- The characters of a time. -/
def isTimeChar (c : Char) : Bool :=
  c.isDigit || c == ':' || c == '.'

/-- Whether a text is a time with a distance from universal time, or without. -/
def isTimeOfDay (s : List Char) : Bool :=
  let offset := s.dropWhile isTimeChar
  isTime (s.takeWhile isTimeChar) && (offset == [] || isOffset offset)

/-- Whether a text is a date, a time, or a date with a time. -/
def isMoment (s : List Char) : Bool :=
  isTime s || isDate s ||
    (isDate (s.take 10) &&
      match s.drop 10 with
      | mark :: time => (mark == 'T' || mark == 't' || mark == ' ') && isTimeOfDay time
      | [] => false)

/-! ## Values without quotes -/

/-- The characters of values without quotes. -/
def isBare (c : Char) : Bool :=
  c.isAlphanum || c == '_' || c == '+' || c == '-' || c == '.' || c == ':'

/-- The run at the start of a text, and the rest. -/
def bareRun (s : List Char) : List Char × List Char :=
  let run := s.takeWhile isBare
  let rest := s.dropWhile isBare
  match rest with
  | ' ' :: c :: more =>
    if isDate run ∧ c.isDigit then
      (run ++ ' ' :: (c :: more).takeWhile isBare, (c :: more).dropWhile isBare)
    else (run, rest)
  | _ => (run, rest)

/-- The value of a run. -/
def scalar? (run : List Char) : Option Node :=
  if run = "true".toList then some (.boolean true)
  else if run = "false".toList then some (.boolean false)
  else
    match integer? run with
    | some n => some (.ofInteger n)
    | none => if isMoment run then some (.moment run) else float? run

/-- Reads a value without quotes. -/
def readScalar (s : List Char) : Option (Node × List Char) :=
  let (run, rest) := bareRun s
  (scalar? run).map (·, rest)

end RemoteRecords.Toml
