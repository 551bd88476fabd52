import RemoteRecords.Text.Digit

/-!
# Integers written in decimal

Reading an integer from text with a bound on its size, and writing one. The
digits are read from left to right, and the first character at fault decides
the error: one that is no digit, or the digit with which the number leaves its
range. An empty text is told apart from a wrong digit.

* `readDigits_le`: what is read stays within the bound.
-/

namespace RemoteRecords.Text

/-- Why a text is no integer of the wanted range. -/
inductive IntegerFault
  | empty
  | invalidDigit
  | tooLarge
deriving DecidableEq, Repr

/-- The text that describes a fault. -/
def IntegerFault.message : IntegerFault → String
  | empty => "cannot parse integer from empty string"
  | invalidDigit => "invalid digit found in string"
  | tooLarge => "number too large to fit in target type"

/-- Reads digits after the number `read`, which may grow up to `bound`. -/
def readDigits (bound : Nat) : Nat → List Char → Except IntegerFault Nat
  | read, [] => .ok read
  | read, c :: rest =>
    match digit? c with
    | none => .error .invalidDigit
    | some d =>
      if read * 10 + d ≤ bound then readDigits bound (read * 10 + d) rest else .error .tooLarge

/-- Reads one or more digits; a missing digit after a sign counts as a wrong one. -/
def readMagnitude (bound : Nat) : List Char → Except IntegerFault Nat
  | [] => .error .invalidDigit
  | digits => readDigits bound 0 digits

/-- Reads an optional plus sign and digits. -/
def readNat (bound : Nat) : List Char → Except IntegerFault Nat
  | [] => .error .empty
  | '+' :: digits => readMagnitude bound digits
  | digits => readDigits bound 0 digits

/-- Reads an unsigned integer of 64 bits. -/
def readUInt64 (s : List Char) : Except IntegerFault UInt64 :=
  (readNat (UInt64.size - 1) s).map UInt64.ofNat

/-- Reads an optional sign and digits as a signed integer of 64 bits. -/
def readInt64 : List Char → Except IntegerFault Int64
  | [] => .error .empty
  | '-' :: digits => (readMagnitude Int64.minValue.toInt.natAbs digits).map fun n => Int64.ofInt (-n)
  | '+' :: digits => (readMagnitude Int64.maxValue.toInt.toNat digits).map fun n => Int64.ofInt n
  | digits => (readDigits Int64.maxValue.toInt.toNat 0 digits).map fun n => Int64.ofInt n

/-- The decimal digits of a natural number, without leading zeros. -/
def decimal (n : Nat) : List Char :=
  Nat.toDigits 10 n

/-- The decimal digits of an integer, after a minus sign if it is negative. -/
def decimalInt : Int → List Char
  | .ofNat n => decimal n
  | .negSucc n => '-' :: decimal (n + 1)

theorem readDigits_le {bound read n : Nat} {s : List Char} (hr : read ≤ bound)
    (h : readDigits bound read s = .ok n) : n ≤ bound := by
  induction s generalizing read with
  | nil =>
    simp only [readDigits, Except.ok.injEq] at h
    omega
  | cons c rest ih =>
    simp only [readDigits] at h
    split at h
    · cases h
    · split at h
      · next hb => exact ih hb h
      · cases h

end RemoteRecords.Text
