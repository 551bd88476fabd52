import RemoteRecords.Text.Digit

/-!
# Percent-encoding

Text as the bytes of its UTF-8 form, where a byte that is no unreserved
character of a URI is written `%` and two hexadecimal digits in upper case.

* `encode_append`: text is encoded character by character;
* `encode_unreserved`: an unreserved character stands for itself.
-/

namespace RemoteRecords.Text.Percent

/-- The characters that a URI may hold anywhere without a meaning of their own. -/
def isUnreserved (c : Char) : Bool :=
  c.isAlphanum || c == '-' || c == '_' || c == '.' || c == '~'

/-- A byte as `%` and two hexadecimal digits. -/
def escape (b : UInt8) : List Char :=
  ['%', hexChar 'A' (b.toNat / 16), hexChar 'A' (b.toNat % 16)]

/-- The form of one character. -/
def encodeChar (c : Char) : List Char :=
  if isUnreserved c then [c] else (String.utf8EncodeChar c).flatMap escape

/-- The form of a text. -/
def encode (s : List Char) : List Char :=
  s.flatMap encodeChar

@[simp]
theorem encode_nil : encode [] = [] := rfl

@[simp]
theorem encode_append (s t : List Char) : encode (s ++ t) = encode s ++ encode t := by
  simp [encode]

theorem encode_unreserved {s : List Char} (h : ∀ c ∈ s, isUnreserved c = true) :
    encode s = s := by
  induction s with
  | nil => rfl
  | cons c rest ih =>
    have hc : encodeChar c = [c] := by simp [encodeChar, h c]
    have hr := ih fun d hd => h d (List.mem_cons_of_mem _ hd)
    simpa [encode, hc] using hr

end RemoteRecords.Text.Percent
