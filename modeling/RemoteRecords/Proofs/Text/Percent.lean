import RemoteRecords.Text.Percent

/-!
# Percent-encoding undone

A percent-encoded text is read in two steps: each escape is a byte, and every other
character is the bytes of its UTF-8 form; then the bytes are the UTF-8 form of a text.
Reading what was encoded gives the text back, whatever it is.

* `bytes?_encode`: the bytes of an encoded text are those of the text;
* `decode?_encode`: decoding undoes encoding.
-/

namespace RemoteRecords.Text.Percent

/-- The bytes that a percent-encoded text stands for; none if a percent sign stands before
anything but two hexadecimal digits. -/
def bytes? : List Char → Option (List UInt8)
  | [] => some []
  | c :: rest =>
    if c = '%' then
      match rest with
      | high :: low :: rest => do
        let h ← hexDigit? high
        let l ← hexDigit? low
        return UInt8.ofNat (h * 16 + l) :: (← bytes? rest)
      | _ => none
    else (bytes? rest).map (String.utf8EncodeChar c ++ ·)

/-- The text that a percent-encoded text stands for; none if its bytes are no UTF-8. -/
def decode? (s : List Char) : Option (List Char) := do
  let bytes ← bytes? s
  let chars ← bytes.toByteArray.utf8Decode?
  return chars.toList

/-! ## Bytes -/

theorem bytes?_cons_of_ne {c : Char} (h : c ≠ '%') (rest : List Char) :
    bytes? (c :: rest) = (bytes? rest).map (String.utf8EncodeChar c ++ ·) := by
  -- The equations of the reader look two characters ahead, even behind another character.
  match rest with
  | [] | [_] | _ :: _ :: _ => simp only [bytes?, if_neg h]

theorem bytes?_escape (b : UInt8) (rest : List Char) :
    bytes? (escape b ++ rest) = (bytes? rest).map (b :: ·) := by
  have hlt := b.toNat_lt
  have hhigh := hexDigit?_hexChar (.inr rfl) (b.toNat / 16) (by omega)
  have hlow := hexDigit?_hexChar (.inr rfl) (b.toNat % 16) (by omega)
  have hb : UInt8.ofNat (b.toNat / 16 * 16 + b.toNat % 16) = b := by
    rw [Nat.div_add_mod', UInt8.ofNat_toNat]
  rw [escape, List.cons_append, List.cons_append, List.cons_append, List.nil_append, bytes?,
    if_pos rfl, hhigh, hlow]
  cases bytes? rest with
  | none => rfl
  | some more => exact congrArg (fun x => some (x :: more)) hb

theorem bytes?_escapes (bs : List UInt8) (rest : List Char) :
    bytes? (bs.flatMap escape ++ rest) = (bytes? rest).map (bs ++ ·) := by
  induction bs with
  | nil => cases h : bytes? rest <;> simp [h]
  | cons b bs ih =>
    rw [List.flatMap_cons, List.append_assoc, bytes?_escape, ih, Option.map_map]
    rfl

theorem bytes?_encodeChar (c : Char) (rest : List Char) :
    bytes? (encodeChar c ++ rest) = (bytes? rest).map (String.utf8EncodeChar c ++ ·) := by
  unfold encodeChar
  split
  · next hu =>
    have hp : c ≠ '%' := by
      rintro rfl
      exact absurd hu (by decide)
    rw [List.singleton_append, bytes?_cons_of_ne hp]
  · exact bytes?_escapes _ rest

/-- The bytes of an encoded text are those of the text. -/
theorem bytes?_encode (s : List Char) :
    bytes? (encode s) = some (s.flatMap String.utf8EncodeChar) := by
  induction s with
  | nil => rfl
  | cons c rest ih =>
    have he : encode (c :: rest) = encodeChar c ++ encode rest := rfl
    rw [he, bytes?_encodeChar, ih, List.flatMap_cons]
    rfl

/-! ## Text -/

/-- Decoding undoes encoding. -/
theorem decode?_encode (s : List Char) : decode? (encode s) = some s := by
  have hutf8 : (s.flatMap String.utf8EncodeChar).toByteArray.utf8Decode? = some s.toArray :=
    List.utf8Decode?_utf8Encode
  rw [decode?, bytes?_encode]
  simp only [Option.bind_eq_bind, Option.bind_some, hutf8]
  rfl

theorem mapM_decode?_map_encode (parts : List (List Char)) :
    (parts.map encode).mapM decode? = some parts := by
  induction parts with
  | nil => rfl
  | cons s rest ih =>
    rw [List.map_cons, List.mapM_cons, decode?_encode, ih]
    rfl

end RemoteRecords.Text.Percent
