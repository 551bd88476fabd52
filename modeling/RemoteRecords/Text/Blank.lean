/-!
# Blank characters

The characters that Unicode lists as `White_Space`, and text without the blanks
at its ends. Settings, projections and numbers that arrive as text are trimmed
this way.

* `isBlank_of_isWhitespace`: the class holds the ASCII blanks of `Char`;
* `dropEndWhile_append_of_pos`, `dropEndWhile_append_of_neg`: an end is dropped
  as far as it has the property, and no further.
-/

namespace RemoteRecords.Text

/-- The 25 code points with the Unicode property `White_Space`. -/
def isBlank (c : Char) : Bool :=
  let n := c.toNat
  (9 ≤ n && n ≤ 13) || n == 0x20 || n == 0x85 || n == 0xA0 || n == 0x1680 ||
    (0x2000 ≤ n && n ≤ 0x200A) || n == 0x2028 || n == 0x2029 || n == 0x202F || n == 0x205F ||
    n == 0x3000

/-- Text from its first character that is not blank on. -/
def trimStart (s : List Char) : List Char :=
  s.dropWhile isBlank

/-- The end of `s` dropped as far as its characters satisfy `p`. -/
def dropEndWhile (p : Char → Bool) (s : List Char) : List Char :=
  (s.reverse.dropWhile p).reverse

/-- Text up to its last character that is not blank. -/
def trimEnd (s : List Char) : List Char :=
  dropEndWhile isBlank s

/-- Text without the blanks at its two ends. -/
def trim (s : List Char) : List Char :=
  trimEnd (trimStart s)

theorem dropEndWhile_append_of_pos {p : Char → Bool} {c : Char} (h : p c = true) (s : List Char) :
    dropEndWhile p (s ++ [c]) = dropEndWhile p s := by
  simp [dropEndWhile, h]

theorem dropEndWhile_append_of_neg {p : Char → Bool} {c : Char} (h : p c = false)
    (s : List Char) : dropEndWhile p (s ++ [c]) = s ++ [c] := by
  simp [dropEndWhile, h]

theorem isBlank_of_isWhitespace {c : Char} (h : c.isWhitespace = true) : isBlank c = true := by
  simp only [Char.isWhitespace, Bool.or_eq_true, decide_eq_true_eq] at h
  rcases h with ((rfl | rfl) | rfl) | rfl <;> rfl

end RemoteRecords.Text
