/-!
# Replacing a word

Every occurrence of a word in a text replaced by another one, found from left
to right without overlaps. What is put in is not searched again.

* `replace_nil`: the empty text has nothing to replace;
* `replace_of_not_mem`: a text without the first character of the word stays.
-/

namespace RemoteRecords.Text

/-- Replaces the occurrences of `word` after the next `skip` characters, which
are dropped: they belong to an occurrence already replaced. -/
def replaceFrom (word new : List Char) : Nat → List Char → List Char
  | _, [] => []
  | 0, c :: rest =>
    if word.isPrefixOf (c :: rest) then new ++ replaceFrom word new (word.length - 1) rest
    else c :: replaceFrom word new 0 rest
  | skip + 1, _ :: rest => replaceFrom word new skip rest

/-- Replaces every occurrence of `word`, which is not empty, by `new`. -/
def replace (word new s : List Char) : List Char :=
  replaceFrom word new 0 s

@[simp]
theorem replace_nil (word new : List Char) : replace word new [] = [] := rfl

theorem replace_of_not_mem {c : Char} {s : List Char} (word new : List Char) (h : c ∉ s) :
    replace (c :: word) new s = s := by
  unfold replace
  induction s with
  | nil => rfl
  | cons d rest ih =>
    obtain ⟨hd, hr⟩ := not_or.mp (mt List.mem_cons.mpr h)
    have hp : (c :: word).isPrefixOf (d :: rest) = false := by simp [List.isPrefixOf, hd]
    simp [replaceFrom, hp, ih hr]

end RemoteRecords.Text
