/-!
# Splitting text

The parts of a text between the occurrences of a separator. There is always one
part more than there are separators.

* `split_of_not_mem`: a text without the separator is its only part;
* `split_append`: the parts before and after a separator.
-/

namespace RemoteRecords.Text

/-- Puts a character in front of the first part. -/
def pushFront (c : Char) : List (List Char) → List (List Char)
  | [] => [[c]]
  | part :: parts => (c :: part) :: parts

/-- The parts of a text between the separators. -/
def split (separator : Char) : List Char → List (List Char)
  | [] => [[]]
  | c :: rest =>
    if c = separator then [] :: split separator rest else pushFront c (split separator rest)

theorem split_of_not_mem {separator : Char} {s : List Char} (h : separator ∉ s) :
    split separator s = [s] := by
  induction s with
  | nil => rfl
  | cons c rest ih =>
    obtain ⟨hc, hr⟩ := not_or.mp (mt List.mem_cons.mpr h)
    simp [split, Ne.symm hc, ih hr, pushFront]

theorem split_append {separator : Char} {s : List Char} (h : separator ∉ s) (t : List Char) :
    split separator (s ++ separator :: t) = s :: split separator t := by
  induction s with
  | nil => simp [split]
  | cons c rest ih =>
    obtain ⟨hc, hr⟩ := not_or.mp (mt List.mem_cons.mpr h)
    simp [split, Ne.symm hc, ih hr, pushFront]

end RemoteRecords.Text
