/-!
# Fragments of a payload

A payload is put together from pieces of text. A string stands between quotes as
it is, without any escaping, and the items of a list stand between separators.

* `list_append`: the text of a joined list, cut anywhere;
* `list_eq_intercalate`: the separators of a list stand between its items only.
-/

namespace RemoteRecords.Fragment

/-- A string between quotes, as it is. -/
def quoted (s : String) : List Char :=
  '"' :: s.toList ++ ['"']

/-- Items with a separator between them. -/
def list (separator : List Char) : List (List Char) → List Char
  | [] => []
  | [item] => item
  | item :: next :: rest => item ++ separator ++ list separator (next :: rest)

theorem list_cons {separator : List Char} (item : List Char) {rest : List (List Char)}
    (h : rest ≠ []) : list separator (item :: rest) = item ++ separator ++ list separator rest := by
  cases rest with
  | nil => exact absurd rfl h
  | cons next rest => rfl

theorem list_append {separator : List Char} {front back : List (List Char)} (hf : front ≠ [])
    (hb : back ≠ []) :
    list separator (front ++ back) = list separator front ++ separator ++ list separator back := by
  induction front with
  | nil => exact absurd rfl hf
  | cons item rest ih =>
    cases rest with
    | nil => simpa [list] using list_cons item hb
    | cons next rest => simp [list, ← ih (by simp)]

theorem list_eq_intercalate (separator : List Char) (items : List (List Char)) :
    list separator items = separator.intercalate items := by
  induction items with
  | nil => rw [list, List.intercalate_nil]
  | cons item rest ih =>
    cases rest with
    | nil => rw [list, List.intercalate_singleton]
    | cons next rest => rw [list, ih, List.intercalate_cons_cons]

end RemoteRecords.Fragment
