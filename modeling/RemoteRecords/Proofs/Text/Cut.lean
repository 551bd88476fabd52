import RemoteRecords.Text.Blank
import RemoteRecords.Text.Split

/-!
# Where texts are cut

A text that is put together from two pieces says where it was cut if the first
piece cannot go on: because of a mark that it does not hold, or because of the
kind of its characters. So do the parts between separators, and the characters
that are dropped from an end.

* `append_cons_inj_of_not_mem`, `append_inj_of_all`: the two pieces of a text;
* `split_append_last`: the part after the last separator;
* `dropEndWhile_append`, `trim_eq_self`: texts that keep their ends;
* `trim_append`, `exists_trim`: what is trimmed off, and what is left.
-/

namespace RemoteRecords.Text

/-! ## Two pieces -/

/-- Texts up to the first occurrence of a mark. -/
theorem append_cons_inj_of_not_mem {α : Type} {c : α} {s t u v : List α} (hs : c ∉ s) (ht : c ∉ t)
    (h : s ++ c :: u = t ++ c :: v) : s = t ∧ u = v := by
  induction s generalizing t with
  | nil =>
    cases t with
    | nil => exact ⟨rfl, (List.cons.inj h).2⟩
    | cons d t => exact absurd (List.cons.inj h).1 fun e => ht (e ▸ List.mem_cons_self)
  | cons d s ih =>
    cases t with
    | nil => exact absurd (List.cons.inj h).1 fun e => hs (e ▸ List.mem_cons_self)
    | cons e t =>
      obtain ⟨rfl, hr⟩ := List.cons.inj h
      obtain ⟨rfl, rfl⟩ := ih (fun hm => hs (List.mem_cons_of_mem _ hm))
        (fun hm => ht (List.mem_cons_of_mem _ hm)) hr
      exact ⟨rfl, rfl⟩

/-- Texts as far as their characters satisfy `p`. -/
theorem append_inj_of_all {p : Char → Bool} {s t u v : List Char} (hs : ∀ c ∈ s, p c = true)
    (ht : ∀ c ∈ t, p c = true) (hu : ∀ c ∈ u.head?, p c = false) (hv : ∀ c ∈ v.head?, p c = false)
    (h : s ++ u = t ++ v) : s = t ∧ u = v := by
  have hne : ∀ {c : Char} {l w : List Char}, (∀ d ∈ w.head?, p d = false) → p c = true →
      w ≠ c :: l := by
    rintro c l w hw hc rfl
    rw [hw c rfl] at hc
    cases hc
  induction s generalizing t with
  | nil =>
    cases t with
    | nil => exact ⟨rfl, h⟩
    | cons d t => exact absurd h (hne hu (ht d List.mem_cons_self))
  | cons c s ih =>
    cases t with
    | nil => exact absurd h.symm (hne hv (hs c List.mem_cons_self))
    | cons d t =>
      obtain ⟨rfl, hr⟩ := List.cons.inj h
      obtain ⟨rfl, rfl⟩ := ih (fun d hd => hs d (List.mem_cons_of_mem _ hd))
        (fun d hd => ht d (List.mem_cons_of_mem _ hd)) hr
      exact ⟨rfl, rfl⟩

/-! ## Parts and ends -/

theorem split_ne_nil (separator : Char) (s : List Char) : split separator s ≠ [] := by
  cases s with
  | nil => exact List.cons_ne_nil _ _
  | cons c rest =>
    rw [split]
    split
    · exact List.cons_ne_nil _ _
    · cases split separator rest <;> exact List.cons_ne_nil _ _

theorem pushFront_append {parts : List (List Char)} (h : parts ≠ []) (c : Char)
    (back : List (List Char)) : pushFront c (parts ++ back) = pushFront c parts ++ back := by
  obtain ⟨part, parts, rfl⟩ := List.exists_cons_of_ne_nil h
  rfl

/-- The part after the last separator. -/
theorem split_append_last {separator : Char} {t : List Char} (h : separator ∉ t)
    (s : List Char) : split separator (s ++ separator :: t) = split separator s ++ [t] := by
  induction s with
  | nil =>
    have := split_append (List.not_mem_nil (a := separator)) t
    rwa [split_of_not_mem h] at this
  | cons c rest ih =>
    rw [List.cons_append, split, split, ih]
    split
    · rfl
    · exact pushFront_append (split_ne_nil _ _) _ _

theorem dropEndWhile_append {p : Char → Bool} {t : List Char} (hn : t ≠ [])
    (h : ∀ c ∈ t, p c = false) (s : List Char) : dropEndWhile p (s ++ t) = s ++ t := by
  obtain ⟨front, c, rfl⟩ : ∃ front c, t = front ++ [c] :=
    ⟨_, _, (List.dropLast_concat_getLast hn).symm⟩
  rw [← List.append_assoc]
  exact dropEndWhile_append_of_neg (h c (by simp)) _

theorem dropEndWhile_append_of_all {p : Char → Bool} {t : List Char} (h : ∀ c ∈ t, p c = true)
    (s : List Char) : dropEndWhile p (s ++ t) = dropEndWhile p s := by
  rw [dropEndWhile, dropEndWhile, List.reverse_append,
    List.dropWhile_append_of_pos fun c hc => h c (List.mem_reverse.mp hc)]

theorem trim_eq_self {c d : Char} (hc : isBlank c = false) (hd : isBlank d = false)
    (s : List Char) : trim (c :: s ++ [d]) = c :: s ++ [d] := by
  rw [trim, trimStart, List.cons_append, List.dropWhile_cons_of_neg (by rw [hc]; decide), trimEnd,
    ← List.cons_append]
  exact dropEndWhile_append_of_neg hd _

/-- What stands between blanks, if it holds none. -/
theorem trim_append {before core after : List Char} (hb : ∀ c ∈ before, isBlank c = true)
    (ha : ∀ c ∈ after, isBlank c = true) (hn : core ≠ []) (hc : ∀ c ∈ core, isBlank c = false) :
    trim (before ++ core ++ after) = core := by
  have hstart : trimStart (before ++ core ++ after) = core ++ after := by
    obtain ⟨c, rest, rfl⟩ := List.exists_cons_of_ne_nil hn
    rw [trimStart, List.append_assoc, List.dropWhile_append_of_pos hb, List.cons_append,
      List.dropWhile_cons_of_neg (by rw [hc c List.mem_cons_self]; decide)]
  have hend := dropEndWhile_append hn hc []
  rw [List.nil_append] at hend
  rw [trim, hstart, trimEnd, dropEndWhile_append_of_all ha, hend]

/-- All that is trimmed off is blank. -/
theorem exists_trim (s : List Char) : ∃ before after, s = before ++ trim s ++ after ∧
    (∀ c ∈ before, isBlank c = true) ∧ ∀ c ∈ after, isBlank c = true := by
  have hall : ∀ t : List Char, ∀ c ∈ t.takeWhile isBlank, isBlank c = true := fun t =>
    List.all_eq_true.mp List.all_takeWhile
  refine ⟨s.takeWhile isBlank, ((trimStart s).reverse.takeWhile isBlank).reverse, ?_, hall s, ?_⟩
  · rw [trim, trimEnd, dropEndWhile, List.append_assoc, ← List.reverse_append,
      List.takeWhile_append_dropWhile, List.reverse_reverse, trimStart,
      List.takeWhile_append_dropWhile]
  · exact fun c hc => hall _ c (List.mem_reverse.mp hc)

end RemoteRecords.Text
