import RemoteRecords.Proofs.Json.Document
import RemoteRecords.Proofs.Json.Scan

/-!
# Texts of the grammar are read

A text is read as the document that the grammar gives it. So the grammar gives a
text one document at most, and a text that a machine puts together by the rules
of the grammar is read back as what it was made from.

* `Spells.scan`: the tokens of a value, by induction on its derivation;
* `SpellsDocument.read`: the document that is read;
* `SpellsDocument.unique`: no text is two documents.
-/

namespace RemoteRecords.Json

theorem ends_of_isSpace {c : Char} (h : isSpace c = true) (s : List Char) : Ends (c :: s) := by
  rw [ends_cons]
  simp only [isSpace, Bool.or_eq_true, beq_iff_eq] at h
  rcases h with ((rfl | rfl) | rfl) | rfl <;> decide

theorem IsBlank.ends {s : List Char} (h : IsBlank s) {t : List Char} (ht : Ends t) :
    Ends (s ++ t) := by
  cases s with
  | nil => exact ht
  | cons c s => exact ends_of_isSpace (h c List.mem_cons_self) _

/-- A mark ends the number or word before it. -/
theorem SpellsMark.ends {s : List Char} {mark : Char} (h : SpellsMark s mark)
    (hm : isNumberChar mark = false ∧ isWordChar mark = false) (t : List Char) : Ends (s ++ t) := by
  obtain ⟨before, after, hb, -, rfl⟩ := h
  rw [List.append_assoc]
  exact hb.ends ((ends_cons _ _).mpr hm)

mutual

/-- The tokens of a value are those of its document. -/
theorem Spells.scan {s : List Char} {t : Tree} :
    Spells s t → ∀ u, Ends u → scan (s ++ u) = emit t.tokens (scan u)
  | .word w, _, hu => scan_word w hu
  | .number h, _, hu => scan_numeral h hu
  | .text h, u, _ => h.scan u
  | .array ho h hc, u, _ => by
    rw [List.append_assoc, List.append_assoc, ho.scan rfl, h.scan _ (hc.ends (by decide) u),
      hc.scan rfl, emit_emit, emit_emit]
    simp [Tree.tokens]
  | .object ho h hc, u, _ => by
    rw [List.append_assoc, List.append_assoc, ho.scan rfl, h.scan _ (hc.ends (by decide) u),
      hc.scan rfl, emit_emit, emit_emit]
    simp [Tree.tokens]

theorem SpellsItems.scan {s : List Char} {items : List Tree} :
    SpellsItems s items → ∀ u, Ends u →
      scan (s ++ u) = emit (Tree.itemTokens items).tail (scan u)
  | .nil, _, _ => (emit_nil _).symm
  | .singleton h, u, hu => by
    rw [h.scan u hu]
    simp [Tree.itemTokens]
  | .cons h hm hr, u, hu => by
    rw [List.append_assoc, List.append_assoc, h.scan _ (hm.ends (by decide) _), hm.scan rfl,
      hr.scan u hu, emit_emit, emit_emit]
    simp [Tree.itemTokens]

theorem SpellsMembers.scan {s : List Char} {members : List (String × Tree)} :
    SpellsMembers s members → ∀ u, Ends u →
      scan (s ++ u) = emit (Tree.memberTokens members).tail (scan u)
  | .nil, _, _ => (emit_nil _).symm
  | .singleton hn hg h, u, hu => by
    rw [List.append_assoc, List.append_assoc, hn.scan, hg.scan rfl, h.scan u hu, emit_emit,
      emit_emit]
    simp [Tree.memberTokens]
  | .cons hn hg h hm hr, u, hu => by
    simp only [List.append_assoc]
    rw [hn.scan, hg.scan rfl, h.scan _ (hm.ends (by decide) _), hm.scan rfl, hr.scan u hu]
    simp [Tree.memberTokens]

end

namespace SpellsDocument

variable {s : List Char} {t : Tree}

/-- A text is read as the document that it spells. -/
theorem read (h : SpellsDocument s t) : Tree.read s = some t := by
  obtain ⟨hb, h, ha⟩ := h
  rename_i before body after
  have hafter : Json.scan after = some [] := by
    rw [← List.append_nil after, scan_blank ha, scan_nil]
  have hends : Ends after := by
    rw [← List.append_nil after]
    exact ha.ends ends_nil
  refine Tree.read_of_scan ?_
  rw [List.append_assoc, scan_blank hb, h.scan after hends, hafter, emit_some, List.append_nil]

/-- A text spells one document at most. -/
theorem unique (h : SpellsDocument s t) {t' : Tree} (h' : SpellsDocument s t') : t = t' :=
  Option.some.inj (h.read.symm.trans h'.read)

end SpellsDocument

end RemoteRecords.Json
