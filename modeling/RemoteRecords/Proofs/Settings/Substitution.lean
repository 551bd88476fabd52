import RemoteRecords.Proofs.Settings.Template

/-!
# One substitution

The slots of an address are filled in one after the other, and each looks again at what
those before it have put in. For a template of literals and placeholders without further
braces that is one substitution all the same: what was put in is never taken for a
placeholder, so only the placeholders of the template itself are filled, each by the
first slot of its name.

* `Piece.substitute`: what a piece of a template becomes in an address;
* `lookup_eq_of_perm`: slots of different names may change places;
* `Settings.address_eq_substitution`: an address is one substitution.
-/

namespace RemoteRecords

/-! ## The substitution -/

namespace Piece

/-- A piece of a template with its value in place. The names of the two keys stand for the
keys in percent-encoding, every other name for the first value that is given to it, and a
name without a value stays a placeholder. -/
def settle (c : Credentials) (slots : List Slot) : Piece → Piece
  | literal s => literal s
  | hole name =>
    if name = "csk" then literal (Text.Percent.encode c.csk.toList)
    else if name = "aci" then literal (Text.Percent.encode c.aci.toList)
    else match slots.lookup name with
      | some value => literal value
      | none => hole name

/-- What a piece of a template becomes in an address. -/
def substitute (c : Credentials) (slots : List Slot) (p : Piece) : List Char :=
  (p.settle c slots).text

theorem lookup_slots_append (c : Credentials) (slots : List Slot) (name : String) :
    (c.slots ++ slots).lookup name =
      if name = "csk" then some (Text.Percent.encode c.csk.toList)
      else if name = "aci" then some (Text.Percent.encode c.aci.toList)
      else slots.lookup name := by
  rw [Credentials.slots, List.cons_append, List.cons_append, List.nil_append, List.lookup_cons,
    List.lookup_cons]
  by_cases hcsk : name = "csk"
  · rw [if_pos hcsk, beq_iff_eq.mpr hcsk]
  by_cases haci : name = "aci"
  · rw [if_neg hcsk, if_pos haci, beq_eq_false_iff_ne.mpr hcsk, beq_iff_eq.mpr haci]
  · rw [if_neg hcsk, if_neg haci, beq_eq_false_iff_ne.mpr hcsk, beq_eq_false_iff_ne.mpr haci]

/-- The keys are slots like others, but no slot comes before them. -/
theorem expand_slots_append (c : Credentials) (slots more : List Slot) (p : Piece) :
    p.expand (c.slots ++ slots ++ more) = (p.settle c slots).expand more := by
  cases p with
  | literal s => rfl
  | hole name =>
    rw [expand, List.lookup_append, lookup_slots_append, settle]
    split
    · rfl
    split
    · rfl
    cases slots.lookup name <;> rfl

theorem expand_nil : expand [] = text := by
  funext p
  cases p <;> rfl

end Piece

/-! ## The order of slots -/

/-- Slots of different names may change places. -/
theorem lookup_eq_of_perm {slots reordered : List Slot} (h : slots.Perm reordered)
    (hn : (slots.map Prod.fst).Nodup) (name : String) :
    slots.lookup name = reordered.lookup name := by
  induction h with
  | nil => rfl
  | cons v _ ih =>
    rw [List.lookup_cons, List.lookup_cons, ih (List.nodup_cons.mp hn).2]
  | swap v w rest =>
    have hne : w.1 ≠ v.1 := fun e => (List.nodup_cons.mp hn).1 (List.mem_cons.mpr (.inl e))
    rw [List.lookup_cons, List.lookup_cons, List.lookup_cons, List.lookup_cons]
    by_cases hw : name = w.1
    · rw [beq_iff_eq.mpr hw, beq_eq_false_iff_ne.mpr (hw ▸ hne)]
    · rw [beq_eq_false_iff_ne.mpr hw]
  | trans h₁ _ ih₁ ih₂ =>
    rw [ih₁ hn, ih₂ ((h₁.map Prod.fst).nodup_iff.mp hn)]

theorem Piece.substitute_eq_of_perm {slots reordered : List Slot} (h : slots.Perm reordered)
    (hn : (slots.map Prod.fst).Nodup) (c : Credentials) :
    substitute c reordered = substitute c slots := by
  funext p
  cases p with
  | literal s => rfl
  | hole name => rw [substitute, substitute, settle, settle, lookup_eq_of_perm h hn]

/-! ## Addresses -/

namespace Settings

variable {s : Settings} {e : Endpoint} {pieces : List Piece}

theorem base_append_slashes (s : Settings) (n : Nat) :
    { s with url := s.url ++ String.ofList (List.replicate n '/') }.base = s.base := by
  rw [base, base, String.toList_append, String.toList_ofList]
  refine Text.dropEndWhile_append_of_all (fun c hc => ?_) _
  rw [List.eq_of_mem_replicate hc]
  rfl

theorem toList_address_of_pieces (ht : (s.templates.get e).toList = pieces.flatMap Piece.text)
    (hp : ∀ p ∈ pieces, p.IsBraceFree) (c : Credentials) {slots more : List Slot}
    (hs : ∀ v ∈ slots, v.IsBraceFree) (hm : ∀ v ∈ more, v.IsBraceFree) :
    (s.address e c (slots ++ more)).toList =
      s.base ++ (pieces.map (Piece.settle c slots)).flatMap (Piece.expand more) := by
  have hall : ∀ v ∈ c.slots ++ slots ++ more, v.IsBraceFree := by
    intro v hv
    rcases List.mem_append.mp hv with hv | hv
    · rcases List.mem_append.mp hv with hv | hv
      · exact c.isBraceFree_slots v hv
      · exact hs v hv
    · exact hm v hv
  have hsettle : Piece.expand (c.slots ++ slots ++ more) = fun p => (p.settle c slots).expand more :=
    funext (Piece.expand_slots_append c slots more)
  rw [address, String.toList_ofList, ht, ← List.append_assoc, fill_text hall hp, List.flatMap_map,
    hsettle]

/-- An address is the base without the slashes at its end, and the template with each key
and each value in the place of its placeholders, all at once. What was put in is no
placeholder to slots that come later, slots of different names may come in any order, and
slashes at the end of the base do not count. -/
theorem address_eq_substitution (ht : (s.templates.get e).toList = pieces.flatMap Piece.text)
    (hp : ∀ p ∈ pieces, p.IsBraceFree) (c : Credentials) {slots : List Slot}
    (hs : ∀ v ∈ slots, v.IsBraceFree) :
    (s.address e c slots).toList = s.base ++ pieces.flatMap (Piece.substitute c slots) ∧
      (∀ more : List Slot, (∀ v ∈ more, v.IsBraceFree) →
        (s.address e c (slots ++ more)).toList =
          s.base ++ (pieces.map (Piece.settle c slots)).flatMap (Piece.expand more)) ∧
      (∀ reordered : List Slot, slots.Perm reordered → (slots.map Prod.fst).Nodup →
        s.address e c reordered = s.address e c slots) ∧
      ∀ n, { s with url := s.url ++ String.ofList (List.replicate n '/') }.address e c slots =
        s.address e c slots := by
  have hone : ∀ {slots : List Slot}, (∀ v ∈ slots, v.IsBraceFree) →
      (s.address e c slots).toList = s.base ++ pieces.flatMap (Piece.substitute c slots) := by
    intro slots hs
    have hnone : ∀ v ∈ ([] : List Slot), v.IsBraceFree := fun v hv => absurd hv List.not_mem_nil
    have := toList_address_of_pieces ht hp c hs hnone
    rwa [List.append_nil, Piece.expand_nil, List.flatMap_map] at this
  refine ⟨hone hs, fun more hm => toList_address_of_pieces ht hp c hs hm, ?_, fun n => ?_⟩
  · intro reordered hr hn
    have hs' : ∀ v ∈ reordered, v.IsBraceFree := fun v hv => hs v (hr.mem_iff.mpr hv)
    refine String.toList_injective ?_
    rw [hone hs', hone hs, Piece.substitute_eq_of_perm hr hn]
  · rw [address, address, base_append_slashes]

/-- A template with one name twice, one name that gets no value, and an empty name. -/
def samplePieces : List Piece :=
  [.literal "/v/".toList, .hole "csk", .literal "/".toList, .hole "n", .hole "n", .hole "m",
    .hole "k", .hole ""]

/-- Settings with that template and with slashes at the end of the base. -/
def sample : Settings :=
  { standard with
    url := "http://h//"
    templates := Templates.standard.set .models (String.ofList (samplePieces.flatMap Piece.text)) }

/-- A key that looks like a placeholder is put in as a key. -/
theorem address_eq_substitution_sample :
    (sample.templates.get .models).toList = samplePieces.flatMap Piece.text ∧
      (∀ p ∈ samplePieces, p.IsBraceFree) ∧
      (∀ v ∈ [("n", ['1']), ("m", ['2'])], Slot.IsBraceFree v) ∧
      (sample.address .models ⟨"\x7bm\x7d", ""⟩ [("n", ['1']), ("m", ['2'])]).toList =
        "http://h/v/%7Bm%7D/112\x7bk\x7d\x7b\x7d".toList ∧
      sample.address .models ⟨"\x7bm\x7d", ""⟩ [("m", ['2']), ("n", ['1'])] =
        sample.address .models ⟨"\x7bm\x7d", ""⟩ [("n", ['1']), ("m", ['2'])] := by
  have ht : (sample.templates.get .models).toList = samplePieces.flatMap Piece.text :=
    String.toList_ofList
  have hs : ∀ v ∈ [("n", ['1']), ("m", ['2'])], Slot.IsBraceFree v := by
    simp only [List.forall_mem_cons, List.not_mem_nil, false_imp_iff, implies_true, and_true]
    exact ⟨⟨by decide, by decide⟩, ⟨by decide, by decide⟩⟩
  obtain ⟨haddress, -, horder, -⟩ :=
    address_eq_substitution ht (by decide) ⟨"\x7bm\x7d", ""⟩ hs
  refine ⟨ht, by decide, hs, ?_, horder _ (.swap _ _ _) (by decide)⟩
  rw [haddress]
  decide

end Settings

end RemoteRecords
