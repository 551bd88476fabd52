import RemoteRecords.Proofs.Json.Reading

/-!
# Texts that are no document

Where the name of a member has to stand, an object is refused: whatever stands before
it and whatever follows, the text is no document. A text is refused as well if members
stand before such a place, or if the place is in an object of its own.

* `Build.readOn`: what the machine makes of a text, from a state on;
* `Advances`: texts that lead from one place of a name to another;
* `Refused.list`: lists of members of which some are refused;
* `Refused.not_spellsDocument`: an object with such members is no document.
-/

namespace RemoteRecords.Json

namespace Build

/-- What the machine makes of a text, from a state on. -/
def readOn (b : Build) (s : List Char) : Option Build :=
  (scan s).bind b.run

/-- The name of a member may follow. -/
inductive AwaitsName : Build → Prop
  | first (frames : List Frame) : AwaitsName ⟨frames, .firstName⟩
  | further (frames : List Frame) (members : List (String × Tree)) :
      AwaitsName ⟨frames, .name members⟩

/-- A text is read as the tokens that it starts with, and then as what follows them. -/
theorem readOn_of_scan {s u : List Char} {tokens : List Token}
    (h : scan s = emit tokens (scan u)) (b : Build) :
    b.readOn s = (b.run tokens).bind fun next => next.readOn u := by
  rw [readOn, h]
  cases hu : scan u with
  | none => simp [readOn, hu]
  | some back => simp [readOn, hu, run_append]

/-- Members after those already read. -/
theorem run_nextMember (frames : List Frame) (done members : List (String × Tree)) :
    run ⟨frames, .nextMember done⟩ (Tree.memberTokens members) =
      some ⟨frames, .nextMember (members.reverse ++ done)⟩ := by
  induction members generalizing done with
  | nil => rfl
  | cons m rest ih =>
    obtain ⟨name, t⟩ := m
    have hc : step ⟨frames, .nextMember done⟩ .comma = some ⟨frames, .name done⟩ := rfl
    have hn : step ⟨frames, .name done⟩ (.text name) = some ⟨frames, .colon done name⟩ := rfl
    have hv : step ⟨frames, .colon done name⟩ .colon =
      some ⟨.object done name :: frames, .value⟩ := rfl
    simp only [Tree.memberTokens, List.cons_append]
    rw [run_cons_of_step hc, run_cons_of_step hn, run_cons_of_step hv, run_tokens]
    exact (ih ((name, t) :: done)).trans (by simp)

namespace AwaitsName

variable {b : Build} (hb : AwaitsName b)
include hb

/-- No object stands in the place of a name. -/
theorem step_openBrace : b.step .openBrace = none := by
  cases hb <;> rfl

/-- A name and its colon. -/
theorem exists_run_name (name : String) :
    ∃ frames, b.run [.text name, .colon] = some ⟨frames, .value⟩ := by
  cases hb with
  | first frames => exact ⟨.object [] name :: frames, rfl⟩
  | further frames members => exact ⟨.object members name :: frames, rfl⟩

/-- Members and the comma after them, with which the next name may follow. -/
theorem exists_run_members {members : List (String × Tree)} (hm : members ≠ []) :
    ∃ next, b.run ((Tree.memberTokens members).tail ++ [.comma]) = some next ∧
      AwaitsName next := by
  obtain ⟨⟨name, t⟩, rest, rfl⟩ := List.exists_cons_of_ne_nil hm
  have hrun : ∀ frames done, run ⟨.object done name :: frames, .value⟩
      (t.tokens ++ (Tree.memberTokens rest ++ [.comma])) =
        some ⟨frames, .name (rest.reverse ++ (name, t) :: done)⟩ := by
    intro frames done
    rw [run_tokens, complete, run_append, run_nextMember]
    rfl
  simp only [Tree.memberTokens, List.cons_append, List.tail_cons, List.append_assoc]
  cases hb with
  | first frames => exact ⟨_, hrun frames [], .further frames _⟩
  | further frames members => exact ⟨_, hrun frames members, .further frames _⟩

end AwaitsName

end Build

/-! ## From one place of a name to the next -/

/-- A text that leads from a place where the name of a member is expected to another. -/
def Advances (s : List Char) : Prop :=
  ∀ b : Build, b.AwaitsName →
    ∃ next : Build, next.AwaitsName ∧ ∀ u, b.readOn (s ++ u) = next.readOn u

theorem advances_nil : Advances [] :=
  fun b hb => ⟨b, hb, fun _ => rfl⟩

theorem Advances.append {s t : List Char} (hs : Advances s) (ht : Advances t) :
    Advances (s ++ t) := by
  intro b hb
  obtain ⟨next, hnext, hread⟩ := hs b hb
  obtain ⟨last, hlast, hread'⟩ := ht next hnext
  refine ⟨last, hlast, fun u => ?_⟩
  rw [List.append_assoc, hread, hread']

/-- Members, and the comma after them. -/
theorem SpellsMembers.advances {s : List Char} {members : List (String × Tree)}
    (h : SpellsMembers s members) (hm : members ≠ []) {separator : List Char}
    (hs : SpellsMark separator ',') : Advances (s ++ separator) := by
  intro b hb
  obtain ⟨next, hrun, hnext⟩ := hb.exists_run_members hm
  refine ⟨next, hnext, fun u => ?_⟩
  have hscan : Json.scan (s ++ separator ++ u) =
      emit ((Tree.memberTokens members).tail ++ [.comma]) (Json.scan u) := by
    rw [List.append_assoc, h.scan _ (hs.ends (by decide) _), hs.scan rfl, emit_emit]
  rw [Build.readOn_of_scan hscan, hrun, Option.bind_some]

/-- A name, and the brace that opens its object. -/
theorem advances_opening {name : String} (hn : IsPlain name) {gap opening : List Char}
    (hg : SpellsMark gap ':') (ho : SpellsMark opening '\x7b') :
    Advances (Fragment.quoted name ++ gap ++ opening) := by
  intro b hb
  obtain ⟨frames, hrun⟩ := hb.exists_run_name name
  refine ⟨⟨frames, .firstName⟩, .first frames, fun u => ?_⟩
  have hscan : scan (Fragment.quoted name ++ gap ++ opening ++ u) =
      emit ([.text name, .colon] ++ [.openBrace]) (scan u) := by
    simp only [List.append_assoc]
    rw [(spellsText_quoted hn).scan, hg.scan rfl, ho.scan rfl, emit_emit, emit_emit]
    rfl
  rw [Build.readOn_of_scan hscan, Build.run_append, hrun]
  rfl

/-! ## Places that are refused -/

/-- A text that cannot stand where the name of a member has to, whatever follows it. -/
def Refused (s : List Char) : Prop :=
  ∀ b : Build, b.AwaitsName → ∀ u, b.readOn (s ++ u) = none

/-- An object has no name. -/
theorem refused_openBrace (s : List Char) : Refused ('\x7b' :: s) := by
  intro b hb u
  have hscan : scan ('\x7b' :: s ++ u) = emit [.openBrace] (scan (s ++ u)) := scan_mark rfl _
  rw [Build.readOn_of_scan hscan, Build.run_cons, hb.step_openBrace]
  rfl

namespace Refused

variable {s : List Char} (h : Refused s)
include h

theorem append (t : List Char) : Refused (s ++ t) := by
  intro b hb u
  rw [List.append_assoc]
  exact h b hb _

theorem after {front : List Char} (hf : Advances front) : Refused (front ++ s) := by
  intro b hb u
  obtain ⟨next, hnext, hread⟩ := hf b hb
  rw [List.append_assoc, hread]
  exact h next hnext u

/-- An object with a place that is refused is no document. -/
theorem not_spellsDocument (u : List Char) (t : Tree) : ¬SpellsDocument ('\x7b' :: s ++ u) t := by
  intro ht
  have hscan : scan ('\x7b' :: s ++ u) = emit [.openBrace] (scan (s ++ u)) := scan_mark rfl _
  have hread : Build.readOn ⟨[], .value⟩ ('\x7b' :: s ++ u) = none := by
    rw [Build.readOn_of_scan hscan]
    exact h ⟨[], .firstName⟩ (.first []) u
  obtain ⟨tokens, htokens, hdocument⟩ := Option.bind_eq_some_iff.mp ht.read
  rw [Build.readOn, htokens, Option.bind_some] at hread
  rw [Tree.ofTokens, hread] at hdocument
  cases hdocument

end Refused

/-- Lists of members with a separator, of which some are refused. -/
theorem Refused.list {α : Type} {write : α → List Char} {members : α → List (String × Tree)}
    {l : List α}
    (h : ∀ a ∈ l, Refused (write a) ∨ SpellsMembers (write a) (members a) ∧ members a ≠ [])
    (hr : ∃ a ∈ l, Refused (write a)) : Refused (Fragment.list [','] (l.map write)) := by
  induction l with
  | nil =>
    obtain ⟨a, ha, -⟩ := hr
    exact absurd ha List.not_mem_nil
  | cons a rest ih =>
    by_cases ha : Refused (write a)
    · cases rest with
      | nil => exact ha
      | cons b rest => exact (ha.append [',']).append _
    · obtain ⟨hspells, hne⟩ := (h a List.mem_cons_self).resolve_left ha
      obtain ⟨b, hb, hrb⟩ := hr
      have hb : b ∈ rest := (List.mem_cons.mp hb).resolve_left fun e => ha (e ▸ hrb)
      have ih := ih (fun c hc => h c (List.mem_cons_of_mem _ hc)) ⟨b, hb, hrb⟩
      rw [List.map_cons, Fragment.list_cons _ (by simpa using List.ne_nil_of_mem hb)]
      exact ih.after (hspells.advances hne (spellsMark ','))

end RemoteRecords.Json
