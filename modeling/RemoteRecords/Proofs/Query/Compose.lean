import RemoteRecords.Proofs.Json.Refusal
import RemoteRecords.Proofs.Query.Payload
import RemoteRecords.Query.Compose

/-!
# What an existence check takes in

A check takes joins and conditions in any order, and what is added as a condition
stays one, whatever its kind. So the filter of a check may hold clauses, and they are
written as they are: an ordering and a grouping as members of the where object, next
to the tests, and a join as an object without a name. An object in that place is no
member, so the filter of the check, and the payload of each query that the check is a
part of, is then no document at all.

* `Condition.refused_render`: the text of a condition with a join in it;
* `Selection.exists_spellsDocument_iff`: the payloads that are documents;
* `ExistenceCheck.Edit`: what can be done to a check;
* `ExistenceCheck.built_takes_every_kind`: the check, its text and its filter after any edits.
-/

namespace RemoteRecords

open Json

/-! ## Joins in condition position -/

theorem advances_where : Advances "\"where\": \x7b".toList := by
  have hopen : "\"where\": \x7b".toList = Fragment.quoted "where" ++ ": ".toList ++ ['\x7b'] := rfl
  rw [hopen]
  exact advances_opening (by decide) spellsMark_colonSpace (spellsMark '\x7b')

theorem advances_or : Advances "\"$or\": \x7b".toList := by
  have hopen : "\"$or\": \x7b".toList = Fragment.quoted "$or" ++ ": ".toList ++ ['\x7b'] := rfl
  rw [hopen]
  exact advances_opening (by decide) spellsMark_colonSpace (spellsMark '\x7b')

theorem advances_label {label : Option String} (hl : ∀ s ∈ label, IsPlain s) :
    Advances (labelFragment label) := by
  cases label with
  | none => exact advances_nil
  | some name =>
    have hopen : "\"alias\": ".toList = Fragment.quoted "alias" ++ ": ".toList := rfl
    have ha := SpellsMembers.member (show IsPlain "alias" by decide) spellsMark_colonSpace
      (Spells.quoted (hl name rfl))
    have h := ha.advances (List.cons_ne_nil _ _) spellsMark_commaSpace
    unfold labelFragment
    simpa only [hopen, List.append_assoc] using h

theorem advances_model (model : Option ModelId) : Advances (modelFragment model) := by
  cases model with
  | none => exact advances_nil
  | some id =>
    have hopen : "\"model\": ".toList = Fragment.quoted "model" ++ ": ".toList := rfl
    have ha := SpellsMembers.member (show IsPlain "model" by decide) spellsMark_colonSpace
      (Spells.number (s := id.text) (Numeral.isNumeral_decimalInt id.toInt))
    have h := ha.advances (List.cons_ne_nil _ _) spellsMark_commaSpace
    unfold modelFragment
    simpa only [hopen, List.append_assoc] using h

theorem advances_joins {joins : List Join} (hj : ∀ s ∈ joins.flatMap Join.texts, IsPlain s) :
    Advances (Join.renderAll joins ++ ", ".toList) :=
  (Join.spellsMembers hj).advances (List.cons_ne_nil _ _) spellsMark_commaSpace

theorem advances_checkHead (negated : Bool) (model : Option ModelId) {label : Option String}
    (hl : ∀ s ∈ label, IsPlain s) {joins : List Join}
    (hj : ∀ s ∈ joins.flatMap Join.texts, IsPlain s) :
    Advances (checkHead negated model label joins) := by
  have hopen : ": \x7b ".toList = ": ".toList ++ ['\x7b', ' '] := rfl
  have hkey : IsPlain (if negated then "$nexists" else "$exists") := by
    cases negated <;> decide
  have h := (((advances_opening hkey spellsMark_colonSpace (spellsMark_space '\x7b')).append
    (advances_joins hj)).append (advances_model model)).append (advances_label hl)
  unfold checkHead
  simpa only [hopen, List.append_assoc] using h

/-- Text that is refused, in an object of its own or not. -/
theorem refused_wrapWhen {body : List Char} (h : Refused body) {opening : String}
    (ho : Advances opening.toList) (wrapped : Bool) : Refused (wrapWhen wrapped opening body) := by
  rw [wrapWhen]
  split
  · exact (h.after ho).append _
  · exact h

theorem Join.refused_render (j : Join) : Refused j.render := by
  unfold render
  exact (((((refused_openBrace _).append _).append _).append _).append _).append _

namespace Condition

/-- Whether a join stands among the conditions in a condition. -/
def HoldsJoin (c : Condition) : Prop :=
  ∃ j, Clause.join j ∈ c.clauses

/-- The conditions of a list, of which one holds a join. -/
theorem refused_list {conditions : List Condition}
    (ht : ∀ c ∈ conditions, ∀ s ∈ c.texts, IsPlain s)
    (h : ∀ c ∈ conditions, c.HoldsJoin → ∀ parent, Refused (c.render parent))
    (hj : ∃ c ∈ conditions, c.HoldsJoin) (parent : Parent) :
    Refused (Fragment.list [','] (conditions.map (render parent))) := by
  -- A part without a join is spelled, so the next one is reached.
  have hall : ∀ c ∈ conditions, Refused (c.render parent) ∨
      SpellsMembers (c.render parent) (c.members parent) ∧ c.members parent ≠ [] := by
    intro c hc
    by_cases hjc : c.HoldsJoin
    · exact .inl (h c hc hjc parent)
    · have hjc : ∀ j, Clause.join j ∉ c.clauses := not_exists.mp hjc
      exact .inr ⟨spells (ht c hc) hjc parent, members_ne_nil hjc parent⟩
  obtain ⟨c, hc, hjc⟩ := hj
  exact Refused.list hall ⟨c, hc, h c hc hjc parent⟩

/-- The two parts of a composite, of which one holds a join. -/
theorem refused_pair {left right : Condition} (ht : ∀ s ∈ left.texts ++ right.texts, IsPlain s)
    (hl : left.HoldsJoin → ∀ parent, Refused (left.render parent))
    (hr : right.HoldsJoin → ∀ parent, Refused (right.render parent)) {j : Join}
    (hj : Clause.join j ∈ left.clauses ++ right.clauses) (parent : Parent) :
    Refused (left.render parent ++ ',' :: right.render parent) := by
  obtain ⟨htl, htr⟩ := List.forall_mem_append.mp ht
  have hin : ∃ c ∈ [left, right], c.HoldsJoin := by
    rcases List.mem_append.mp hj with hjl | hjr
    · exact ⟨left, List.mem_cons_self, j, hjl⟩
    · exact ⟨right, List.mem_cons_of_mem _ List.mem_cons_self, j, hjr⟩
  have ht : ∀ c ∈ [left, right], ∀ s ∈ c.texts, IsPlain s :=
    List.forall_mem_cons.mpr ⟨htl, List.forall_mem_singleton.mpr htr⟩
  have h : ∀ c ∈ [left, right], c.HoldsJoin → ∀ parent, Refused (c.render parent) :=
    List.forall_mem_cons.mpr ⟨hl, List.forall_mem_singleton.mpr hr⟩
  simpa [Fragment.list] using refused_list ht h hin parent

/-- A condition with a join in it is refused where members are expected. -/
theorem refused_render {c : Condition} (ht : ∀ s ∈ c.texts, IsPlain s) (hj : c.HoldsJoin)
    (parent : Parent) : Refused (c.render parent) := by
  induction c generalizing parent with
  | test field t =>
    obtain ⟨j, hj⟩ := hj
    exact absurd hj List.not_mem_nil
  | both left right ihl ihr =>
    obtain ⟨j, hj⟩ := hj
    obtain ⟨htl, htr⟩ := List.forall_mem_append.mp ht
    have h := refused_pair ht (ihl htl) (ihr htr) hj .conjunction
    rw [render_both]
    exact refused_wrapWhen h advances_where _
  | either left right ihl ihr =>
    obtain ⟨j, hj⟩ := hj
    obtain ⟨htl, htr⟩ := List.forall_mem_append.mp ht
    have h := refused_pair ht (ihl htl) (ihr htr) hj .disjunction
    rw [render_either]
    exact refused_wrapWhen h advances_or _
  | check negated model label joins conditions ih =>
    rw [texts, textsEach_eq_flatMap] at ht
    obtain ⟨htop, htc⟩ := List.forall_mem_append.mp ht
    obtain ⟨hjoins, hlabel⟩ := List.forall_mem_append.mp htop
    have htc : ∀ c ∈ conditions, ∀ s ∈ c.texts, IsPlain s := fun c hc s hs =>
      htc s (List.mem_flatMap.mpr ⟨c, hc, hs⟩)
    have hin : ∃ c ∈ conditions, c.HoldsJoin := by
      obtain ⟨j, hj⟩ := hj
      rw [clauses, clausesEach_eq_flatMap] at hj
      obtain ⟨c, hc, hjc⟩ := List.mem_flatMap.mp hj
      exact ⟨c, hc, j, hjc⟩
    have hbody := refused_list htc (fun c hc hjc => ih c hc (htc c hc) hjc) hin .conjunction
    rw [← whereBody_eq_map] at hbody
    have hhead := advances_checkHead negated model
      (fun s hs => hlabel s (Option.mem_toList.mpr hs)) hjoins
    rw [render_check]
    exact (hbody.after (hhead.append advances_where)).append _
  | clause c =>
    obtain ⟨j, hj⟩ := hj
    cases List.mem_singleton.mp hj
    rw [render_clause]
    exact j.refused_render

/-- The body for a list with a join in it. -/
theorem refused_whereBody {conditions : List Condition}
    (ht : ∀ c ∈ conditions, ∀ s ∈ c.texts, IsPlain s) (hj : ∃ c ∈ conditions, c.HoldsJoin) :
    Refused (whereBody conditions) := by
  rw [whereBody_eq_map]
  exact refused_list ht (fun c hc hjc => refused_render (ht c hc) hjc) hj .conjunction

end Condition

namespace Selection

/-- The payloads that are documents are those of queries without a join among their
conditions, to any depth. -/
theorem exists_spellsDocument_iff {q : Selection} (ht : ∀ s ∈ q.texts, IsPlain s) :
    (∃ t, SpellsDocument q.render t) ↔ ∀ j, Clause.join j ∉ q.clauses := by
  constructor
  · rintro ⟨t, h⟩ j hj
    simp only [texts, List.forall_mem_append] at ht
    obtain ⟨⟨⟨⟨⟨hlabel, hjoins⟩, hcolumns⟩, hconditions⟩, -⟩, -⟩ := ht
    have htc : ∀ c ∈ q.conditions, ∀ s ∈ c.texts, IsPlain s := fun c hc s hs =>
      hconditions s (List.mem_flatMap.mpr ⟨c, hc, hs⟩)
    obtain ⟨c, hc, hjc⟩ := List.mem_flatMap.mp hj
    have hbody := Condition.refused_whereBody htc ⟨c, hc, j, hjc⟩
    have hcolumns := (spellsMembers_columns hcolumns (List.cons_ne_nil _ _)
      (Join.spellsMembers hjoins)).advances (by simp) spellsMark_commaSpace
    have hfront := ((advances_label fun s hs => hlabel s (Option.mem_toList.mpr hs)).append
      hcolumns).append advances_where
    refine (hbody.after hfront).not_spellsDocument ('\x7d' ::
      Criteria.trailingPart Grouping.render q.grouping ++
      Criteria.trailingPart SortOrder.render q.ordering ++ ['\x7d']) t ?_
    have hwhere : ", \"where\": \x7b".toList = ", ".toList ++ "\"where\": \x7b".toList := rfl
    unfold render criteria Criteria.render at h
    simpa only [hwhere, List.append_assoc, List.cons_append, List.nil_append] using h
  · exact fun hj => ⟨q.tree, (spells ht hj).document⟩

end Selection

/-! ## Putting a check together -/

namespace ExistenceCheck

/-- What can be done to a check that is being put together. -/
inductive Edit
  | add (c : Condition)
  | join (j : Join)
  | setLabel (label : String)
  | setModel (model : ModelId)

namespace Edit

/-- The condition that is added, if one is. -/
def condition? : Edit → Option Condition
  | add c => some c
  | _ => none

/-- The join that is added, if one is. -/
def join? : Edit → Option Join
  | join j => some j
  | _ => none

theorem condition?_eq_some {e : Edit} {c : Condition} : e.condition? = some c ↔ e = add c := by
  cases e <;> simp [condition?]

end Edit

/-- The check after an edit. -/
def edit (check : ExistenceCheck) : Edit → ExistenceCheck
  | .add c => check.add c
  | .join j => check.join j
  | .setLabel label => check.setLabel label
  | .setModel model => check.setModel model

/-- A new check after edits. -/
def built (negated : Bool) (model : Option ModelId) (label : Option String) (edits : List Edit) :
    ExistenceCheck :=
  edits.foldl edit (empty negated model label)

/-- The where object of a check. -/
def filterText (check : ExistenceCheck) : List Char :=
  '\x7b' :: Condition.whereBody check.conditions ++ ['\x7d']

theorem render_toCondition (check : ExistenceCheck) (parent : Parent) :
    check.toCondition.render parent =
      checkHead check.negated check.model check.label check.joins ++ "\"where\": ".toList ++
        check.filterText ++ ['\x7d'] := by
  have hopen : "\"where\": \x7b".toList = "\"where\": ".toList ++ ['\x7b'] := rfl
  rw [toCondition, Condition.render_check, hopen, filterText]
  simp only [List.append_assoc, List.cons_append, List.nil_append]

section Run

variable (check : ExistenceCheck)

theorem negated_edit (e : Edit) : (check.edit e).negated = check.negated := by
  cases e <;> rfl

theorem joins_edit (e : Edit) : (check.edit e).joins = check.joins ++ e.join?.toList := by
  cases e <;> simp [edit, add, join, setLabel, setModel, Edit.join?]

/-- An edit adds a condition at the end, or none. -/
theorem conditions_edit (e : Edit) :
    (check.edit e).conditions = check.conditions ++ e.condition?.toList := by
  cases e <;> simp [edit, add, join, setLabel, setModel, Edit.condition?]

theorem negated_foldl (edits : List Edit) : (edits.foldl edit check).negated = check.negated := by
  induction edits generalizing check with
  | nil => rfl
  | cons e rest ih => rw [List.foldl_cons, ih, negated_edit]

/-- What each edit adds to a list is, after a run of edits, all that was added to it. -/
theorem foldl_edit_eq_append {α : Type} {get : ExistenceCheck → List α} {part : Edit → Option α}
    (h : ∀ check e, get (edit check e) = get check ++ (part e).toList) (edits : List Edit) :
    get (edits.foldl edit check) = get check ++ edits.filterMap part := by
  induction edits generalizing check with
  | nil => simp
  | cons e rest ih =>
    rw [List.foldl_cons, ih, h, List.append_assoc, List.filterMap_cons]
    cases part e <;> rfl

theorem joins_foldl (edits : List Edit) :
    (edits.foldl edit check).joins = check.joins ++ edits.filterMap Edit.join? :=
  check.foldl_edit_eq_append joins_edit edits

theorem conditions_foldl (edits : List Edit) :
    (edits.foldl edit check).conditions = check.conditions ++ edits.filterMap Edit.condition? :=
  check.foldl_edit_eq_append conditions_edit edits

end Run

theorem mem_conditions_built {negated : Bool} {model : Option ModelId} {label : Option String}
    {edits : List Edit} {c : Condition} :
    c ∈ (built negated model label edits).conditions ↔ .add c ∈ edits := by
  rw [built, conditions_foldl, empty, List.nil_append, List.mem_filterMap]
  simp [Edit.condition?_eq_some]

/-- The where object of a check is a document unless it holds a join, and then it is
that of the members of its conditions. -/
theorem spellsDocument_filterText {check : ExistenceCheck}
    (ht : ∀ c ∈ check.conditions, ∀ s ∈ c.texts, IsPlain s) :
    ((∃ t, SpellsDocument check.filterText t) ↔ ∀ c ∈ check.conditions, ¬c.HoldsJoin) ∧
      ∀ t, SpellsDocument check.filterText t →
        t = .object (check.conditions.flatMap (Condition.members .conjunction)) := by
  have hjoin : (∃ t, SpellsDocument check.filterText t) →
      ∀ c ∈ check.conditions, ¬c.HoldsJoin := by
    rintro ⟨t, h⟩ c hc hj
    exact (Condition.refused_whereBody ht ⟨c, hc, hj⟩).not_spellsDocument _ t h
  have hspells : (∀ c ∈ check.conditions, ¬c.HoldsJoin) → SpellsDocument check.filterText
      (.object (check.conditions.flatMap (Condition.members .conjunction))) := by
    intro hj
    have hbody := Condition.spellsMembers_whereBody fun c hc parent =>
      have hjc : ∀ j, Clause.join j ∉ c.clauses := not_exists.mp (hj c hc)
      ⟨Condition.spells (ht c hc) hjc parent, Condition.members_ne_nil hjc parent⟩
    rw [Condition.membersEach_eq_flatMap] at hbody
    exact (Spells.braced hbody).document
  refine ⟨⟨hjoin, fun hj => ⟨_, hspells hj⟩⟩, fun t h => ?_⟩
  exact h.unique (hspells (hjoin ⟨t, h⟩))

/-- A new check after any edits. Its joins and conditions are those that were added, in
their order, and a clause that was added as a condition is one. So it is written among
the other conditions in the where object, which ends the text of the check. The object is
no document if there is a join among them, at any depth; otherwise it has the member of
each ordering and grouping that was added. -/
theorem built_takes_every_kind (negated : Bool) (model : Option ModelId) (label : Option String)
    (edits : List Edit) :
    (built negated model label edits).negated = negated ∧
      (built negated model label edits).joins = edits.filterMap Edit.join? ∧
      (built negated model label edits).conditions = edits.filterMap Edit.condition? ∧
      (∀ k, .clause k ∈ (built negated model label edits).conditions ↔ .add (.clause k) ∈ edits) ∧
      (∀ parent, ∃ head, (built negated model label edits).toCondition.render parent =
        head ++ "\"where\": ".toList ++ (built negated model label edits).filterText ++ ['\x7d']) ∧
      (built negated model label edits).filterText = '\x7b' :: Fragment.list [',']
        ((edits.filterMap Edit.condition?).map (Condition.render .conjunction)) ++ ['\x7d'] ∧
      ((∀ c, .add c ∈ edits → ∀ s ∈ c.texts, IsPlain s) →
        ((∃ t, SpellsDocument (built negated model label edits).filterText t) ↔
          ∀ c, .add c ∈ edits → ¬c.HoldsJoin) ∧
        ∀ t, SpellsDocument (built negated model label edits).filterText t →
          ∃ members, t = .object members ∧
            ∀ k, .add (.clause k) ∈ edits → ∀ m ∈ k.members, m ∈ members) := by
  have hconditions : (built negated model label edits).conditions =
      edits.filterMap Edit.condition? := conditions_foldl _ edits
  refine ⟨negated_foldl _ edits, joins_foldl _ edits, hconditions, fun k => mem_conditions_built,
    fun parent => ⟨_, render_toCondition _ parent⟩, ?_, fun ht => ?_⟩
  · rw [filterText, Condition.whereBody_eq_map, hconditions]
  · have ht : ∀ c ∈ (built negated model label edits).conditions, ∀ s ∈ c.texts, IsPlain s :=
      fun c hc => ht c (mem_conditions_built.mp hc)
    obtain ⟨hiff, hmembers⟩ := spellsDocument_filterText ht
    refine ⟨hiff.trans (forall_congr' fun c => imp_congr_left mem_conditions_built), fun t h => ?_⟩
    refine ⟨_, hmembers t h, fun k hk m hm => ?_⟩
    refine List.mem_flatMap.mpr ⟨.clause k, mem_conditions_built.mpr hk, ?_⟩
    rwa [Condition.members]

/-- A test, and an ordering that is added like it. -/
def sampleEdits : List Edit := [
  .add (.test "e.active" (.compare .equal (.integer 1))),
  .add (.clause (.order ⟨"e.name", true⟩))]

theorem built_takes_every_kind_sample :
    (∀ c, .add c ∈ sampleEdits → ∀ s ∈ c.texts, IsPlain s) ∧
      ∃ members, SpellsDocument (built false (some 12) (some "e") sampleEdits).filterText
        (.object members) ∧ ("order", .text "e.name ASC") ∈ members := by
  have ht : ∀ c, .add c ∈ sampleEdits → ∀ s ∈ c.texts, IsPlain s := by
    simp only [sampleEdits, List.mem_cons, List.not_mem_nil, or_false]
    rintro c (h | h) <;> cases h <;> decide
  have hj : ∀ c, .add c ∈ sampleEdits → ¬c.HoldsJoin := by
    simp only [sampleEdits, List.mem_cons, List.not_mem_nil, or_false]
    rintro c (h | h) <;> cases h <;> rintro ⟨j, hj⟩
    · exact List.not_mem_nil hj
    · cases List.mem_singleton.mp hj
  obtain ⟨-, -, -, -, -, -, hfilter⟩ := built_takes_every_kind false (some 12) (some "e") sampleEdits
  obtain ⟨hiff, hmembers⟩ := hfilter ht
  obtain ⟨t, h⟩ := hiff.mpr hj
  obtain ⟨members, rfl, hk⟩ := hmembers t h
  refine ⟨ht, members, h, ?_⟩
  exact hk (.order ⟨"e.name", true⟩) (.tail _ (.head _)) _ List.mem_cons_self

/-- An ordering is taken into the filter. -/
theorem order_mem_built_sample :
    .clause (.order ⟨"e.name", true⟩) ∈ (built false (some 12) (some "e") sampleEdits).conditions ∧
      (built false (some 12) (some "e") sampleEdits).filterText =
        "\x7b\"e.active\" : 1,\"order\": \"e.name ASC\"\x7d".toList :=
  ⟨.tail _ (.head _), rfl⟩

end ExistenceCheck

end RemoteRecords
