import RemoteRecords.Proofs.Json.Reading
import RemoteRecords.Proofs.Query.Document
import RemoteRecords.Proofs.Text.Cut
import RemoteRecords.Proofs.Text.Decimal

/-!
# The payload of a query is its document

The payload is written fragment by fragment without any escaping. As long as no
string of the query has a character to escape and no join stands among the
conditions, each fragment spells the part of the document that it is meant for,
so the payload is a text of the grammar and is read as the document of the query.

* `Operand.spells`, `Test.spells`, `Join.spells`: values, tests and joins;
* `Condition.spells`: conditions under each parent, by induction;
* `Selection.spellsDocument_render_iff`: the payload spells the document of the
  query and no other.
-/

namespace RemoteRecords

open Json

/-! ## Values and gaps -/

theorem spellsMark_colonSpace : SpellsMark ": ".toList ':' :=
  spellsMark_space ':'

theorem spellsMark_spaceColonSpace : SpellsMark " : ".toList ':' :=
  space_spellsMark_space ':'

theorem spellsMark_commaSpace : SpellsMark ", ".toList ',' :=
  spellsMark_space ','

theorem Operand.spells {value : Operand} (h : ∀ s ∈ value.texts, IsPlain s) :
    Spells value.render value.tree := by
  cases value with
  | integer n => exact .number (Numeral.isNumeral_decimalInt _)
  | number x =>
    cases x with
    | finite x => exact .number (Numeral.isNumeral_write layout x)
    | _ => exact .word .null
  | flag b =>
    cases b with
    | true => exact .word .true
    | false => exact .word .false
  | text s => exact Spells.quoted (h s List.mem_cons_self)

/-! ## Tests -/

/-- A member whose value is an object with one operator. -/
theorem spellsMembers_operator {field operator : String} (hf : IsPlain field)
    (ho : IsPlain operator) {outer inner value : List Char} (hm : SpellsMark outer ':')
    (hi : SpellsMark inner ':') {t : Tree} (hv : Spells value t) :
    SpellsMembers (Fragment.quoted field ++ outer ++ operatorObject operator inner value)
      [(field, .object [(operator, t)])] := by
  have h := SpellsMembers.member hf hm
    (Spells.braced_space (SpellsMembers.member ho hi hv))
  have hopen : "\x7b ".toList = ['\x7b', ' '] := rfl
  have hclose : " \x7d".toList = [' ', '\x7d'] := rfl
  simpa only [operatorObject, hopen, hclose, List.append_assoc, List.cons_append,
    List.nil_append] using h

theorem spellsMembers_operatorTight {field operator : String} (hf : IsPlain field)
    (ho : IsPlain operator) {value : List Char} {t : Tree} (hv : Spells value t) :
    SpellsMembers (Fragment.quoted field ++ ": \x7b".toList ++ Fragment.quoted operator ++
      ": ".toList ++ value ++ ['\x7d']) [(field, .object [(operator, t)])] := by
  have h := SpellsMembers.member hf spellsMark_colonSpace
    (Spells.braced (SpellsMembers.member ho spellsMark_colonSpace hv))
  have hopen : ": \x7b".toList = ": ".toList ++ ['\x7b'] := rfl
  simpa only [hopen, List.append_assoc, List.cons_append, List.nil_append] using h

theorem Comparison.spells (op : Comparison) {field : String} (hf : IsPlain field) {value : Operand}
    (hv : ∀ s ∈ value.texts, IsPlain s) :
    SpellsMembers (op.render field value) [op.member field value.tree] := by
  have hv := Operand.spells hv
  cases op with
  | equal => exact SpellsMembers.member hf spellsMark_spaceColonSpace hv
  | notEqual =>
    have h := SpellsMembers.member (show IsPlain "$ne" by decide) spellsMark_spaceColonSpace
      (Spells.braced (SpellsMembers.member hf spellsMark_spaceColonSpace hv))
    have hopen : "\"$ne\" : \x7b".toList = Fragment.quoted "$ne" ++ " : ".toList ++ ['\x7b'] := rfl
    unfold render member
    simpa only [hopen, List.append_assoc, List.cons_append, List.nil_append] using h
  | atLeast =>
    exact spellsMembers_operator hf (by decide) spellsMark_spaceColonSpace spellsMark_colonSpace hv
  | atMost =>
    exact spellsMembers_operator hf (by decide) spellsMark_spaceColonSpace spellsMark_colonSpace hv
  | above =>
    exact spellsMembers_operator hf (by decide) spellsMark_colonSpace spellsMark_colonSpace hv
  | below =>
    exact spellsMembers_operator hf (by decide) spellsMark_colonSpace spellsMark_colonSpace hv

theorem Test.spells {field : String} (hf : IsPlain field) {t : Test}
    (h : ∀ s ∈ t.texts, IsPlain s) : SpellsMembers (t.render field) [t.member field] := by
  cases t with
  | compare op value => exact op.spells hf h
  | between low high =>
    have hl := Operand.spells fun s hs => h s (List.mem_append_left _ hs)
    have hh := Operand.spells fun s hs => h s (List.mem_append_right _ hs)
    have hi := SpellsItems.cons hl (spellsMark ',') (SpellsItems.singleton hh)
    have hm := SpellsMembers.member (show IsPlain "$between" by decide) spellsMark_colonSpace
      (Spells.bracketed hi)
    have := SpellsMembers.member hf spellsMark_colonSpace
      (Spells.object (spellsMark_space '\x7b') hm (spellsMark '\x7d'))
    have hopen : ": \x7b \"$between\": [".toList =
      ": ".toList ++ ['\x7b', ' '] ++ Fragment.quoted "$between" ++ ": ".toList ++ ['['] := rfl
    have hclose : "]\x7d".toList = [']', '\x7d'] := rfl
    simpa only [render, member, hopen, hclose, List.append_assoc, List.cons_append,
      List.nil_append] using this
  | among negated values =>
    have hi : SpellsItems (Fragment.list [','] (values.map Operand.render))
        (values.map Operand.tree) := SpellsItems.list (spellsMark ',') fun v hv =>
      Operand.spells fun s hs => h s (List.mem_flatMap.mpr ⟨v, hv, hs⟩)
    have ho : IsPlain (if negated then "$nin" else "$in") := by cases negated <;> decide
    have := spellsMembers_operatorTight hf ho (Spells.bracketed hi)
    have hopen : ": [".toList = ": ".toList ++ ['['] := rfl
    have hclose : "]\x7d".toList = [']', '\x7d'] := rfl
    simpa only [render, member, hopen, hclose, List.append_assoc, List.cons_append,
      List.nil_append] using this
  | like negated pattern =>
    have ho : IsPlain (if negated then "$nlike" else "$like") := by cases negated <;> decide
    exact spellsMembers_operator hf ho spellsMark_colonSpace spellsMark_spaceColonSpace
      (Spells.quoted (h pattern List.mem_cons_self))
  | absent negated =>
    have ho : IsPlain (if negated then "$notNull" else "$null") := by cases negated <;> decide
    have := spellsMembers_operatorTight hf ho (Spells.quoted (show IsPlain "1" by decide))
    have hvalue : ": \"1\"\x7d".toList = ": ".toList ++ Fragment.quoted "1" ++ ['\x7d'] := rfl
    simpa only [render, member, hvalue, List.append_assoc, List.cons_append,
      List.nil_append] using this

/-! ## Clauses -/

theorem isPlain_append {s t : String} (hs : IsPlain s) (ht : IsPlain t) : IsPlain (s ++ t) := by
  intro c hc
  rw [String.toList_append, List.mem_append] at hc
  exact hc.elim (hs c) (ht c)

theorem isPlain_target (id : ModelId) : IsPlain (String.ofList id.text) := by
  intro c hc
  rw [String.toList_ofList] at hc
  rcases Text.isDigit_or_of_mem_decimalInt hc with hd | rfl
  · have hlow : 48 ≤ c.toNat := (Char.isDigit_iff_toNat.mp hd).1
    have hne : c ≠ '"' ∧ c ≠ '\\' := by
      constructor <;> rintro rfl <;> revert hd <;> decide
    simp only [isPlain, Bool.and_eq_true, bne_iff_ne, decide_eq_true_eq]
    exact ⟨hne, by omega⟩
  · rfl

theorem SpellsItems.texts {l : List String} (h : ∀ s ∈ l, IsPlain s) :
    SpellsItems (Fragment.list [','] (l.map Fragment.quoted)) (l.map Tree.text) :=
  SpellsItems.list (spellsMark ',') fun s hs => Spells.quoted (h s hs)

theorem Join.spells {j : Join} (h : ∀ s ∈ j.texts, IsPlain s) : Spells j.render j.tree := by
  have hk : IsPlain j.kind.name := by cases j.kind <;> decide
  have htype := SpellsMembers.member (show IsPlain "type" by decide) spellsMark_colonSpace
    (Spells.quoted hk)
  have halias := SpellsMembers.member (show IsPlain "alias" by decide) spellsMark_colonSpace
    (Spells.quoted (h j.label (by simp [texts])))
  have htarget := SpellsMembers.member (show IsPlain "target" by decide) spellsMark_colonSpace
    (Spells.quoted (isPlain_target j.target))
  have hon := SpellsMembers.member (show IsPlain "on" by decide) spellsMark_colonSpace
    (Spells.quoted (h j.criterion (by simp [texts])))
  have hrest := SpellsMembers.append (by simp) (by simp) htarget spellsMark_commaSpace hon
  have hrest := SpellsMembers.append (by simp) (by simp) halias spellsMark_commaSpace hrest
  have hall := SpellsMembers.append (by simp) (by simp) htype spellsMark_commaSpace hrest
  have hopen : "\x7b \"type\": ".toList =
    ['\x7b', ' '] ++ Fragment.quoted "type" ++ ": ".toList := rfl
  have hlabel : ", \"alias\": ".toList = ", ".toList ++ Fragment.quoted "alias" ++ ": ".toList := rfl
  have htargetKey : ", \"target\": ".toList =
    ", ".toList ++ Fragment.quoted "target" ++ ": ".toList := rfl
  have honKey : ", \"on\": ".toList = ", ".toList ++ Fragment.quoted "on" ++ ": ".toList := rfl
  have hclose : " \x7d".toList = [' ', '\x7d'] := rfl
  have htext : Fragment.quoted (String.ofList j.target.text) = '"' :: j.target.text ++ ['"'] := by
    rw [Fragment.quoted, String.toList_ofList]
  have := Spells.braced_space hall
  rw [htext] at this
  unfold render tree
  simpa only [hopen, hlabel, htargetKey, honKey, hclose, List.append_assoc,
    List.cons_append, List.nil_append] using this

theorem Join.spellsMembers {joins : List Join} (h : ∀ s ∈ joins.flatMap Join.texts, IsPlain s) :
    SpellsMembers (renderAll joins) [member joins] := by
  have hi : SpellsItems (Fragment.list [',', ' '] (joins.map render)) (joins.map tree) :=
    SpellsItems.list spellsMark_commaSpace fun j hj =>
      Join.spells fun s hs => h s (List.mem_flatMap.mpr ⟨j, hj, hs⟩)
  have := SpellsMembers.member (show IsPlain "joins" by decide) spellsMark_colonSpace
    (Spells.bracketed hi)
  have hopen : "\"joins\": [".toList = Fragment.quoted "joins" ++ ": ".toList ++ ['['] := rfl
  unfold renderAll member
  simpa only [hopen, List.append_assoc, List.cons_append, List.nil_append] using this

theorem SortOrder.spells {o : SortOrder} (h : IsPlain o.field) :
    SpellsMembers o.render [o.member] := by
  have hd : IsPlain (if o.ascending then " ASC" else " DESC") := by
    cases o.ascending <;> decide
  exact SpellsMembers.member (show IsPlain "order" by decide) spellsMark_colonSpace
    (Spells.quoted (isPlain_append h hd))

theorem Grouping.spells {g : Grouping} (h : ∀ s ∈ g.fields, IsPlain s) :
    SpellsMembers g.render [g.member] := by
  have := SpellsMembers.member (show IsPlain "groupBy" by decide) spellsMark_colonSpace
    (Spells.bracketed (SpellsItems.texts h))
  have hopen : "\"groupBy\": [".toList = Fragment.quoted "groupBy" ++ ": ".toList ++ ['['] := rfl
  unfold render member
  simpa only [hopen, List.append_assoc, List.cons_append, List.nil_append] using this

/-! ## Parts that may be missing -/

theorem spellsMembers_label {label : Option String} (hl : ∀ s ∈ label, IsPlain s) {s : List Char}
    {members : List (String × Tree)} (hm : members ≠ []) (h : SpellsMembers s members) :
    SpellsMembers (labelFragment label ++ s) (labelMembers label ++ members) := by
  cases label with
  | none => exact h
  | some name =>
    have ha := SpellsMembers.member (show IsPlain "alias" by decide) spellsMark_colonSpace
      (Spells.quoted (hl name rfl))
    have := SpellsMembers.append (List.cons_ne_nil _ _) hm ha spellsMark_commaSpace h
    have hopen : "\"alias\": ".toList = Fragment.quoted "alias" ++ ": ".toList := rfl
    unfold labelFragment labelMembers
    simpa only [hopen, Option.map_some, Option.toList_some, List.append_assoc, List.cons_append,
      List.nil_append] using this

theorem spellsMembers_model (model : Option ModelId) {s : List Char}
    {members : List (String × Tree)} (hm : members ≠ []) (h : SpellsMembers s members) :
    SpellsMembers (modelFragment model ++ s) (modelMembers model ++ members) := by
  cases model with
  | none => exact h
  | some id =>
    have ha := SpellsMembers.member (show IsPlain "model" by decide) spellsMark_colonSpace
      (Spells.number (s := id.text) (Numeral.isNumeral_decimalInt id.toInt))
    have := SpellsMembers.append (List.cons_ne_nil _ _) hm ha spellsMark_commaSpace h
    have hopen : "\"model\": ".toList = Fragment.quoted "model" ++ ": ".toList := rfl
    unfold modelFragment modelMembers
    simpa only [hopen, Option.map_some, Option.toList_some, List.append_assoc, List.cons_append,
      List.nil_append] using this

theorem spellsMembers_trailing {α : Type} {render : α → List Char} {member : α → String × Tree}
    {o : Option α} (ho : ∀ a ∈ o, SpellsMembers (render a) [member a]) {s : List Char}
    {members : List (String × Tree)} (hm : members ≠ []) (h : SpellsMembers s members) :
    SpellsMembers (s ++ Criteria.trailingPart render o) (members ++ (o.map member).toList) := by
  cases o with
  | none => simpa [Criteria.trailingPart] using h
  | some a =>
    have := SpellsMembers.append hm (List.cons_ne_nil _ _) h (spellsMark ',') (ho a rfl)
    simpa [Criteria.trailingPart] using this

theorem spellsMembers_where {s : List Char} {members : List (String × Tree)}
    (h : SpellsMembers s members) :
    SpellsMembers ("\"where\": \x7b".toList ++ s ++ ['\x7d']) [("where", .object members)] := by
  have hopen : "\"where\": \x7b".toList =
    Fragment.quoted "where" ++ ": ".toList ++ ['\x7b'] := rfl
  have := SpellsMembers.member (show IsPlain "where" by decide) spellsMark_colonSpace
    (Spells.braced h)
  simpa only [hopen, List.append_assoc, List.cons_append, List.nil_append] using this

theorem spellsMembers_or {s : List Char} {members : List (String × Tree)}
    (h : SpellsMembers s members) :
    SpellsMembers ("\"$or\": \x7b".toList ++ s ++ ['\x7d']) [("$or", .object members)] := by
  have hopen : "\"$or\": \x7b".toList = Fragment.quoted "$or" ++ ": ".toList ++ ['\x7b'] := rfl
  have := SpellsMembers.member (show IsPlain "$or" by decide) spellsMark_colonSpace
    (Spells.braced h)
  simpa only [hopen, List.append_assoc, List.cons_append, List.nil_append] using this

/-! ## Conditions -/

theorem Clause.spells {c : Clause} (ht : ∀ s ∈ c.texts, IsPlain s) (hj : ∀ j, c ≠ .join j) :
    SpellsMembers c.render c.members := by
  cases c with
  | join j => exact absurd rfl (hj j)
  | order o => exact SortOrder.spells (ht o.field List.mem_cons_self)
  | group g => exact Grouping.spells ht

namespace Condition

theorem render_clause (parent : Parent) (c : Clause) : render parent (clause c) = c.render := by
  rw [render]

/-- The body for a list, if each of its conditions is spelled under each parent. -/
theorem spellsMembers_whereBody {conditions : List Condition}
    (h : ∀ c ∈ conditions, ∀ parent,
      SpellsMembers (c.render parent) (c.members parent) ∧ c.members parent ≠ []) :
    SpellsMembers (whereBody conditions) (membersEach .conjunction conditions) := by
  rw [membersEach_eq_flatMap, whereBody_eq_map]
  exact SpellsMembers.list fun c hc => h c hc .conjunction

/-- An existence check whose filter is spelled. -/
theorem spellsMembers_check {negated : Bool} (model : Option ModelId) {label : Option String}
    (hl : ∀ s ∈ label, IsPlain s) {joins : List Join}
    (hj : ∀ s ∈ joins.flatMap Join.texts, IsPlain s) {body : List Char}
    {members : List (String × Tree)} (hbody : SpellsMembers body members) :
    SpellsMembers
      (checkHead negated model label joins ++ "\"where\": \x7b".toList ++ body ++
        ['\x7d', '\x7d'])
      [(if negated then "$nexists" else "$exists",
        .object (Join.member joins :: modelMembers model ++ labelMembers label ++
          [("where", .object members)]))] := by
  have hjoins := Join.spellsMembers hj
  have hlabel := spellsMembers_label hl (List.cons_ne_nil _ _) (spellsMembers_where hbody)
  have hmodel := spellsMembers_model model (List.append_ne_nil_of_right_ne_nil _
    (List.cons_ne_nil _ _)) hlabel
  have hall := SpellsMembers.append (List.cons_ne_nil _ _) (List.append_ne_nil_of_right_ne_nil _
    (List.append_ne_nil_of_right_ne_nil _ (List.cons_ne_nil _ _))) hjoins spellsMark_commaSpace
    hmodel
  have hkey : IsPlain (if negated then "$nexists" else "$exists") := by
    cases negated <;> decide
  have h := SpellsMembers.member hkey spellsMark_colonSpace
    (Spells.object (spellsMark_space '\x7b') hall (spellsMark '\x7d'))
  have hopen : ": \x7b ".toList = ": ".toList ++ ['\x7b', ' '] := rfl
  unfold checkHead
  simpa only [hopen, List.append_assoc, List.cons_append, List.nil_append] using h

/-- A condition spells its members under each parent. -/
theorem spells {c : Condition} (ht : ∀ s ∈ c.texts, IsPlain s) (hj : ∀ j, Clause.join j ∉ c.clauses)
    (parent : Parent) : SpellsMembers (c.render parent) (c.members parent) := by
  induction c generalizing parent with
  | test field t =>
    rw [render_test, members]
    exact Test.spells (ht field List.mem_cons_self) fun s hs => ht s (List.mem_cons_of_mem _ hs)
  | both left right ihl ihr =>
    have hjl : ∀ j, Clause.join j ∉ left.clauses := fun j hm => hj j (List.mem_append_left _ hm)
    have hjr : ∀ j, Clause.join j ∉ right.clauses := fun j hm => hj j (List.mem_append_right _ hm)
    have hl := ihl (fun s hs => ht s (List.mem_append_left _ hs)) hjl .conjunction
    have hr := ihr (fun s hs => ht s (List.mem_append_right _ hs)) hjr .conjunction
    have h := SpellsMembers.append (members_ne_nil hjl _) (members_ne_nil hjr _) hl
      (spellsMark ',') hr
    rw [List.append_assoc, List.singleton_append] at h
    rw [render_both, members, wrapWhen, groupWhen]
    split
    · exact spellsMembers_where h
    · exact h
  | either left right ihl ihr =>
    have hjl : ∀ j, Clause.join j ∉ left.clauses := fun j hm => hj j (List.mem_append_left _ hm)
    have hjr : ∀ j, Clause.join j ∉ right.clauses := fun j hm => hj j (List.mem_append_right _ hm)
    have hl := ihl (fun s hs => ht s (List.mem_append_left _ hs)) hjl .disjunction
    have hr := ihr (fun s hs => ht s (List.mem_append_right _ hs)) hjr .disjunction
    have h := SpellsMembers.append (members_ne_nil hjl _) (members_ne_nil hjr _) hl
      (spellsMark ',') hr
    rw [List.append_assoc, List.singleton_append] at h
    rw [render_either, members, wrapWhen, groupWhen]
    split
    · exact spellsMembers_or h
    · exact h
  | check negated model label joins conditions ih =>
    rw [texts, textsEach_eq_flatMap] at ht
    rw [clauses, clausesEach_eq_flatMap] at hj
    have hbody : SpellsMembers (whereBody conditions) (membersEach .conjunction conditions) := by
      refine spellsMembers_whereBody fun c hc parent => ?_
      have hjc : ∀ j, Clause.join j ∉ c.clauses := fun j hm =>
        hj j (List.mem_flatMap.mpr ⟨c, hc, hm⟩)
      have htc : ∀ s ∈ c.texts, IsPlain s := fun s hs =>
        ht s (List.mem_append_right _ (List.mem_flatMap.mpr ⟨c, hc, hs⟩))
      exact ⟨ih c hc htc hjc parent, members_ne_nil hjc parent⟩
    have hplainJoins : ∀ s ∈ joins.flatMap Join.texts, IsPlain s := fun s hs =>
      ht s (List.mem_append_left _ (List.mem_append_left _ hs))
    have hplainLabel : ∀ s ∈ label, IsPlain s := fun s hs =>
      ht s (List.mem_append_left _ (List.mem_append_right _ (Option.mem_toList.mpr hs)))
    rw [render_check, members]
    exact spellsMembers_check model hplainLabel hplainJoins hbody
  | clause c =>
    rw [render_clause, members]
    refine Clause.spells ht ?_
    rintro j rfl
    exact hj j List.mem_cons_self

end Condition

/-! ## Queries -/

/-- Columns are written as they are, since no blanks stand at their ends. -/
theorem projectionPart_columnsFragment (c : String) (columns : List String) :
    Criteria.projectionPart (columnsFragment (some (c :: columns))) =
      ", ".toList ++ columnsFragment (some (c :: columns)) := by
  have hopen : "\"columns\": [".toList = '"' :: "columns\": [".toList := rfl
  have h : columnsFragment (some (c :: columns)) = '"' :: ("columns\": [".toList ++
      Fragment.list [','] ((c :: columns).map Fragment.quoted)) ++ [']'] := by
    unfold columnsFragment
    simp only [hopen, List.cons_append]
  rw [Criteria.projectionPart, h, Text.trim_eq_self (by decide) (by decide)]
  rfl

theorem spellsMembers_columns {columns : Option (List String)}
    (hc : ∀ s ∈ columns.getD [], IsPlain s) {s : List Char} {members : List (String × Tree)}
    (hm : members ≠ []) (h : SpellsMembers s members) :
    SpellsMembers (s ++ Criteria.projectionPart (columnsFragment columns))
      (members ++ columnMembers (columns.getD [])) := by
  match columns, hc with
  | none, _ | some [], _ =>
    have hblank : Text.trim [] = [] := rfl
    simpa [columnsFragment, columnMembers, Criteria.projectionPart_blank hblank] using h
  | some (c :: columns), hc =>
    have ha := SpellsMembers.member (show IsPlain "columns" by decide) spellsMark_colonSpace
      (Spells.bracketed (SpellsItems.texts hc))
    have := SpellsMembers.append hm (List.cons_ne_nil _ _) h spellsMark_commaSpace ha
    have hopen : "\"columns\": [".toList = Fragment.quoted "columns" ++ ": ".toList ++ ['['] := rfl
    rw [projectionPart_columnsFragment]
    unfold columnsFragment columnMembers
    simpa only [hopen, Option.getD_some, List.append_assoc, List.cons_append,
      List.nil_append] using this

namespace Selection

theorem spells {q : Selection} (ht : ∀ s ∈ q.texts, IsPlain s)
    (hj : ∀ j, Clause.join j ∉ q.clauses) : Spells q.render q.tree := by
  simp only [texts, List.forall_mem_append] at ht
  obtain ⟨⟨⟨⟨⟨hlabel, hjoins⟩, hcolumns⟩, hconditions⟩, hgrouping⟩, hordering⟩ := ht
  have hbody : SpellsMembers (Condition.whereBody q.conditions)
      (Condition.membersEach .conjunction q.conditions) := by
    refine Condition.spellsMembers_whereBody fun c hc parent => ?_
    have hjc : ∀ j, Clause.join j ∉ c.clauses := fun j hm =>
      hj j (List.mem_flatMap.mpr ⟨c, hc, hm⟩)
    have htc : ∀ s ∈ c.texts, IsPlain s := fun s hs =>
      hconditions s (List.mem_flatMap.mpr ⟨c, hc, hs⟩)
    exact ⟨Condition.spells htc hjc parent, Condition.members_ne_nil hjc parent⟩
  have hg : ∀ g ∈ q.grouping, SpellsMembers g.render [g.member] := by
    intro g hg
    rw [hg] at hgrouping
    exact Grouping.spells hgrouping
  have ho : ∀ o ∈ q.ordering, SpellsMembers o.render [o.member] := by
    intro o ho
    rw [ho] at hordering
    exact SortOrder.spells (hordering o.field List.mem_cons_self)
  have h := spellsMembers_columns hcolumns (List.cons_ne_nil _ _) (Join.spellsMembers hjoins)
  have h := SpellsMembers.append (by simp) (by simp) h spellsMark_commaSpace
    (spellsMembers_where hbody)
  have h := spellsMembers_trailing hg (by simp) h
  have h := spellsMembers_trailing ho (by simp) h
  have h := spellsMembers_label (fun s hs => hlabel s (Option.mem_toList.mpr hs)) (by simp) h
  have hwhere : ", \"where\": \x7b".toList = ", ".toList ++ "\"where\": \x7b".toList := rfl
  have h := Spells.braced h
  unfold render criteria Criteria.render tree columnList
  simpa only [hwhere, List.append_assoc, List.cons_append, List.nil_append] using h

/-- The payload of a query is a text of the grammar, and what it spells is the
document of the query and nothing else. -/
theorem spellsDocument_render_iff {q : Selection} (ht : ∀ s ∈ q.texts, IsPlain s)
    (hj : ∀ j, Clause.join j ∉ q.clauses) (t : Tree) :
    SpellsDocument q.render t ↔ t = q.tree := by
  have h := (spells ht hj).document
  constructor
  · intro ht
    exact ht.unique h
  · rintro rfl
    exact h

/-- A query with each part, and with conditions of each kind but clauses. -/
def sample : Selection where
  label := some "person"
  joins := [⟨.leftOuter, 5, "address", "person.id = address.person"⟩]
  columns := some ["id", "name"]
  conditions := [
    .either (.both (.test "age" (.compare .atLeast (.integer 18))) (.test "name" (.like false "a%")))
      (.test "city" (.among true [.text "Lima", .flag true])),
    .check true (some 3) none [] [.test "paid" (.absent false)]]
  grouping := some ⟨["city"]⟩
  ordering := some ⟨"age", false⟩

theorem spellsDocument_render_sample :
    (∀ s ∈ sample.texts, IsPlain s) ∧ (∀ j, Clause.join j ∉ sample.clauses) ∧
      SpellsDocument sample.render sample.tree := by
  have ht : ∀ s ∈ sample.texts, IsPlain s := by decide
  have hj : ∀ j, Clause.join j ∉ sample.clauses := fun j h => absurd h List.not_mem_nil
  exact ⟨ht, hj, (spellsDocument_render_iff ht hj _).mpr rfl⟩

end Selection

end RemoteRecords
