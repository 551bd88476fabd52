import RemoteRecords.Proofs.Query.Payload
import RemoteRecords.Proofs.Query.Shape

/-!
# The payload determines the query

Two queries with the same payload are the same, as long as no string holds a
quote: in label, joins, columns, grouping and ordering, and in their filters up to
how conjunctions in conjunctions and disjunctions in disjunctions are nested.
Doubles are known by their text, and no columns are an empty list of them.

* `Test.render_append_inj`: tests of one kind;
* `Flat.render_append_inj`: nodes of a filter, by induction;
* `Selection.eq_of_render_eq`: queries.
-/

namespace RemoteRecords

open Json (Ends)

/-! ## Tests -/

namespace Test

/-- What is compared of a test. -/
def literals (t : Test) : TestKind × List Literal :=
  (t.kind, t.operands.map Operand.literal)

variable {field field' operator : String} {v w : Operand} {gap r r' : List Char}

theorem operatorObject_append_inj (hv : ∀ s ∈ v.texts, IsQuoteFree s)
    (hw : ∀ s ∈ w.texts, IsQuoteFree s)
    (h : operatorObject operator gap v.render ++ r = operatorObject operator gap w.render ++ r') :
    v.literal = w.literal ∧ r = r' := by
  have hclose : " \x7d".toList = [' ', '\x7d'] := rfl
  unfold operatorObject at h
  simp only [hclose, List.append_assoc, List.cons_append, List.nil_append] at h
  have h := List.append_cancel_left (List.append_cancel_left (List.append_cancel_left h))
  obtain ⟨he, h⟩ := Operand.render_append_inj hv hw (Json.ends_space _) (Json.ends_space _) h
  exact ⟨he, (List.cons.inj (List.cons.inj h).2).2⟩

/-- A field, a colon and an operator with one value. -/
theorem operator_append_inj (hf : IsQuoteFree field) (hf' : IsQuoteFree field') {outer : List Char}
    (hv : ∀ s ∈ v.texts, IsQuoteFree s) (hw : ∀ s ∈ w.texts, IsQuoteFree s)
    (h : Fragment.quoted field ++ outer ++ operatorObject operator gap v.render ++ r =
      Fragment.quoted field' ++ outer ++ operatorObject operator gap w.render ++ r') :
    field = field' ∧ [v].map Operand.literal = [w].map Operand.literal ∧ r = r' := by
  simp only [List.append_assoc] at h
  obtain ⟨hfield, h⟩ := Fragment.quoted_append_inj hf hf' h
  obtain ⟨he, h⟩ := operatorObject_append_inj hv hw (List.append_cancel_left h)
  exact ⟨hfield, by rw [List.map_singleton, List.map_singleton, he], h⟩

/-- Comparisons by the same operator. -/
theorem compare_append_inj (op : Comparison) (hf : IsQuoteFree field) (hf' : IsQuoteFree field')
    (hv : ∀ s ∈ v.texts, IsQuoteFree s) (hw : ∀ s ∈ w.texts, IsQuoteFree s) (hr : Ends r)
    (hr' : Ends r') (h : op.render field v ++ r = op.render field' w ++ r') :
    field = field' ∧ [v].map Operand.literal = [w].map Operand.literal ∧ r = r' := by
  rw [List.map_singleton, List.map_singleton]
  cases op with
  | equal =>
    unfold Comparison.render at h
    simp only [List.append_assoc] at h
    obtain ⟨hfield, h⟩ := Fragment.quoted_append_inj hf hf' h
    obtain ⟨he, h⟩ := Operand.render_append_inj hv hw hr hr' (List.append_cancel_left h)
    exact ⟨hfield, by rw [he], h⟩
  | notEqual =>
    unfold Comparison.render at h
    simp only [List.append_assoc, List.cons_append, List.nil_append] at h
    obtain ⟨hfield, h⟩ := Fragment.quoted_append_inj hf hf' (List.append_cancel_left h)
    obtain ⟨he, h⟩ := Operand.render_append_inj hv hw (Json.ends_closeBrace _)
      (Json.ends_closeBrace _) (List.append_cancel_left h)
    exact ⟨hfield, by rw [he], (List.cons.inj h).2⟩
  | atLeast => exact operator_append_inj hf hf' hv hw h
  | atMost => exact operator_append_inj hf hf' hv hw h
  | above => exact operator_append_inj hf hf' hv hw h
  | below => exact operator_append_inj hf hf' hv hw h

/-- Tests of one kind. -/
theorem render_append_inj {t u : Test} (hk : t.kind = u.kind) (hf : IsQuoteFree field)
    (hf' : IsQuoteFree field') (ht : ∀ s ∈ t.texts, IsQuoteFree s)
    (hu : ∀ s ∈ u.texts, IsQuoteFree s) (hr : Ends r) (hr' : Ends r')
    (h : t.render field ++ r = u.render field' ++ r') :
    field = field' ∧ t.literals = u.literals ∧ r = r' := by
  have hclose : "]\x7d".toList = [']', '\x7d'] := rfl
  suffices field = field' ∧ t.operands.map Operand.literal = u.operands.map Operand.literal ∧
      r = r' by
    obtain ⟨hfield, ho, h⟩ := this
    exact ⟨hfield, by rw [literals, literals, hk, ho], h⟩
  cases t with
  | compare op v =>
    cases u with
    | compare op' w =>
      obtain rfl : op = op' := TestKind.compare.inj hk
      exact compare_append_inj op hf hf' ht hu hr hr' h
    | _ => cases hk
  | between low high =>
    cases u with
    | between low' high' =>
      unfold render at h
      simp only [hclose, List.append_assoc, List.cons_append, List.nil_append] at h
      obtain ⟨hfield, h⟩ := Fragment.quoted_append_inj hf hf' h
      obtain ⟨hlow, h⟩ := Operand.render_append_inj
        (fun s hs => ht s (List.mem_append_left _ hs)) (fun s hs => hu s (List.mem_append_left _ hs))
        (Json.ends_comma _) (Json.ends_comma _) (List.append_cancel_left h)
      obtain ⟨hhigh, h⟩ := Operand.render_append_inj
        (fun s hs => ht s (List.mem_append_right _ hs))
        (fun s hs => hu s (List.mem_append_right _ hs))
        (Json.ends_closeBracket _) (Json.ends_closeBracket _) (List.cons.inj h).2
      refine ⟨hfield, ?_, (List.cons.inj (List.cons.inj h).2).2⟩
      simp only [operands, List.map_cons, List.map_nil, hlow, hhigh]
    | _ => cases hk
  | among negated values =>
    cases u with
    | among negated' values' =>
      obtain rfl : negated = negated' := TestKind.among.inj hk
      unfold render at h
      simp only [hclose, List.append_assoc, List.cons_append, List.nil_append] at h
      obtain ⟨hfield, h⟩ := Fragment.quoted_append_inj hf hf' h
      have h := List.append_cancel_left (List.append_cancel_left (List.append_cancel_left h))
      obtain ⟨he, h⟩ := Operand.list_append_inj
        (fun v hv s hs => ht s (List.mem_flatMap.mpr ⟨v, hv, hs⟩))
        (fun v hv s hs => hu s (List.mem_flatMap.mpr ⟨v, hv, hs⟩)) h
      exact ⟨hfield, he, (List.cons.inj h).2⟩
    | _ => cases hk
  | like negated pattern =>
    cases u with
    | like negated' pattern' =>
      obtain rfl : negated = negated' := TestKind.like.inj hk
      exact operator_append_inj (v := .text pattern) (w := .text pattern') hf hf' ht hu h
    | _ => cases hk
  | absent negated =>
    cases u with
    | absent negated' =>
      obtain rfl : negated = negated' := TestKind.absent.inj hk
      unfold render at h
      simp only [List.append_assoc] at h
      obtain ⟨hfield, h⟩ := Fragment.quoted_append_inj hf hf' h
      have h := List.append_cancel_left (List.append_cancel_left (List.append_cancel_left h))
      exact ⟨hfield, rfl, h⟩
    | _ => cases hk

end Test

/-! ## Nodes -/

namespace Flat

variable {r r' : List Char}

/-- The strings of the nodes in a group. -/
theorem forall_texts_of_textsEach {nodes : List (Flat Test)}
    (h : ∀ s ∈ textsEach nodes, IsQuoteFree s) : ∀ f ∈ nodes, ∀ s ∈ f.texts, IsQuoteFree s := by
  intro f hf s hs
  rw [textsEach_eq_flatMap] at h
  exact h s (List.mem_flatMap.mpr ⟨f, hf, hs⟩)

theorem shape_eq {a b : Flat Test} (ha : ∀ s ∈ a.texts, IsQuoteFree s)
    (hb : ∀ s ∈ b.texts, IsQuoteFree s) (h : a.render ++ r = b.render ++ r') :
    a.shape = b.shape := by
  rw [← shape_of_render ha r, h, shape_of_render hb r']

/-- Clauses of one kind. -/
theorem clause_append_inj {c d : Clause} (hc : ∀ s ∈ c.texts, IsQuoteFree s)
    (hd : ∀ s ∈ d.texts, IsQuoteFree s)
    (hshape : (clause c : Flat Test).shape = (clause d : Flat Test).shape)
    (h : c.render ++ r = d.render ++ r') : c = d ∧ r = r' := by
  cases c with
  | join j =>
    cases d with
    | join k =>
      obtain ⟨he, h⟩ := Join.render_append_inj hc hd h
      exact ⟨by rw [he], h⟩
    | _ => cases hshape
  | order o =>
    cases d with
    | order p =>
      obtain ⟨he, h⟩ := SortOrder.render_append_inj (hc o.field List.mem_cons_self)
        (hd p.field List.mem_cons_self) h
      exact ⟨by rw [he], h⟩
    | _ => cases hshape
  | group g =>
    cases d with
    | group k =>
      obtain ⟨he, h⟩ := Grouping.render_append_inj hc hd h
      exact ⟨by rw [he], h⟩
    | _ => cases hshape

/-- Nodes in a row, if each of the first ones says what it is and where it ends
among the nodes of its kind. -/
theorem list_append_inj {l l' : List (Flat Test)}
    (hl : ∀ s ∈ textsEach l, IsQuoteFree s) (hl' : ∀ s ∈ textsEach l', IsQuoteFree s)
    (hnode : ∀ a ∈ l, ∀ {b : Flat Test} {s s' : List Char}, (∀ u ∈ a.texts, IsQuoteFree u) →
      (∀ u ∈ b.texts, IsQuoteFree u) → Ends s → Ends s' → a.render ++ s = b.render ++ s' →
      a.shape = b.shape → a.map Test.literals = b.map Test.literals ∧ s = s')
    (h : Fragment.list [','] (renderEach l) ++ '\x7d' :: r =
      Fragment.list [','] (renderEach l') ++ '\x7d' :: r') :
    mapEach Test.literals l = mapEach Test.literals l' ∧ r = r' := by
  rw [renderEach_eq_map, renderEach_eq_map] at h
  rw [mapEach_eq_map, mapEach_eq_map]
  have hl := forall_texts_of_textsEach hl
  have hl' := forall_texts_of_textsEach hl'
  exact Fragment.list_append_inj (by decide) Json.ends_comma Json.ends_closeBrace
    (fun a ha b hb _ _ hs hs' h =>
      hnode a ha (hl a ha) (hl' b hb) hs hs' h (shape_eq (hl a ha) (hl' b hb) h))
    (fun a _ => a.render_append_ne (by decide) (by decide))
    (fun a _ => a.render_append_ne (by decide) (by decide)) h

/-- A node says what it is and where it ends, by induction on its nodes. What it
starts with tells its kind, so only nodes of one kind are compared. -/
theorem render_append_inj {a b : Flat Test} (ha : ∀ s ∈ a.texts, IsQuoteFree s)
    (hb : ∀ s ∈ b.texts, IsQuoteFree s) (hr : Ends r) (hr' : Ends r')
    (h : a.render ++ r = b.render ++ r') :
    a.map Test.literals = b.map Test.literals ∧ r = r' := by
  have hshape := shape_eq ha hb h
  induction a generalizing b r r' with
  | test field t =>
    cases b with
    | test field' u =>
      rw [render, render] at h
      obtain ⟨hfield, ht, h⟩ := Test.render_append_inj (Shape.test.inj hshape)
        (ha field List.mem_cons_self) (hb field' List.mem_cons_self)
        (fun s hs => ha s (List.mem_cons_of_mem _ hs)) (fun s hs => hb s (List.mem_cons_of_mem _ hs))
        hr hr' h
      exact ⟨by rw [map, map, hfield, ht], h⟩
    | clause c => cases c <;> cases hshape
    | _ => cases hshape
  | any nodes ih =>
    cases b with
    | any nodes' =>
      rw [render, render, wrapWhen, wrapWhen, if_pos rfl, if_pos rfl] at h
      simp only [List.append_assoc] at h
      obtain ⟨he, h⟩ := list_append_inj ha hb (fun f hf _ _ _ => ih f hf)
        (List.append_cancel_left h)
      exact ⟨by rw [map, map, he], h⟩
    | clause c => cases c <;> cases hshape
    | _ => cases hshape
  | all nodes ih =>
    cases b with
    | all nodes' =>
      rw [render, render, wrapWhen, wrapWhen, if_pos rfl, if_pos rfl] at h
      simp only [List.append_assoc] at h
      obtain ⟨he, h⟩ := list_append_inj ha hb (fun f hf _ _ _ => ih f hf)
        (List.append_cancel_left h)
      exact ⟨by rw [map, map, he], h⟩
    | clause c => cases c <;> cases hshape
    | _ => cases hshape
  | check negated model label joins nodes ih =>
    cases b with
    | check negated' model' label' joins' nodes' =>
      rw [render, render] at h
      simp only [List.append_assoc] at h
      rw [texts] at ha hb
      simp only [List.forall_mem_append] at ha hb
      obtain ⟨⟨hn, hm, hlabel, hjs⟩, h⟩ := checkHead_append_inj
        (fun s hs => ha.1.2 s (Option.mem_toList.mpr hs))
        (fun s hs => hb.1.2 s (Option.mem_toList.mpr hs)) ha.1.1 hb.1.1 h
      obtain ⟨he, h⟩ := list_append_inj ha.2 hb.2 (fun f hf _ _ _ => ih f hf) h
      exact ⟨by rw [map, map, hn, hm, hlabel, hjs, he], (List.cons.inj h).2⟩
    | clause c => cases c <;> cases hshape
    | _ => cases hshape
  | clause c =>
    cases b with
    | clause d =>
      rw [render, render] at h
      obtain ⟨he, h⟩ := clause_append_inj ha hb hshape h
      exact ⟨by rw [map, map, he], h⟩
    | _ => cases c <;> cases hshape

end Flat

/-! ## Queries -/

section Parts

variable {r r' : List Char}

theorem grouping_append_inj {o o' : Option Grouping} (ho : ∀ g ∈ o, ∀ s ∈ g.fields, IsQuoteFree s)
    (ho' : ∀ g ∈ o', ∀ s ∈ g.fields, IsQuoteFree s) (hr : r[2]? ≠ some 'g') (hr' : r'[2]? ≠ some 'g')
    (h : Criteria.trailingPart Grouping.render o ++ r =
      Criteria.trailingPart Grouping.render o' ++ r') : o = o' ∧ r = r' := by
  refine optional_append_inj rfl (fun g s => ?_) (fun a ha b hb h => ?_) hr hr' h
  · show (',' :: (g.render ++ s))[2]? = some 'g'
    unfold Grouping.render
    simp only [List.append_assoc]
    rfl
  · exact Grouping.render_append_inj (ho a ha) (ho' b hb) (List.cons.inj h).2

theorem ordering_append_inj {o o' : Option SortOrder} (ho : ∀ p ∈ o, IsQuoteFree p.field)
    (ho' : ∀ p ∈ o', IsQuoteFree p.field) (hr : r[2]? ≠ some 'o') (hr' : r'[2]? ≠ some 'o')
    (h : Criteria.trailingPart SortOrder.render o ++ r =
      Criteria.trailingPart SortOrder.render o' ++ r') : o = o' ∧ r = r' := by
  refine optional_append_inj rfl (fun p s => ?_) (fun a ha b hb h => ?_) hr hr' h
  · show (',' :: (p.render ++ s))[2]? = some 'o'
    unfold SortOrder.render
    simp only [List.append_assoc]
    rfl
  · exact SortOrder.render_append_inj (ho a ha) (ho' b hb) (List.cons.inj h).2

/-- Columns as a part that may be missing, and the comma before them. -/
def columnsPart : Option (List String) → List Char
  | none => []
  | some l => ", ".toList ++ ("\"columns\": [".toList ++
      Fragment.list [','] (l.map Fragment.quoted) ++ [']'])

theorem projectionPart_eq_columnsPart (o : Option (List String)) :
    ∃ l, Criteria.projectionPart (columnsFragment o) = columnsPart l ∧ l.getD [] = o.getD [] := by
  match o with
  | none => exact ⟨none, Criteria.projectionPart_blank rfl, rfl⟩
  | some [] => exact ⟨none, Criteria.projectionPart_blank rfl, rfl⟩
  | some (c :: l) => exact ⟨some (c :: l), projectionPart_columnsFragment c l, rfl⟩

theorem columns_append_inj {o o' : Option (List String)} (ho : ∀ s ∈ o.getD [], IsQuoteFree s)
    (ho' : ∀ s ∈ o'.getD [], IsQuoteFree s) (hr : r[3]? ≠ some 'c') (hr' : r'[3]? ≠ some 'c')
    (h : Criteria.projectionPart (columnsFragment o) ++ r =
      Criteria.projectionPart (columnsFragment o') ++ r') : o.getD [] = o'.getD [] ∧ r = r' := by
  obtain ⟨l, e, hl⟩ := projectionPart_eq_columnsPart o
  obtain ⟨l', e', hl'⟩ := projectionPart_eq_columnsPart o'
  rw [e, e'] at h
  rw [← hl] at ho ⊢
  rw [← hl'] at ho' ⊢
  have hitem : ∀ a ∈ l, ∀ b ∈ l', columnsPart (some a) ++ r = columnsPart (some b) ++ r' →
      a = b ∧ r = r' := by
    rintro a rfl b rfl h
    unfold columnsPart at h
    simp only [List.append_assoc, List.cons_append, List.nil_append] at h
    exact Fragment.texts_append_inj ho ho' (List.append_cancel_left (List.append_cancel_left h))
  have hsome : ∀ a s, (columnsPart (some a) ++ s)[3]? = some 'c' := by
    intro a s
    unfold columnsPart
    simp only [List.append_assoc]
    rfl
  obtain ⟨he, h⟩ := optional_append_inj rfl hsome hitem hr hr' h
  exact ⟨by rw [he], h⟩

end Parts

namespace Selection

/-- The payload determines the query. -/
theorem eq_of_render_eq {q q' : Selection} (hq : ∀ s ∈ q.texts, IsQuoteFree s)
    (hq' : ∀ s ∈ q'.texts, IsQuoteFree s) (h : q.render = q'.render) :
    q.label = q'.label ∧ q.joins = q'.joins ∧ q.columnList = q'.columnList ∧
      q.grouping = q'.grouping ∧ q.ordering = q'.ordering ∧
      (Condition.flattenEach q.conditions).map (Flat.map Test.literals) =
        (Condition.flattenEach q'.conditions).map (Flat.map Test.literals) := by
  have hjoins : ∀ (js : List Join) (s : List Char), (Join.renderAll js ++ s)[1]? ≠ some 'a' := by
    intro js s
    unfold Join.renderAll
    simp only [List.append_assoc]
    exact fun e => absurd (Option.some.inj e) (by decide)
  have hordering : ∀ (o : Option SortOrder),
      (Criteria.trailingPart SortOrder.render o ++ ['\x7d'])[2]? ≠ some 'g' := by
    intro o
    cases o with
    | none => exact fun e => absurd e (by decide)
    | some p =>
      show (',' :: (p.render ++ ['\x7d']))[2]? ≠ some 'g'
      unfold SortOrder.render
      simp only [List.append_assoc]
      exact fun e => absurd (Option.some.inj e) (by decide)
  simp only [texts, List.forall_mem_append] at hq hq'
  obtain ⟨⟨⟨⟨⟨hl, hj⟩, hc⟩, hf⟩, hg⟩, ho⟩ := hq
  obtain ⟨⟨⟨⟨⟨hl', hj'⟩, hc'⟩, hf'⟩, hg'⟩, ho'⟩ := hq'
  unfold render criteria Criteria.render at h
  simp only [Condition.whereBody_eq_list, List.append_assoc, List.cons_append] at h
  obtain ⟨hlabel, h⟩ := labelFragment_append_inj (fun s hs => hl s (Option.mem_toList.mpr hs))
    (fun s hs => hl' s (Option.mem_toList.mpr hs)) (hjoins _ _) (hjoins _ _) (List.cons.inj h).2
  obtain ⟨hjs, h⟩ := Join.renderAll_append_inj hj hj' h
  obtain ⟨hcolumns, h⟩ := columns_append_inj hc hc' (fun e => absurd (Option.some.inj e) (by decide))
    (fun e => absurd (Option.some.inj e) (by decide)) h
  have hnodes : ∀ s ∈ Flat.textsEach (Condition.flattenEach q.conditions), IsQuoteFree s := by
    rwa [Condition.textsEach_flattenEach]
  have hnodes' : ∀ s ∈ Flat.textsEach (Condition.flattenEach q'.conditions), IsQuoteFree s := by
    rwa [Condition.textsEach_flattenEach]
  rw [← Flat.renderEach_eq_map, ← Flat.renderEach_eq_map] at h
  obtain ⟨hconditions, h⟩ := Flat.list_append_inj hnodes hnodes'
    (fun _ _ _ _ _ ha hb hs hs' h _ => Flat.render_append_inj ha hb hs hs' h)
    (List.append_cancel_left h)
  rw [Flat.mapEach_eq_map, Flat.mapEach_eq_map] at hconditions
  have hfields : ∀ (o : Option Grouping), (∀ s ∈ (o.map Grouping.fields).getD [], IsQuoteFree s) →
      ∀ g ∈ o, ∀ s ∈ g.fields, IsQuoteFree s := by
    rintro o h g rfl
    exact h
  have hfield : ∀ (o : Option SortOrder), (∀ s ∈ (o.map SortOrder.field).toList, IsQuoteFree s) →
      ∀ p ∈ o, IsQuoteFree p.field := by
    rintro o h p rfl
    exact h p.field List.mem_cons_self
  obtain ⟨hgrouping, h⟩ := grouping_append_inj (hfields _ hg) (hfields _ hg') (hordering _)
    (hordering _) h
  obtain ⟨hsort, -⟩ := ordering_append_inj (hfield _ ho) (hfield _ ho')
    (fun e => absurd e (by decide)) (fun e => absurd e (by decide)) h
  exact ⟨hlabel, hjs, hcolumns, hgrouping, hsort, hconditions⟩

/-- A filter that is nested in a check, with the empty list of columns. -/
def sampleNested : Selection where
  label := none
  joins := []
  columns := some []
  conditions := [
    .check true none (some "p") [] [.both (.test "$in" (.compare .notEqual (.text "\\")))
      (.both (.test "a" (.among false [.integer 1])) (.clause (.order ⟨"a", true⟩)))]]
  grouping := none
  ordering := some ⟨"a", false⟩

/-- The same filter without nesting, and no columns. -/
def sampleSpread : Selection :=
  { sampleNested with
    columns := none
    conditions := [
      .check true none (some "p") [] [.test "$in" (.compare .notEqual (.text "\\")),
        .test "a" (.among false [.integer 1]), .clause (.order ⟨"a", true⟩)]] }

theorem eq_of_render_eq_sample :
    (∀ s ∈ sampleNested.texts, IsQuoteFree s) ∧ (∀ s ∈ sampleSpread.texts, IsQuoteFree s) ∧
      sampleNested.render = sampleSpread.render ∧
      (Condition.flattenEach sampleNested.conditions).map (Flat.map Test.literals) =
        (Condition.flattenEach sampleSpread.conditions).map (Flat.map Test.literals) := by
  have hn : ∀ s ∈ sampleNested.texts, IsQuoteFree s := by decide
  have hs : ∀ s ∈ sampleSpread.texts, IsQuoteFree s := by decide
  have h : sampleNested.render = sampleSpread.render := rfl
  exact ⟨hn, hs, h, (eq_of_render_eq hn hs h).2.2.2.2.2⟩

end Selection

end RemoteRecords
