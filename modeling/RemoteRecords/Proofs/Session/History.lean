import Mathlib.Data.List.DropRight
import RemoteRecords.Proofs.Query.Payload
import RemoteRecords.Proofs.Session.Call
import RemoteRecords.Proofs.Session.Query
import RemoteRecords.Proofs.Settings.Address

/-!
# Histories of queries

What a query asks for can be read off the calls that were made on it. Conditions
and joins are all that were given, in the order of the calls; label, grouping and
columns are the last ones given; and the ordering is the last one given, in the
direction that was asked for last since then. It does not matter whether a clause
was added or given by an edit of its own.

* `Selection.ofHistory`: what the calls on a query ask for, taken together;
* `Query.selection_after`: what one more call makes of it;
* `Query.selection_foldl`: a query asks for what its history says;
* `Session.run_follows_history`: so do its requests, after every run.
-/

namespace RemoteRecords

/-! ## What a call gives -/

namespace QueryCall

/-- The condition that a call adds to the filter. -/
def condition? : QueryCall → Option Condition
  | edit (.add (.clause _)) => none
  | edit (.add c) => some c
  | _ => none

/-- The join that a call gives. -/
def join? : QueryCall → Option Join
  | edit (.join j) | edit (.add (.clause (.join j))) => some j
  | _ => none

/-- The label that a call gives. -/
def label? : QueryCall → Option String
  | edit (.setLabel label) => some label
  | _ => none

/-- The grouping that a call gives. -/
def grouping? : QueryCall → Option Grouping
  | edit (.groupBy fields) => some ⟨fields⟩
  | edit (.add (.clause (.group g))) => some g
  | _ => none

/-- The ordering that a call gives. -/
def ordering? : QueryCall → Option SortOrder
  | edit (.orderBy field) => some ⟨field, true⟩
  | edit (.add (.clause (.order o))) => some o
  | _ => none

/-- The direction that a call turns the ordering to. -/
def direction? : QueryCall → Option Bool
  | edit (.direct ascending) => some ascending
  | _ => none

/-- The columns that a call runs the query with. -/
def columns? : QueryCall → Option (Option (List String))
  | execute columns => some columns
  | _ => none

theorem condition?_ne_clause {call : QueryCall} {c : Condition} (h : call.condition? = some c)
    (k : Clause) : c ≠ .clause k := by
  rintro rfl
  unfold condition? at h
  split at h
  · cases h
  · next hne => exact hne _ (Option.some.inj h)
  · cases h

end QueryCall

/-! ## What a history asks for -/

namespace History

open QueryCall

/-- The last of what the calls of a history give. -/
def last? {α : Type} (given? : QueryCall → Option α) (history : List QueryCall) : Option α :=
  (history.filterMap given?).getLast?

/-- The calls after the last one that gave an ordering. -/
def sinceOrdering (history : List QueryCall) : List QueryCall :=
  history.rtakeWhile fun c => c.ordering?.isNone

/-- The last ordering that was given, in the direction asked for last since then. -/
def ordering (history : List QueryCall) : Option SortOrder :=
  (last? ordering? history).map fun o =>
    { o with ascending := (last? direction? (sinceOrdering history)).getD o.ascending }

end History

/-- What the calls of a history ask for, taken together. -/
def Selection.ofHistory (history : List QueryCall) : Selection where
  label := History.last? QueryCall.label? history
  joins := history.filterMap QueryCall.join?
  columns := (History.last? QueryCall.columns? history).join
  conditions := history.filterMap QueryCall.condition?
  grouping := History.last? QueryCall.grouping? history
  ordering := History.ordering history

/-- What a query asks for, but for the page. -/
def Query.selection (q : Query) : Selection :=
  ⟨q.label, q.joins, q.columns, q.conditions, q.grouping, q.ordering⟩

namespace History

open QueryCall

theorem last?_concat {α : Type} (given? : QueryCall → Option α) (history : List QueryCall)
    (c : QueryCall) : last? given? (history ++ [c]) = (given? c).or (last? given? history) := by
  rw [last?, List.filterMap_append, List.getLast?_append, last?]
  cases h : given? c <;> simp [h]

theorem last?_eq_none_iff {α : Type} {given? : QueryCall → Option α} {history : List QueryCall} :
    last? given? history = none ↔ ∀ c ∈ history, given? c = none := by
  rw [last?, List.getLast?_eq_none_iff, List.filterMap_eq_nil_iff]

variable {history : List QueryCall} {c : QueryCall}

/-- An ordering that is given takes the place of the one before. -/
theorem ordering_concat_of_ordering {o : SortOrder} (h : c.ordering? = some o) :
    ordering (history ++ [c]) = some o := by
  have hs : sinceOrdering (history ++ [c]) = [] := by simp [sinceOrdering, h]
  simp [ordering, h, hs, last?]

/-- Without a new ordering a direction turns the one in force, and nothing else
changes it. -/
theorem ordering_concat (h : c.ordering? = none) :
    ordering (history ++ [c]) =
      (ordering history).map fun o => { o with ascending := c.direction?.getD o.ascending } := by
  have hs : sinceOrdering (history ++ [c]) = sinceOrdering history ++ [c] := by
    simp [sinceOrdering, h]
  rw [ordering, last?_concat, h, hs, last?_concat, ordering, Option.none_or, Option.map_map]
  cases last? ordering? history with
  | none => rfl
  | some o => cases hd : c.direction? <;> simp

end History

/-! ## One more call -/

namespace Query

open QueryCall

attribute [local simp] condition? join? label? grouping? ordering? direction? columns?

/-- What one more call makes of what a query asks for. -/
theorem selection_after (q : Query) (c : QueryCall) :
    (q.after c).selection =
      { label := c.label?.or q.label
        joins := q.joins ++ c.join?.toList
        columns := c.columns?.getD q.columns
        conditions := q.conditions ++ c.condition?.toList
        grouping := c.grouping?.or q.grouping
        ordering := c.ordering?.or
          (q.ordering.map fun o => { o with ascending := c.direction?.getD o.ascending }) } := by
  cases c with
  | edit e =>
    cases e with
    | add c =>
      cases c with
      | clause k => cases k <;> simp [selection, after, edited, edit, add, addClause]
      | _ => simp [selection, after, edited, edit, add]
    | direct ascending => simp [selection, after, edited_direct]
    | _ => simp [selection, after, edited, edit, addClause]
  | execute columns => simp [selection, after, project]
  | next => simp [selection, after, advance]

/-- One more call does to what a query asks for what it does to its history. -/
theorem selection_after_of_ofHistory {q : Query} {history : List QueryCall}
    (h : q.selection = .ofHistory history) (c : QueryCall) :
    (q.after c).selection = .ofHistory (history ++ [c]) := by
  have hlabel : q.label = History.last? label? history := congrArg Selection.label h
  have hjoins : q.joins = history.filterMap join? := congrArg Selection.joins h
  have hcolumns : q.columns = (History.last? columns? history).join := congrArg Selection.columns h
  have hconditions : q.conditions = history.filterMap condition? :=
    congrArg Selection.conditions h
  have hgrouping : q.grouping = History.last? grouping? history := congrArg Selection.grouping h
  have hordering : q.ordering = History.ordering history := congrArg Selection.ordering h
  rw [selection_after, Selection.ofHistory, hlabel, hjoins, hcolumns, hconditions, hgrouping,
    hordering]
  simp only [History.last?_concat, List.filterMap_append, List.filterMap_cons, List.filterMap_nil]
  congr 1
  · cases c.columns? <;> rfl
  · cases ho : c.ordering? with
    | some o => exact (History.ordering_concat_of_ordering ho).symm
    | none => exact (History.ordering_concat ho).symm

/-- A query asks for what its history says. -/
theorem selection_foldl (model : ModelId) (history : List QueryCall) :
    (history.foldl after (.ofModel model)).selection = .ofHistory history := by
  induction history using List.reverseRecOn with
  | nil => rfl
  | append_singleton history c ih =>
    rw [List.foldl_append]
    exact selection_after_of_ofHistory ih c

/-- A filter never holds a clause at its top. -/
theorem ne_clause_of_mem {q : Query} {history : List QueryCall}
    (h : q.selection = .ofHistory history) {c : Condition} (hc : c ∈ q.conditions) (k : Clause) :
    c ≠ .clause k := by
  have hconditions : q.conditions = history.filterMap condition? :=
    congrArg Selection.conditions h
  rw [hconditions] at hc
  obtain ⟨call, -, hcall⟩ := List.mem_filterMap.mp hc
  exact condition?_ne_clause hcall k

end Query

theorem History.ordering_eq_none_iff {history : List QueryCall} :
    ordering history = none ↔ ∀ c ∈ history, c.ordering? = none := by
  rw [ordering, Option.map_eq_none_iff, last?_eq_none_iff]

/-! ## Requests -/

/-- Whether the payload has the columns behind the joins, where they belong. -/
def Selection.CarriesColumns (s : Selection) : Prop :=
  '\x7b' :: labelFragment s.label ++ Join.renderAll s.joins ++ ", \"columns\": [".toList <+: s.render

theorem Selection.carriesColumns_iff (s : Selection) : s.CarriesColumns ↔ s.columnList ≠ [] := by
  obtain ⟨label, joins, columns, conditions, grouping, ordering⟩ := s
  have hblank : Criteria.projectionPart [] = [] := Criteria.projectionPart_blank rfl
  unfold CarriesColumns render criteria Criteria.render columnList
  simp only [List.cons_append, List.append_assoc, List.cons_prefix_cons, true_and,
    List.prefix_append_right_inj]
  match columns with
  | none => simp [columnsFragment, hblank]
  | some [] => simp [columnsFragment, hblank]
  | some (c :: columns) =>
    rw [projectionPart_columnsFragment]
    simp [columnsFragment]

namespace Query

theorem endpoint_eq_recordsByProjection_iff (q : Query) :
    q.endpoint = .recordsByProjection ↔ q.selection.columnList ≠ [] := by
  unfold endpoint Selection.columnList selection
  split <;> simp_all

/-- The endpoint has the name that the columns ask for. -/
theorem key_endpoint (q : Query) :
    q.endpoint.key =
      if q.selection.columnList = [] then "get_records" else "get_records_by_projection" := by
  have hiff := q.endpoint_eq_recordsByProjection_iff
  rcases q.endpoint_eq with he | he
  · rw [he] at hiff ⊢
    rw [if_pos (not_not.mp (mt hiff.mpr (by decide)))]
    rfl
  · rw [he, if_neg (hiff.mp he)]
    rfl

end Query

namespace Session

/-- A session in which the query with a number is as its history says, and in which
each call on it does what the history says. -/
structure Follows (s : Session) (index : Nat) (q : Query) (history : List QueryCall) : Prop where
  get : s.queries[index]? = some q
  selection : q.selection = .ofHistory history
  conditions : ∀ c ∈ q.conditions, ∀ k, c ≠ .clause k
  /-- A direction is refused as long as no ordering was given, and only then. -/
  direct : ∀ ascending,
    (∀ c ∈ history, c.ordering? = none) ∧
        s.step (.query index (.edit (.direct ascending))) = (.error .orderingRequired, s) ∨
      (∃ c ∈ history, c.ordering? ≠ none) ∧
        (s.step (.query index (.edit (.direct ascending)))).1 = .ok .done
  /-- A page is asked for with the history as it is with the call itself, and the address that
  the standard template gives names the operation that the columns ask for. -/
  request : ∀ c, c.asks = true → ∃ e,
    (s.step (.query index c)).2.channel.log = s.channel.log ++
        [⟨.post, s.account.address e (q.after c).slots,
          [("criteria", String.ofList (Selection.ofHistory (history ++ [c])).render)]⟩] ∧
      (e = .records ∨ e = .recordsByProjection) ∧
      (e = .recordsByProjection ↔ (Selection.ofHistory (history ++ [c])).columnList ≠ []) ∧
      (e = .recordsByProjection ↔ (Selection.ofHistory (history ++ [c])).CarriesColumns) ∧
      (s.account.settings.templates.get e = Templates.standard.get e →
        (s.account.address e (q.after c).slots).toList =
          s.account.settings.pageText s.account.credentials
            (if (Selection.ofHistory (history ++ [c])).columnList = [] then "get_records"
              else "get_records_by_projection")
            q.model.toInt (q.after c).effectiveCount.toInt (q.after c).currentOffset.toInt)

section

variable {s : Session} {index : Nat} {q : Query}

theorem step_direct_of_none (h : s.queries[index]? = some q) (ho : q.ordering = none)
    (ascending : Bool) :
    s.step (.query index (.edit (.direct ascending))) = (.error .orderingRequired, s) := by
  simp only [step, h, queryStep, Query.edit, Query.direct, ho]

theorem step_direct_of_some (h : s.queries[index]? = some q) {o : SortOrder}
    (ho : q.ordering = some o) (ascending : Bool) :
    (s.step (.query index (.edit (.direct ascending)))).1 = .ok .done := by
  simp only [step, h, queryStep, Query.edit, Query.direct, ho]

end

variable {a : Account} {script : List (Except Fault String)} {log : List Request}
  {queries : List Query} {index : Nat} {q : Query} {history : List QueryCall}

theorem follows_of_ofHistory (h : queries[index]? = some q) (hs : q.selection = .ofHistory history) :
    (scripted a script log queries).Follows index q history where
  get := h
  selection := hs
  conditions := fun _ hc k => Query.ne_clause_of_mem hs hc k
  direct := by
    intro ascending
    have ho : q.ordering = History.ordering history := congrArg Selection.ordering hs
    cases hq : q.ordering with
    | none =>
      rw [ho, History.ordering_eq_none_iff] at hq
      refine .inl ⟨hq, step_direct_of_none h ?_ ascending⟩
      rw [ho, History.ordering_eq_none_iff]
      exact hq
    | some o =>
      refine .inr ⟨?_, step_direct_of_some h hq ascending⟩
      by_contra hn
      push Not at hn
      rw [ho, History.ordering_eq_none_iff.mpr hn] at hq
      cases hq
  request := by
    intro c hc
    have hnext := Query.selection_after_of_ofHistory hs c
    refine ⟨(q.after c).endpoint, ?_, (q.after c).endpoint_eq, ?_, ?_, fun hstandard => ?_⟩
    · rw [step_page h hc, ← hnext]
      rfl
    · rw [← hnext, Query.endpoint_eq_recordsByProjection_iff]
    · rw [← hnext, Query.endpoint_eq_recordsByProjection_iff, Selection.carriesColumns_iff]
    · rw [← hnext, ← Query.key_endpoint, ← q.model_after c]
      exact Settings.toList_address_page (q.after c).endpoint_eq hstandard _ _ _ _

/-- After every run a query is as the calls on it say, whatever else was called and
whatever was answered. -/
theorem run_follows_history (a : Account) (script : List (Except Fault String))
    (log : List Request) {queries : List Query} {index : Nat} {model : ModelId}
    (h : queries[index]? = some (.ofModel model)) (calls : List Call) :
    ∃ q, ((scripted a script log queries).run calls).2.Follows index q (Call.own index calls) := by
  rw [run_scripted]
  exact ⟨_, follows_of_ofHistory (Call.getElem?_foldl_effect h calls) (Query.selection_foldl _ _)⟩

/-- Calls on two queries: the first is given an ordering too late for one call, and
is turned by another after a page could not be got. -/
def sampleCalls : List Call := [
  .query 0 (.edit (.direct false)),
  .query 0 (.edit (.add (.clause (.join ⟨.left, 5, "b", "a.id = b.a"⟩)))),
  .query 1 (.edit (.orderBy "other")),
  .query 0 (.edit (.orderBy "name")),
  .query 0 (.edit (.add (.test "age" (.compare .above (.integer 17))))),
  .query 0 (.execute (some ["name"])),
  .query 0 (.edit (.direct false)),
  .query 0 (.edit (.join ⟨.inner, 6, "c", "b.id = c.b"⟩))]

/-- The session after these calls. -/
def sampleCalled : Session :=
  ((scripted ⟨⟨"key", "client"⟩, .standard⟩ [.error .unreachable] []
    [.ofModel 7, .ofModel 8]).run sampleCalls).2

theorem run_follows_history_sample :
    [Query.ofModel 7, Query.ofModel 8][0]? = some (.ofModel 7) ∧
      (∃ q, sampleCalled.Follows 0 q (Call.own 0 sampleCalls) ∧
        q.selection = {
          label := none
          joins := [⟨.left, 5, "b", "a.id = b.a"⟩, ⟨.inner, 6, "c", "b.id = c.b"⟩]
          columns := some ["name"]
          conditions := [.test "age" (.compare .above (.integer 17))]
          grouping := none
          ordering := some ⟨"name", false⟩ }) ∧
      ((sampleCalled.run [.query 0 .next, .query 0 (.execute none)]).2.channel.log.map
          Request.url) =
        ["get_records_by_projection/7/15/0/", "get_records_by_projection/7/15/15/",
          "get_records/7/15/15/"].map ("http://api.dynamicloud.org/api_models/key/client/" ++ ·) := by
  have h : [Query.ofModel 7, Query.ofModel 8][0]? = some (.ofModel 7) := rfl
  obtain ⟨q, hq⟩ := run_follows_history ⟨⟨"key", "client"⟩, .standard⟩ [.error .unreachable] [] h
    sampleCalls
  exact ⟨h, ⟨q, hq, hq.selection.trans rfl⟩, by decide +kernel⟩

end Session

end RemoteRecords
