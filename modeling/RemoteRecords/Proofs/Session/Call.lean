import Mathlib.Data.List.ReduceOption
import RemoteRecords.Session.Run

/-!
# What a call does

A call changes the queries and asks the service for something, and both are
decided before there is an answer. The answer only gives the call its result.
So the queries and the requests of a whole run are known from its calls.

* `Session.step_of_inquiry`, `Session.step_of_silent`: all that a call does, with a
  request and without;
* `Session.run_scripted`: what a scripted peer has received after a run, and what is
  left of its script;
* `Call.getElem?_foldl_effect`: a query after a run is the query after its own calls.
-/

namespace RemoteRecords

/-! ## One query -/

/-- Whether a call on a query asks the service for a page. -/
def QueryCall.asks : QueryCall → Bool
  | edit _ => false
  | execute _ | next => true

namespace Query

/-- The query after an edit; one that fails changes nothing. -/
def edited (q : Query) (e : Edit) : Query :=
  match q.edit e with
  | .ok r => r
  | .error _ => q

/-- The query after a call, whatever is answered. -/
def after (q : Query) : QueryCall → Query
  | .edit e => q.edited e
  | .execute columns => q.project columns
  | .next => q.advance

theorem edited_of_ok {q r : Query} {e : Edit} (h : q.edit e = .ok r) : q.edited e = r := by
  rw [edited, h]

theorem edited_of_error {q : Query} {e : Edit} {f : Fault} (h : q.edit e = .error f) :
    q.edited e = q := by
  rw [edited, h]

theorem edited_direct (q : Query) (ascending : Bool) :
    q.edited (.direct ascending) =
      { q with ordering := q.ordering.map fun o => { o with ascending } } := by
  obtain ⟨model, label, conditions, joins, ordering, grouping, offset, count, columns, paged⟩ := q
  cases ordering <;> rfl

/-- A query stays with its model. -/
theorem model_after (q : Query) (c : QueryCall) : (q.after c).model = q.model := by
  cases c with
  | edit e =>
    cases e with
    | add c =>
      cases c with
      | clause k => cases k <;> rfl
      | _ => rfl
    | direct ascending => rw [after, edited_direct]
    | _ => rfl
  | _ => rfl

/-- An edit fails only for want of an ordering. -/
theorem edit_eq_error {q : Query} {e : Edit} {f : Fault} (h : q.edit e = .error f) :
    f = .orderingRequired := by
  cases e with
  | direct ascending =>
    simp only [edit, direct] at h
    split at h <;> cases h
    rfl
  | _ => cases h

end Query

/-! ## One call -/

/-- What the service is asked for: the page at which a query stands, or something
to look up. -/
inductive Inquiry
  | page (q : Query)
  | look (l : Lookup)

namespace Inquiry

/-- The request of an inquiry. -/
def request (a : Account) : Inquiry → Request
  | page q => q.request a
  | look l => l.request a

/-- The reply in the body of an answer. -/
def decode : Inquiry → String → Except Fault Reply
  | page _ => fun body => (Page.read body).map .page
  | look l => l.decode

end Inquiry

namespace Call

/-- What a call asks the service for. Edits and new queries ask for nothing. -/
def inquiry? (queries : List Query) : Call → Option Inquiry
  | createQuery _ => none
  | look l => some (.look l)
  | query index c => if c.asks then queries[index]?.map fun q => .page (q.after c) else none

/-- The queries after a call, whatever is answered. -/
def effect (queries : List Query) : Call → List Query
  | createQuery model => queries ++ [.ofModel model]
  | look _ => queries
  | query index c => queries.modify index fun q => q.after c

/-- The result of a call that asks for nothing. -/
def verdict (queries : List Query) : Call → Except Fault Reply
  | query index (.edit e) =>
    match queries[index]? with
    | some q => (q.edit e).map fun _ => .done
    | none => .ok .done
  | _ => .ok .done

/-- What each call of a run asks the service for, if anything. -/
def inquiries (queries : List Query) : List Call → List (Option Inquiry)
  | [] => []
  | c :: rest => c.inquiry? queries :: inquiries (c.effect queries) rest

/-- What a run asks the service for, in the order of the calls. -/
def asked (queries : List Query) (calls : List Call) : List Inquiry :=
  (inquiries queries calls).reduceOption

theorem asked_cons (queries : List Query) (c : Call) (rest : List Call) :
    asked queries (c :: rest) = (c.inquiry? queries).toList ++ asked (c.effect queries) rest := by
  rw [asked, inquiries]
  cases c.inquiry? queries <;> rfl

theorem verdict_eq (queries : List Query) (c : Call) :
    c.verdict queries = .ok .done ∨ c.verdict queries = .error .orderingRequired := by
  unfold verdict
  split
  · next index e =>
    split
    · next q _ =>
      cases h : q.edit e with
      | ok r => exact .inl rfl
      | error f =>
        rw [Query.edit_eq_error h]
        exact .inr rfl
    · exact .inl rfl
  · exact .inl rfl

theorem modify_of_getElem? {queries : List Query} {index : Nat} {q : Query}
    (h : queries[index]? = some q) (f : Query → Query) :
    queries.modify index f = queries.set index (f q) := by
  rw [List.modify_eq_set_getElem?, h]
  rfl

end Call

namespace Session

variable {s : Session} {c : Call}

theorem run_cons_fst (s : Session) (c : Call) (rest : List Call) :
    (s.run (c :: rest)).1 = (s.step c).1 :: ((s.step c).2.run rest).1 := rfl

theorem run_cons_snd (s : Session) (c : Call) (rest : List Call) :
    (s.run (c :: rest)).2 = ((s.step c).2.run rest).2 := rfl

/-- All that a call does that asks the service for something. -/
theorem step_of_inquiry {i : Inquiry} (h : c.inquiry? s.queries = some i) :
    s.step c = ((s.channel.send (i.request s.account)).1.bind i.decode,
      ⟨s.account, (s.channel.send (i.request s.account)).2, c.effect s.queries⟩) := by
  cases c with
  | createQuery model => cases h
  | look l =>
    cases h
    simp only [step, exchange, Inquiry.request, Inquiry.decode, Call.effect]
  | query index c =>
    cases c with
    | edit e => cases h
    | execute columns =>
      obtain ⟨q, hq, rfl⟩ := Option.map_eq_some_iff.mp h
      simp only [step, hq, queryStep, setQuery, fetch, exchange, Inquiry.request, Inquiry.decode,
        Call.effect, Call.modify_of_getElem? hq, Query.after]
    | next =>
      obtain ⟨q, hq, rfl⟩ := Option.map_eq_some_iff.mp h
      simp only [step, hq, queryStep, setQuery, fetch, exchange, Inquiry.request, Inquiry.decode,
        Call.effect, Call.modify_of_getElem? hq, Query.after]

/-- All that a call does that asks the service for nothing. -/
theorem step_of_silent (h : c.inquiry? s.queries = none) :
    s.step c = (c.verdict s.queries, { s with queries := c.effect s.queries }) := by
  cases c with
  | createQuery model => rfl
  | look l => cases h
  | query index c =>
    cases hq : s.queries[index]? with
    | none =>
      have he : s.queries.modify index (fun q => q.after c) = s.queries :=
        List.modify_eq_self (List.getElem?_eq_none_iff.mp hq)
      cases c <;> simp only [step, Call.verdict, Call.effect, hq, he]
    | some q =>
      cases c with
      | edit e =>
        simp only [step, Call.verdict, Call.effect, Call.modify_of_getElem? hq, hq, queryStep]
        cases he : q.edit e with
        | ok r => simp only [Query.after, Query.edited_of_ok he, setQuery, Except.map]
        | error f =>
          obtain ⟨hi, hget⟩ := List.getElem?_eq_some_iff.mp hq
          have hs : s.queries.set index q = s.queries := by
            rw [← hget]
            exact List.set_getElem_self hi
          simp only [Query.after, Query.edited_of_error he, Except.map, hs]
      | execute columns => simp [Call.inquiry?, QueryCall.asks, hq] at h
      | next => simp [Call.inquiry?, QueryCall.asks, hq] at h

end Session

/-! ## One query among others -/

namespace Call

/-- The call, if it is one on the query with a number. -/
def on? (index : Nat) : Call → Option QueryCall
  | query i c => if i = index then some c else none
  | _ => none

/-- The calls of a run on the query with a number. -/
def own (index : Nat) (calls : List Call) : List QueryCall :=
  calls.filterMap (on? index)

theorem own_cons (index : Nat) (c : Call) (rest : List Call) :
    own index (c :: rest) = (c.on? index).toList ++ own index rest := by
  rw [own, List.filterMap_cons]
  cases c.on? index <;> rfl

variable {queries : List Query} {index : Nat} {q : Query}

/-- A call leaves all queries alone but its own. -/
theorem getElem?_effect (h : queries[index]? = some q) (c : Call) :
    (c.effect queries)[index]? = some ((c.on? index).elim q q.after) := by
  cases c with
  | createQuery model =>
    have hi := (List.getElem?_eq_some_iff.mp h).1
    rw [effect, List.getElem?_append_left hi, h]
    rfl
  | look l => exact h
  | query i c =>
    rw [effect, List.getElem?_modify, h, on?]
    by_cases hi : i = index
    · rw [if_pos hi]
      simp [hi]
    · rw [if_neg hi]
      simp [hi]

theorem getElem?_effect_query (h : queries[index]? = some q) (c : QueryCall) :
    ((query index c).effect queries)[index]? = some (q.after c) := by
  have hc : (query index c).on? index = some c := if_pos rfl
  rw [getElem?_effect h, hc]
  rfl

/-- What a call on a query asks for. -/
theorem inquiry?_query (h : queries[index]? = some q) (c : QueryCall) :
    (query index c).inquiry? queries = if c.asks then some (.page (q.after c)) else none := by
  rw [inquiry?, h]
  rfl

/-- A query after a run is the query after its own calls. -/
theorem getElem?_foldl_effect (h : queries[index]? = some q) (calls : List Call) :
    (calls.foldl effect queries)[index]? = some ((own index calls).foldl Query.after q) := by
  induction calls generalizing queries q with
  | nil => exact h
  | cons c rest ih =>
    rw [List.foldl_cons, ih (getElem?_effect h c), own_cons]
    cases c.on? index <;> rfl

end Call

/-! ## Scripts -/

namespace Channel

/-- What a script answers to the next request. -/
def nextAnswer (script : List (Except Fault String)) : Except Fault String :=
  script.headD (.error scriptEnded)

theorem send_scripted (script : List (Except Fault String)) (log : List Request) (r : Request) :
    send r ⟨.scripted script, log⟩ = (nextAnswer script, ⟨.scripted script.tail, log ++ [r]⟩) := by
  cases script <;> rfl

end Channel

namespace Session

/-- A session at a peer that answers from a script. -/
abbrev scripted (a : Account) (script : List (Except Fault String)) (log : List Request)
    (queries : List Query) : Session :=
  ⟨a, ⟨.scripted script, log⟩, queries⟩

variable {a : Account} {script : List (Except Fault String)} {log : List Request}
  {queries : List Query}

theorem step_scripted_of_inquiry {c : Call} {i : Inquiry} (h : c.inquiry? queries = some i) :
    (scripted a script log queries).step c = ((Channel.nextAnswer script).bind i.decode,
      scripted a script.tail (log ++ [i.request a]) (c.effect queries)) := by
  rw [step_of_inquiry h, Channel.send_scripted]

/-- A page is asked for by a query that has moved on already. -/
theorem step_page {index : Nat} {q : Query} (h : queries[index]? = some q) {c : QueryCall}
    (hc : c.asks = true) :
    (scripted a script log queries).step (.query index c) =
      ((Channel.nextAnswer script).bind fun body => (Page.read body).map .page,
        scripted a script.tail (log ++ [(q.after c).request a])
          ((Call.query index c).effect queries)) := by
  have hi : (Call.query index c).inquiry? queries = some (.page (q.after c)) := by
    rw [Call.inquiry?_query h, if_pos hc]
  exact step_scripted_of_inquiry hi

/-- What a scripted peer has received after a call, and what is left of its script. -/
theorem step_scripted (a : Account) (script : List (Except Fault String)) (log : List Request)
    (queries : List Query) (c : Call) :
    ((scripted a script log queries).step c).2 =
      scripted a (script.drop (c.inquiry? queries).toList.length)
        (log ++ (c.inquiry? queries).toList.map (Inquiry.request a)) (c.effect queries) := by
  cases h : c.inquiry? queries with
  | none =>
    rw [step_of_silent h, Option.toList_none, List.map_nil, List.append_nil]
    rfl
  | some i =>
    rw [step_scripted_of_inquiry h, ← List.drop_one]
    rfl

/-- What a scripted peer has received after a run, and what is left of its script. -/
theorem run_scripted (a : Account) (script : List (Except Fault String)) (log : List Request)
    (queries : List Query) (calls : List Call) :
    ((scripted a script log queries).run calls).2 =
      scripted a (script.drop (Call.asked queries calls).length)
        (log ++ (Call.asked queries calls).map (Inquiry.request a))
        (calls.foldl Call.effect queries) := by
  induction calls generalizing script log queries with
  | nil => simp [run, Call.asked, Call.inquiries]
  | cons c rest ih =>
    rw [run_cons_snd, step_scripted, ih, List.drop_drop, List.append_assoc, ← List.map_append,
      ← List.length_append, Call.asked_cons, List.foldl_cons]

end Session

end RemoteRecords
