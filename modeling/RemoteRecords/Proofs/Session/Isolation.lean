import RemoteRecords.Proofs.Session.Call

/-!
# Queries that share a peer

Any number of queries and lookups may go on at one peer, call by call and in any
order. They share its script, so the answer to a call depends on all calls before
it, but what a query sends does not: it is decided by the calls on that query.

* `Session.requestsOf`: the requests that are received during the calls on a query;
* `Session.requestsOf_scripted`: they are what the query sends by itself;
* `Session.requestsOf_eq_log_alone`: so the query sends the same when its calls are
  the only ones, whatever is answered.
-/

namespace RemoteRecords

/-- What a query sends in the course of calls on it. -/
def Query.requests (a : Account) (q : Query) : List QueryCall → List Request
  | [] => []
  | c :: rest => (if c.asks then [(q.after c).request a] else []) ++ (q.after c).requests a rest

namespace Call

/-- How many queries are created in a run. -/
def created (calls : List Call) : Nat :=
  calls.countP fun c => c matches createQuery _

theorem eq_query_of_on? {index : Nat} {c : Call} {k : QueryCall} (h : c.on? index = some k) :
    c = query index k := by
  cases c with
  | query i c =>
    rw [on?] at h
    split at h
    · next hi =>
      cases h
      rw [hi]
    · cases h
  | _ => cases h

theorem created_cons (c : Call) (rest : List Call) :
    created (c :: rest) = created [c] + created rest := by
  rw [← List.singleton_append, created, List.countP_append]
  rfl

theorem length_effect (queries : List Query) (c : Call) :
    (c.effect queries).length = queries.length + created [c] := by
  cases c with
  | createQuery model => exact List.length_append
  | look l => rfl
  | query index k => exact List.length_modify ..

theorem length_foldl_effect (queries : List Query) (calls : List Call) :
    (calls.foldl effect queries).length = queries.length + created calls := by
  induction calls generalizing queries with
  | nil => rfl
  | cons c rest ih => rw [List.foldl_cons, ih, length_effect, created_cons c rest, Nat.add_assoc]

end Call

namespace Session

/-- The requests that are received during the calls on the query with a number. -/
def requestsOf (index : Nat) (s : Session) : List Call → List Request
  | [] => []
  | c :: rest =>
    (if (c.on? index).isSome then (s.step c).2.channel.log.drop s.channel.log.length else []) ++
      (s.step c).2.requestsOf index rest

theorem run_append (s : Session) (front back : List Call) :
    (s.run (front ++ back)).2 = ((s.run front).2.run back).2 := by
  induction front generalizing s with
  | nil => rfl
  | cons c rest ih => exact ih _

theorem requestsOf_append (index : Nat) (s : Session) (front back : List Call) :
    s.requestsOf index (front ++ back) =
      s.requestsOf index front ++ (s.run front).2.requestsOf index back := by
  induction front generalizing s with
  | nil => rfl
  | cons c rest ih => rw [List.cons_append, requestsOf, ih, ← List.append_assoc]; rfl

variable {a : Account} {script : List (Except Fault String)} {log : List Request}
  {queries : List Query} {index : Nat}

theorem requestsOf_scripted_cons (c : Call) (rest : List Call) :
    (scripted a script log queries).requestsOf index (c :: rest) =
      (if (c.on? index).isSome then (c.inquiry? queries).toList.map (Inquiry.request a) else []) ++
        (scripted a (script.drop (c.inquiry? queries).toList.length)
          (log ++ (c.inquiry? queries).toList.map (Inquiry.request a))
          (c.effect queries)).requestsOf index rest := by
  rw [requestsOf, step_scripted, List.drop_left]

/-- What is received during the calls on a query is what the query sends by itself. -/
theorem requestsOf_scripted {q : Query} (h : queries[index]? = some q) (calls : List Call) :
    (scripted a script log queries).requestsOf index calls =
      q.requests a (Call.own index calls) := by
  induction calls generalizing script log queries q with
  | nil => rfl
  | cons c rest ih =>
    rw [requestsOf_scripted_cons, ih (Call.getElem?_effect h c), Call.own_cons]
    cases hc : c.on? index with
    | none => rfl
    | some k =>
      rw [Call.eq_query_of_on? hc, Call.inquiry?_query h, Option.toList_some,
        List.singleton_append, Query.requests]
      cases k.asks <;> rfl

/-- No calls are made on a query that is not there yet. -/
theorem requestsOf_of_absent (calls : List Call)
    (h : queries.length + Call.created calls ≤ index) :
    (scripted a script log queries).requestsOf index calls = [] := by
  induction calls generalizing script log queries with
  | nil => rfl
  | cons c rest ih =>
    have hl := Call.length_effect queries c
    rw [Call.created_cons] at h
    rw [requestsOf_scripted_cons, ih (by omega), List.append_nil]
    cases hc : c.on? index with
    | none => rfl
    | some k =>
      have hq : queries[index]? = none := List.getElem?_eq_none (by omega)
      rw [Call.eq_query_of_on? hc, Call.inquiry?, hq]
      cases k.asks <;> rfl

/-- A run of calls on one query is received as what the query sends by itself. -/
theorem log_run_map_query {q : Query} (h : queries[index]? = some q) (calls : List QueryCall) :
    ((scripted a script log queries).run (calls.map (.query index))).2.channel.log =
      log ++ q.requests a calls := by
  induction calls generalizing script log queries q with
  | nil => exact (List.append_nil log).symm
  | cons k rest ih =>
    rw [List.map_cons, run_cons_snd, step_scripted, ih (Call.getElem?_effect_query h k),
      Call.inquiry?_query h, Query.requests, List.append_assoc]
    cases k.asks <;> rfl

/-- What a query sends depends on no other call and on no answer: the calls on it send
the same when they are the only ones, at a peer with any other script. The query is
the one that is created after `before`. -/
theorem requestsOf_eq_log_alone (a : Account) (script script' : List (Except Fault String))
    (before after : List Call) (model : ModelId) :
    (start a (.scripted script)).requestsOf (Call.created before)
        (before ++ .createQuery model :: after) =
      ((start a (.scripted script')).run (.createQuery model ::
        (Call.own (Call.created before) after).map (.query 0))).2.channel.log := by
  have hstart (script) : start a (.scripted script) = scripted a script [] [] := rfl
  have hlength := Call.length_foldl_effect [] before
  rw [List.length_nil, Nat.zero_add] at hlength
  have hbefore : (scripted a script [] []).requestsOf (Call.created before) before = [] :=
    requestsOf_of_absent before (Nat.le_of_eq (Nat.zero_add _))
  -- Behind `before` the new query gets the number that stands for it in `after`.
  have hnew : (Call.effect (before.foldl Call.effect [])
      (.createQuery model))[Call.created before]? = some (.ofModel model) := by
    rw [Call.effect, ← hlength, List.getElem?_concat_length]
  have halone : (Call.effect [] (.createQuery model))[0]? = some (.ofModel model) := rfl
  rw [hstart, hstart, requestsOf_append, hbefore, run_scripted, requestsOf_scripted_cons,
    requestsOf_scripted hnew, run_cons_snd, step_scripted, log_run_map_query halone]
  rfl

end Session

end RemoteRecords
