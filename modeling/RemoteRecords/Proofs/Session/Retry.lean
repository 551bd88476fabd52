import Mathlib.Logic.Function.Iterate
import RemoteRecords.Proofs.Session.Call
import RemoteRecords.Proofs.Session.Query

/-!
# Pages after failures

A query moves on before its request is sent, so after a failure it stands at the page
that was not got. Run again with the columns that it holds, it asks for the same page
in the same words. A walk that does so after each failure gets the pages of a walk
without failures: none is skipped and none is asked for twice, however often and
wherever calls fail.

* `Session.retry`: the query is run again with the columns that it holds;
* `Session.log_iterate_retry`: the request is the same each time;
* `Query.request_iterate_advance`: the request for the page at some distance;
* `Session.pagesRetrying_eq`: the pages of a walk with retries;
* `Session.retry_resumes`: both, for each query.
-/

namespace RemoteRecords

/-! ## Pages ahead -/

namespace Query

/-- Moving on changes nothing but where a query stands. -/
theorem exists_iterate_advance (q : Query) (k : Nat) :
    ∃ offset paged, advance^[k] q = { q with offset, paged } := by
  induction k with
  | zero => exact ⟨q.offset, q.paged, rfl⟩
  | succ k ih =>
    obtain ⟨offset, paged, hk⟩ := ih
    rw [Function.iterate_succ_apply', hk]
    exact ⟨_, _, rfl⟩

theorem effectiveCount_iterate_advance (q : Query) (k : Nat) :
    (advance^[k] q).effectiveCount = q.effectiveCount := by
  obtain ⟨offset, paged, hk⟩ := q.exists_iterate_advance k
  rw [hk]
  rfl

/-- Pages follow each other at the distance of the page size, as far as there are
offsets. -/
theorem toInt_currentOffset_iterate_advance (q : Query) (k : Nat) :
    (advance^[k] q).currentOffset.toInt =
      min (q.currentOffset.toInt + k * q.effectiveCount.toInt) Int64.maxValue.toInt := by
  induction k with
  | zero =>
    have := q.currentOffset.toInt_le
    rw [Function.iterate_zero_apply]
    omega
  | succ k ih =>
    have hc := q.toInt_effectiveCount_pos
    rw [Function.iterate_succ_apply', toInt_currentOffset_advance, ih,
      effectiveCount_iterate_advance, Int.natCast_succ, Int.add_mul]
    omega

/-- The request for the page at some distance from where a query stands. -/
theorem request_iterate_advance (a : Account) (q : Query) (k : Nat) :
    (advance^[k] q).request a =
      ⟨.post, a.address q.endpoint [.ofInt "mid" q.model, .ofInt "count" q.effectiveCount,
        ("offset", Text.decimalInt
          (min (q.currentOffset.toInt + k * q.effectiveCount.toInt) Int64.maxValue.toInt))],
        [("criteria", q.payload)]⟩ := by
  have ho := q.toInt_currentOffset_iterate_advance k
  obtain ⟨offset, paged, hk⟩ := q.exists_iterate_advance k
  rw [← ho, hk]
  rfl

end Query

namespace Session

/-! ## Retries -/

/-- The columns that the query with a number holds. -/
def columnsOf (s : Session) (index : Nat) : Option (List String) :=
  s.queries[index]?.bind Query.columns

/-- The call that runs a query again with the columns that it holds. -/
def retryCall (s : Session) (index : Nat) : Call :=
  .query index (.execute (s.columnsOf index))

/-- The session after a query was run again. -/
def retry (index : Nat) (s : Session) : Session :=
  (s.step (s.retryCall index)).2

variable {a : Account} {script : List (Except Fault String)} {log : List Request}
  {queries : List Query} {index : Nat} {q : Query}

theorem retryCall_scripted (h : queries[index]? = some q) :
    (scripted a script log queries).retryCall index = .query index (.execute q.columns) := by
  rw [retryCall, columnsOf, h]
  rfl

/-- The request is the same each time that a query is run again. -/
theorem log_iterate_retry (h : queries[index]? = some q) (n : Nat) :
    ((retry index)^[n] (scripted a script log queries)).channel.log =
      log ++ List.replicate n (q.request a) := by
  induction n generalizing script log queries with
  | zero => exact (List.append_nil log).symm
  | succ n ih =>
    have hq : q.after (.execute q.columns) = q := rfl
    have he := Call.getElem?_effect_query h (.execute q.columns)
    rw [hq] at he
    rw [Function.iterate_succ_apply, retry, retryCall_scripted h, step_page h rfl, hq, ih he,
      List.append_assoc, List.replicate_succ, List.singleton_append]

/-! ## Walks -/

/-- The pages that a walk with retries gets with its next calls, each with what is
received during the call that gets it. The walk goes on with the next page after a
success and with a retry after a failure. -/
def pagesRetrying (index : Nat) : Nat → Session → Call → List (Page × List Request)
  | 0, _, _ => []
  | n + 1, s, c =>
    let next := (s.step c).2
    match (s.step c).1 with
    | .ok (.page p) =>
      (p, next.channel.log.drop s.channel.log.length) ::
        pagesRetrying index n next (.query index .next)
    | _ => pagesRetrying index n next (next.retryCall index)

/-- The page in an answer, if there is one. -/
def pageIn? (answer : Except Fault String) : Option Page :=
  (answer.bind Page.read).toOption

theorem bind_map_page (answer : Except Fault String) :
    (answer.bind fun body => (Page.read body).map Reply.page) =
      (answer.bind Page.read).map Reply.page := by
  cases answer <;> rfl

/-- A walk with retries gets the pages that the answers hold, in their order, and asks
for each at the distance of as many pages as there were before it. -/
theorem pagesRetrying_eq (h : queries[index]? = some q) {c : QueryCall} (hc : c.asks = true)
    (n : Nat) :
    pagesRetrying index n (scripted a script log queries) (.query index c) =
      ((script.take n).filterMap pageIn?).mapIdx fun k p =>
        (p, [(Query.advance^[k] (q.after c)).request a]) := by
  induction n generalizing script log queries q c with
  | zero => rfl
  | succ n ih =>
    have he := Call.getElem?_effect_query h c
    have hretry : (q.after c).after (.execute (q.after c).columns) = q.after c := rfl
    rw [pagesRetrying, step_page h hc]
    cases script with
    | nil =>
      simp only [Channel.nextAnswer, List.headD_nil, Except.bind, retryCall_scripted he]
      rw [ih he rfl, List.tail_nil, List.take_nil, List.take_nil]
      rfl
    | cons answer rest =>
      rw [List.take_succ_cons, List.filterMap_cons, pageIn?, Channel.nextAnswer, List.headD_cons,
        List.tail_cons, bind_map_page]
      cases answer.bind Page.read with
      | error f =>
        simp only [Except.map, Except.toOption, retryCall_scripted he]
        rw [ih he rfl, hretry]
      | ok p =>
        simp only [Except.map, Except.toOption, List.drop_left]
        rw [ih he rfl, List.mapIdx_cons]
        rfl

/-- After a failure a query that is run again asks for the same page in the same words,
and so a walk with retries gets page after page, whatever fails on the way. -/
theorem retry_resumes (a : Account) (script : List (Except Fault String)) (log : List Request)
    {queries : List Query} {index : Nat} {q : Query} (h : queries[index]? = some q) :
    (∀ c : QueryCall, c.asks = true → ∀ n,
      ((retry index)^[n]
        ((scripted a script log queries).step (.query index c)).2).channel.log =
          log ++ List.replicate (n + 1) ((q.after c).request a)) ∧
      ∀ columns n,
        pagesRetrying index n (scripted a script log queries) (.query index (.execute columns)) =
          ((script.take n).filterMap pageIn?).mapIdx fun k p =>
            (p, [⟨.post, a.address (q.project columns).endpoint
              [.ofInt "mid" q.model, .ofInt "count" q.effectiveCount, ("offset", Text.decimalInt
                (min (q.currentOffset.toInt + k * q.effectiveCount.toInt)
                  Int64.maxValue.toInt))],
              [("criteria", (q.project columns).payload)]⟩]) := by
  refine ⟨?_, ?_⟩
  · intro c hc n
    rw [step_page h hc, log_iterate_retry (Call.getElem?_effect_query h c), List.append_assoc,
      List.replicate_succ, List.singleton_append]
  · intro columns n
    rw [pagesRetrying_eq h rfl]
    simp only [Query.request_iterate_advance]
    rfl

/-- The body of a page with one record of nine. -/
def samplePage : String :=
  Page.body 9 [.object []]

/-- Two failures before the first page, and one before the second. -/
def sampleScript : List (Except Fault String) := [
  .error .unreachable, .ok "", .ok samplePage, .error (.refused "busy"), .ok samplePage]

/-- A query of two records a page, one before the last offset. -/
def sampleLate : Query :=
  { Query.ofModel 7 with offset := 9223372036854775806, count := 2 }

/-- An account with the standard settings. -/
def sampleAccount : Account :=
  ⟨⟨"key", "client"⟩, .standard⟩

theorem retry_resumes_sample :
    [sampleLate][0]? = some sampleLate ∧ QueryCall.next.asks = true ∧
      ((retry 0)^[2] ((scripted sampleAccount sampleScript [] [sampleLate]).step
        (.query 0 .next)).2).channel.log =
          [] ++ List.replicate 3 ((sampleLate.after .next).request sampleAccount) ∧
      (pagesRetrying 0 5 (scripted sampleAccount sampleScript [] [sampleLate])
        (.query 0 (.execute none))).map (fun p => p.2.map Request.url) = [
          ["http://api.dynamicloud.org/api_models/key/client/get_records/7/2/9223372036854775806/"],
          ["http://api.dynamicloud.org/api_models/key/client/get_records/7/2/9223372036854775807/"]] := by
  have h : [sampleLate][0]? = some sampleLate := rfl
  obtain ⟨hretry, hpages⟩ := retry_resumes sampleAccount sampleScript [] h
  refine ⟨h, rfl, hretry .next rfl 2, ?_⟩
  rw [hpages]
  decide +kernel

end Session

end RemoteRecords
