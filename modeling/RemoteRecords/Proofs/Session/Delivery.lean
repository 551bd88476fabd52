import RemoteRecords.Proofs.Session.Call

/-!
# Answers delivered in turn

A scripted peer answers whatever it is asked, so it is up to the session that each
answer reaches the call that it was meant for. Calls that ask for something and
answers correspond one to one: the peer receives one request for each such call, and
the call gets the answer whose turn it is, decoded in its own way. Behind the end of
the script a call still sends its request, and fails.

* `Session.repliesTo`: the results of the calls that ask for something;
* `Session.repliesTo_run`: they are the answers in their order, each decoded;
* `Session.run_answered_in_turn`: the requests, the answers and what is left of the
  script after a run.
-/

namespace RemoteRecords.Session

/-- The results of the calls that ask for something, out of the results of all. -/
def repliesTo (inquiries : List (Option Inquiry)) (results : List (Except Fault Reply)) :
    List (Except Fault Reply) :=
  (inquiries.zip results).filterMap fun p => p.1.map fun _ => p.2

theorem length_run (s : Session) (calls : List Call) : (s.run calls).1.length = calls.length := by
  induction calls generalizing s with
  | nil => rfl
  | cons c rest ih => rw [run_cons_fst, List.length_cons, ih, List.length_cons]

theorem getD_nextAnswer (script : List (Except Fault String)) :
    Channel.nextAnswer script = script.getD 0 (.error Channel.scriptEnded) := by
  cases script <;> rfl

theorem getD_tail (script : List (Except Fault String)) (n : Nat) :
    script.tail.getD n (.error Channel.scriptEnded) =
      script.getD (n + 1) (.error Channel.scriptEnded) := by
  cases script <;> rfl

variable {a : Account} {script : List (Except Fault String)} {log : List Request}
  {queries : List Query}

/-- The answers are given in their order, each to the call whose turn it is. -/
theorem repliesTo_run (calls : List Call) :
    repliesTo (Call.inquiries queries calls) ((scripted a script log queries).run calls).1 =
      (Call.asked queries calls).mapIdx fun n i =>
        (script.getD n (.error Channel.scriptEnded)).bind i.decode := by
  induction calls generalizing script log queries with
  | nil => rfl
  | cons c rest ih =>
    rw [Call.inquiries, run_cons_fst, Call.asked_cons]
    cases h : c.inquiry? queries with
    | none =>
      rw [step_of_silent h]
      exact ih
    | some i =>
      rw [step_scripted_of_inquiry h, Option.toList_some, List.singleton_append, List.mapIdx_cons,
        ← getD_nextAnswer]
      simp only [← getD_tail]
      exact congrArg _ ih

/-- No answer reaches a call that asks for nothing. -/
theorem silent_run (calls : List Call) :
    ∀ p ∈ (Call.inquiries queries calls).zip ((scripted a script log queries).run calls).1,
      p.1 = none → p.2 = .ok .done ∨ p.2 = .error .orderingRequired := by
  induction calls generalizing script log queries with
  | nil => exact fun p hp => absurd hp List.not_mem_nil
  | cons c rest ih =>
    rw [Call.inquiries, run_cons_fst, List.zip_cons_cons]
    intro p hp hn
    rcases List.mem_cons.mp hp with rfl | hp
    · rw [step_of_silent hn]
      exact Call.verdict_eq _ _
    · rw [step_scripted] at hp
      exact ih p hp hn

/-- Requests and answers correspond one to one over a whole run. The peer receives a
request for each call that asks for something, the n-th of these calls gets what it
makes of the n-th answer, and the answers behind are left. -/
theorem run_answered_in_turn (a : Account) (script : List (Except Fault String))
    (calls : List Call) :
    ((start a (.scripted script)).run calls).1.length = calls.length ∧
      ((start a (.scripted script)).run calls).2.channel.log =
        (Call.asked [] calls).map (Inquiry.request a) ∧
      ((start a (.scripted script)).run calls).2.channel.peer =
        .scripted (script.drop (Call.asked [] calls).length) ∧
      repliesTo (Call.inquiries [] calls) ((start a (.scripted script)).run calls).1 =
        (Call.asked [] calls).mapIdx (fun n i =>
          (script.getD n (.error (.refused "no scripted response left"))).bind i.decode) ∧
      ∀ p ∈ (Call.inquiries [] calls).zip ((start a (.scripted script)).run calls).1,
        p.1 = none → p.2 = .ok .done ∨ p.2 = .error .orderingRequired := by
  have hs : start a (.scripted script) = scripted a script [] [] := rfl
  refine ⟨length_run _ _, ?_, ?_, repliesTo_run calls, silent_run calls⟩
  · rw [hs, run_scripted, List.nil_append]
  · rw [hs, run_scripted]

end RemoteRecords.Session
