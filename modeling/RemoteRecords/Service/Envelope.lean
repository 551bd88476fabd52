import RemoteRecords.Json.Value
import RemoteRecords.Service.Fault

/-!
# Answers and their status

An answer succeeds by its HTTP status, and for metadata also by the status that
it holds itself. A failed answer is described by its own message if that is a
string, else by a general text.

* `check_eq_ok_iff`: metadata is accepted exactly with the integer status 200;
* `accept_eq_ok_iff`: a body is handed on as it is, exactly with HTTP status 200.
-/

namespace RemoteRecords.Envelope

/-- The message of an answer. -/
def reason (answer : Json) : String :=
  ((answer.get? "message").bind Json.text?).getD Fault.fatalText

/-- Accepts an answer that says of itself that it succeeded. -/
def check (answer : Json) : Except Fault Unit :=
  if (answer.get? "status").bind Json.int64? = some 200 then .ok ()
  else .error (.refused (reason answer))

/-- The message in the body of a failed answer, which need not be JSON. -/
def reasonOfBody (body : String) : String :=
  ((Json.read body.toList).map reason).getD Fault.fatalText

/-- Accepts the body of an answer with HTTP status 200. -/
def accept (status : Nat) (body : String) : Except Fault String :=
  if status = 200 then .ok body else .error (.refused (reasonOfBody body))

theorem check_eq_ok_iff (answer : Json) :
    check answer = .ok () ↔ (answer.get? "status").bind Json.int64? = some 200 := by
  unfold check
  split <;> simp_all

theorem accept_eq_ok_iff {status : Nat} {body accepted : String} :
    accept status body = .ok accepted ↔ status = 200 ∧ accepted = body := by
  unfold accept
  split <;> simp_all [eq_comm]

end RemoteRecords.Envelope
