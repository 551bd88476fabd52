/-!
# Faults

What can go wrong between a caller and the service, by cause, and the text that
describes each cause. A body that is no JSON, a settings document that cannot be
read, and a service that cannot be reached are described by no fixed text. In
which way a service could not be reached is left out.

* `message?_eq_none_iff`: the causes without a fixed text.
-/

namespace RemoteRecords

/-- Why a call failed. -/
inductive Fault
  /-- A caller handed in something the service cannot accept. -/
  | invalidArgument (reason : String)
  /-- A call came before one that it depends on. -/
  | illegalState (reason : String)
  /-- The service refused, or there was no answer. -/
  | refused (reason : String)
  /-- An answer lacks a member. -/
  | missingField (name : String)
  /-- The service could not be reached, in whichever way the connection failed. -/
  | unreachable
  /-- A body is no JSON. -/
  | malformed
  /-- A setting has no usable value. -/
  | settings (reason : String)
  /-- The settings document cannot be read. -/
  | document
deriving DecidableEq, Repr

namespace Fault

/-- The text that describes a fault. -/
def message? : Fault → Option String
  | invalidArgument reason => some ("Invalid argument: " ++ reason)
  | illegalState reason => some reason
  | refused reason => some reason
  | missingField name => some ("Missing field in response: " ++ name)
  | settings reason => some ("Settings error: " ++ reason)
  | unreachable | malformed | document => none

/-- Whether the fault came from the service or the way to it. -/
def isFromService : Fault → Bool
  | refused _ | unreachable => true
  | _ => false

/-- Whether the service took too long. Only the connection could tell, and what it tells
about a service that could not be reached is left out here, so that an answer that took
too long is not told apart from any other that did not come. -/
def isTimeout (_ : Fault) : Bool :=
  false

/-- What is said when the service gives no reason. -/
def fatalText : String :=
  "Fatal error executing request"

/-- A direction was asked for before any ordering. -/
def orderingRequired : Fault :=
  illegalState "You must call order_by method before call this method"

theorem message?_eq_none_iff (f : Fault) :
    f.message? = none ↔ f = unreachable ∨ f = malformed ∨ f = document := by
  cases f <;> simp [message?]

end Fault

end RemoteRecords
