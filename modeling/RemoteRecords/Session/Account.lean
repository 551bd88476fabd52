import RemoteRecords.Record.Metadata
import RemoteRecords.Record.Page
import RemoteRecords.Service.Envelope
import RemoteRecords.Service.Request
import RemoteRecords.Settings.Address

/-!
# Accounts and what can be looked up

An account is a set of credentials and the settings they are used with. Single
records, models and the fields of a model are looked up with one GET each; how
the answer is decoded depends on what was asked. Metadata comes with a status of
its own, a record does not.

* `Lookup.request`: the request of a lookup;
* `Lookup.decode`: the reply in a body; nothing is returned in part.
-/

namespace RemoteRecords

/-- Credentials and settings. -/
structure Account where
  credentials : Credentials
  settings : Settings
deriving DecidableEq, Repr

/-- What can be looked up at the service. -/
inductive Lookup
  | record (id : Int64) (owner : ModelId)
  | model (id : ModelId)
  | models
  | fields (owner : ModelId)
deriving DecidableEq, Repr

/-- What a call gives back. -/
inductive Reply
  | done
  | page (p : Page)
  | record (r : Record)
  | model (m : Model)
  | models (ms : List Model)
  | fields (fs : List Field)

/-- A slot that is filled with an integer. -/
def Slot.ofInt (name : String) (n : Int64) : Slot :=
  (name, Text.decimalInt n.toInt)

/-- The address of an endpoint for an account. -/
def Account.address (a : Account) (e : Endpoint) (slots : List Slot) : String :=
  a.settings.address e a.credentials slots

namespace Lookup

/-- The endpoint that answers a lookup. -/
def endpoint : Lookup → Endpoint
  | record .. => .recordInfo
  | model _ => .modelInfo
  | models => .models
  | fields _ => .fields

/-- What the address of a lookup is filled with. -/
def slots : Lookup → List Slot
  | record id owner => [.ofInt "mid" owner, .ofInt "rid" id]
  | model id => [.ofInt "mid" id]
  | models => []
  | fields owner => [.ofInt "mid" owner]

/-- The request of a lookup. -/
def request (l : Lookup) (a : Account) : Request :=
  .bare .get (a.address l.endpoint l.slots)

/-- The record in an answer. -/
def readRecord (answer : Json) : Except Fault Record :=
  (Page.requiredAs Json.members? "record" answer).map Record.ofSingle

/-- One model of a list, which has to say its number. -/
def readListed (item : Json) : Except Fault Model :=
  match Metadata.integerMember "id" item with
  | some id => .ok (Model.ofJson id item)
  | none => .error (.missingField "id")

/-- The models in an answer. -/
def readModels (answer : Json) : Except Fault (List Model) := do
  let items ← Page.requiredAs Json.items? "models" answer
  items.mapM readListed

/-- The fields in an answer, in the order of their names there. -/
def readFields (model : ModelId) (answer : Json) : Except Fault (List Field) := do
  let members ← Page.requiredAs Json.members? "fields" answer
  return members.map fun m => Field.ofJson model m.2

/-- The reply in a decoded answer. -/
def reply (answer : Json) : Lookup → Except Fault Reply
  | record .. => (readRecord answer).map .record
  | model id => do
    Envelope.check answer
    return .model (Model.ofJson id answer)
  | models => do
    Envelope.check answer
    .models <$> readModels answer
  | fields owner => do
    Envelope.check answer
    .fields <$> readFields owner answer

/-- The reply in the body of an answer. -/
def decode (l : Lookup) (body : String) : Except Fault Reply :=
  match Json.read body.toList with
  | some answer => l.reply answer
  | none => .error .malformed

end Lookup

/-! ## Inspection -/

/-- An account, as it is shown for inspection. -/
def Text.Inspect.account (a : Account) : List Char :=
  openRecord "RecordProvider" [field "credentials" (credentials a.credentials),
    field "settings" (settings a.settings)]

end RemoteRecords
