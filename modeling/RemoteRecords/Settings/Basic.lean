import RemoteRecords.Text.Inspect

/-!
# Settings and credentials

Where the service is, which version of its interface is spoken, how long to wait
for a connection, and a template for the path of each endpoint.

* `Templates.get_set`: a template that is set is the one in force, and no other
  is touched.
-/

namespace RemoteRecords

/-- The keys of an account: a secret key and the public name of the client. -/
structure Credentials where
  csk : String
  aci : String
deriving DecidableEq, Repr

/-- An operation of the service that has an address of its own. -/
inductive Endpoint
  | records
  | recordsByProjection
  | recordInfo
  | modelInfo
  | models
  | fields
deriving DecidableEq, Repr

namespace Endpoint

/-- The name of the endpoint's template in settings. -/
def key : Endpoint → String
  | records => "get_records"
  | recordsByProjection => "get_records_by_projection"
  | recordInfo => "get_record_info"
  | modelInfo => "get_model_info"
  | models => "get_models"
  | fields => "get_fields"

/-- All endpoints, in the order of their templates. -/
def all : List Endpoint :=
  [records, recordsByProjection, recordInfo, modelInfo, models, fields]

/-- The endpoint with a template of the given name. -/
def ofKey? (key : String) : Option Endpoint :=
  all.find? fun e => e.key == key

theorem mem_all (e : Endpoint) : e ∈ all := by
  cases e <;> decide

end Endpoint

/-- A template for the path of each endpoint. A name between braces is a
placeholder. -/
structure Templates where
  records : String
  recordsByProjection : String
  recordInfo : String
  modelInfo : String
  models : String
  fields : String
deriving DecidableEq, Repr

namespace Templates

/-- The template of an endpoint. -/
def get (t : Templates) : Endpoint → String
  | .records => t.records
  | .recordsByProjection => t.recordsByProjection
  | .recordInfo => t.recordInfo
  | .modelInfo => t.modelInfo
  | .models => t.models
  | .fields => t.fields

/-- Sets the template of an endpoint. -/
def set (t : Templates) (e : Endpoint) (template : String) : Templates :=
  match e with
  | .records => { t with records := template }
  | .recordsByProjection => { t with recordsByProjection := template }
  | .recordInfo => { t with recordInfo := template }
  | .modelInfo => { t with modelInfo := template }
  | .models => { t with models := template }
  | .fields => { t with fields := template }

/-- The templates of the service. -/
def standard : Templates where
  records :=
    "/api_models/\x7bcsk\x7d/\x7baci\x7d/get_records/\x7bmid\x7d/\x7bcount\x7d/\x7boffset\x7d/"
  recordsByProjection :=
    "/api_models/\x7bcsk\x7d/\x7baci\x7d/get_records_by_projection/\x7bmid\x7d/\x7bcount\x7d/\x7boffset\x7d/"
  recordInfo := "/api_records/\x7bcsk\x7d/\x7baci\x7d/get_record_info/\x7bmid\x7d/\x7brid\x7d"
  modelInfo := "/api_models/\x7bcsk\x7d/\x7baci\x7d/get_model_info/\x7bmid\x7d"
  models := "/api_models/\x7bcsk\x7d/\x7baci\x7d/get_models"
  fields := "/api_models/\x7bcsk\x7d/\x7baci\x7d/get_fields/\x7bmid\x7d"

@[simp]
theorem get_set (t : Templates) (e f : Endpoint) (template : String) :
    (t.set e template).get f = if f = e then template else t.get f := by
  cases e <;> cases f <;> rfl

end Templates

/-- How the service is reached. -/
structure Settings where
  url : String
  version : String
  /-- How many seconds to wait for a connection. -/
  timeout : UInt64
  templates : Templates
deriving DecidableEq, Repr

/-- The settings that hold unless others are given. -/
def Settings.standard : Settings where
  url := "http://api.dynamicloud.org"
  version := "1.0.4"
  timeout := 10
  templates := .standard

/-! ## Inspection -/

namespace Text.Inspect

/-- Credentials without the secret key. -/
def credentials (c : Credentials) : List Char :=
  record "Credentials" [field "csk" (text "***"), field "aci" (text c.aci)]

/-- All templates under their names. -/
def templates (t : Templates) : List Char :=
  record "Endpoints" (Endpoint.all.map fun e => field e.key (text (t.get e)))

/-- All settings under their names. -/
def settings (s : Settings) : List Char :=
  record "ClientSettings" [field "url" (text s.url), field "version" (text s.version),
    field "connect_timeout_secs" (Nat.toDigits 10 s.timeout.toNat),
    field "endpoints" (templates s.templates)]

end Text.Inspect

end RemoteRecords
