import RemoteRecords.Record.Page
import RemoteRecords.Service.Request
import RemoteRecords.Text.Blank
import RemoteRecords.Text.Integer
import RemoteRecords.Text.Split

/-!
# Channels

Who answers requests, and the requests that were received. One peer answers from
a script, whatever it is asked. Another holds records and answers with the page
that the address asks for. A third cannot be reached.

* `pageBounds?`: the count and the offset at the end of an address;
* `send_log_scripted`: a scripted peer receives every request;
* `send_log_stored`: a peer with records receives those that ask for a page.
-/

namespace RemoteRecords

/-- Who answers requests. -/
inductive Peer
  /-- Answers in turn, whatever is asked. -/
  | scripted (answers : List (Except Fault String))
  /-- Answers with pages of these records. -/
  | stored (records : List Json)
  /-- Cannot be reached. -/
  | unreachable

/-- A peer and the requests it has received, oldest first. -/
structure Channel where
  peer : Peer
  log : List Request

namespace Channel

/-- The fault of a script that has come to its end. -/
def scriptEnded : Fault :=
  .refused "no scripted response left"

/-- The fault of an address that asks for no page. -/
def noPageFault (url : String) : Fault :=
  .refused ("not a records url: " ++ url)

/-- The number that a segment of an address holds. -/
def segmentNumber? (segment : List Char) : Option Nat :=
  (Text.readUInt64 segment).toOption.map UInt64.toNat

/-- The count and the offset at the end of an address: its last two segments. -/
def pageBounds? (url : String) : Option (Nat × Nat) :=
  match (Text.split '/' (Text.dropEndWhile (· == '/') url.toList)).reverse with
  | offset :: count :: _ => do return (← segmentNumber? count, ← segmentNumber? offset)
  | _ => none

/-- The body with the records that an address asks for. -/
def storedPage (records : List Json) (count offset : Nat) : String :=
  Page.body (UInt64.ofNat records.length) ((records.drop offset).take count)

/-- The channel after a request was received. -/
def receive (channel : Channel) (r : Request) : Channel :=
  { channel with log := channel.log ++ [r] }

/-- Sends a request; gives the answer and the channel after it. A request for no
page of records is not received. -/
def send (r : Request) (channel : Channel) : Except Fault String × Channel :=
  match channel.peer with
  | .scripted [] => (.error scriptEnded, channel.receive r)
  | .scripted (answer :: rest) => (answer, { channel.receive r with peer := .scripted rest })
  | .stored records =>
    match pageBounds? r.url with
    | some (count, offset) => (.ok (storedPage records count offset), channel.receive r)
    | none => (.error (noPageFault r.url), channel)
  | .unreachable => (.error .unreachable, channel)

theorem send_log_scripted {channel : Channel} {answers : List (Except Fault String)}
    (h : channel.peer = .scripted answers) (r : Request) :
    (channel.send r).2.log = channel.log ++ [r] := by
  unfold send
  rw [h]
  cases answers <;> rfl

theorem send_log_stored {channel : Channel} {records : List Json}
    (h : channel.peer = .stored records) (r : Request) :
    (channel.send r).2.log =
      if (pageBounds? r.url).isSome then channel.log ++ [r] else channel.log := by
  unfold send
  rw [h]
  cases hb : pageBounds? r.url <;> simp [receive]

end Channel

end RemoteRecords
