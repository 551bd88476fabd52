import RemoteRecords.Service.Channel
import RemoteRecords.Session.Query

/-!
# Sessions

A session is an account, a channel, and the queries that were created with
them. It goes on call by call. What a call changes in a query is decided before
the request is sent, so it holds whether or not the request succeeds.

* `queryStep_edit_channel`: an edit sends nothing.
-/

namespace RemoteRecords

/-- A call on one query. -/
inductive QueryCall
  | edit (e : Query.Edit)
  /-- Runs the query where it stands. -/
  | execute (columns : Option (List String))
  /-- Moves the query to its next page and runs it. -/
  | next

/-- A call of a session. -/
inductive Call
  | createQuery (model : ModelId)
  | look (l : Lookup)
  | query (index : Nat) (c : QueryCall)

/-- An account at work. -/
structure Session where
  account : Account
  channel : Channel
  queries : List Query

namespace Session

/-- A session without queries. -/
def start (account : Account) (peer : Peer) : Session :=
  ⟨account, ⟨peer, []⟩, []⟩

/-- Sends a request and decodes the body of its answer. -/
def exchange {α : Type} (s : Session) (r : Request) (decode : String → Except Fault α) :
    Except Fault α × Session :=
  let (answer, channel) := s.channel.send r
  (answer.bind decode, { s with channel })

/-- Puts a query in place of the one with its number. -/
def setQuery (s : Session) (index : Nat) (q : Query) : Session :=
  { s with queries := s.queries.set index q }

/-- Asks for the page at which a query stands. -/
def fetch (s : Session) (q : Query) : Except Fault Reply × Session :=
  s.exchange (q.request s.account) fun body => (Page.read body).map .page

/-- Carries out a call on a query. -/
def queryStep (s : Session) (index : Nat) (q : Query) : QueryCall → Except Fault Reply × Session
  | .edit e =>
    match q.edit e with
    | .ok edited => (.ok .done, s.setQuery index edited)
    | .error fault => (.error fault, s)
  | .execute columns =>
    let q := q.project columns
    (s.setQuery index q).fetch q
  | .next =>
    let q := q.advance
    (s.setQuery index q).fetch q

/-- Carries out a call; a call on a query that does not exist does nothing. -/
def step (s : Session) : Call → Except Fault Reply × Session
  | .createQuery model => (.ok .done, { s with queries := s.queries ++ [.ofModel model] })
  | .look l => s.exchange (l.request s.account) l.decode
  | .query index c =>
    match s.queries[index]? with
    | some q => s.queryStep index q c
    | none => (.ok .done, s)

/-- Carries out calls one after the other; gives their results. -/
def run (s : Session) : List Call → List (Except Fault Reply) × Session
  | [] => ([], s)
  | c :: rest =>
    let (result, next) := s.step c
    let (results, last) := next.run rest
    (result :: results, last)

theorem queryStep_edit_channel (s : Session) (index : Nat) (q : Query) (e : Query.Edit) :
    (s.queryStep index q (.edit e)).2.channel = s.channel := by
  cases h : q.edit e <;> simp [queryStep, h, setQuery]

end Session

end RemoteRecords
