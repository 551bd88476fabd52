import RemoteRecords.Proofs.Session.Destination

/-!
# The secret key stays in addresses

The secret key of an account is put into the addresses of requests and nowhere else. A
peer that answers from a script does not look at what it is asked, so two sessions whose
accounts differ in the key go the same way: each call has the same result, the queries
and all that is shown for inspection are the same, and so are the requests but for the
addresses of endpoints whose template asks for the key.

* `Text.replace_of_not_infix`: a word that does not occur is not replaced;
* `Settings.address_eq_of_not_asksForKey`: addresses without the key;
* `Session.run_scripted_fst`: results depend on the calls and the script only;
* `Session.run_hides_key`: two sessions that differ in the key.
-/

namespace RemoteRecords

/-! ## Addresses -/

theorem Text.replace_of_not_infix {word s : List Char} (new : List Char) (h : ¬word <:+: s) :
    replace word new s = s := by
  unfold replace
  induction s with
  | nil => rfl
  | cons c rest ih =>
    have hp : word.isPrefixOf (c :: rest) = false := by
      rw [Bool.eq_false_iff, ne_eq, List.isPrefixOf_iff_prefix]
      exact fun hp => h hp.isInfix
    have hr : ¬word <:+: rest := fun hr => h (List.infix_cons hr)
    rw [replaceFrom, hp, if_neg Bool.false_ne_true, ih hr]

namespace Settings

/-- Whether the secret key is put into the address of an endpoint. -/
def AsksForKey (s : Settings) (e : Endpoint) : Prop :=
  placeholder "csk" <:+: (s.templates.get e).toList

instance (s : Settings) (e : Endpoint) : Decidable (s.AsksForKey e) :=
  inferInstanceAs (Decidable (_ <:+: _))

theorem address_eq_of_not_asksForKey {s : Settings} {e : Endpoint} (h : ¬s.AsksForKey e)
    (key key' aci : String) (slots : List Slot) :
    s.address e ⟨key, aci⟩ slots = s.address e ⟨key', aci⟩ slots := by
  have hfill : ∀ key, fill (Credentials.slots ⟨key, aci⟩ ++ slots) (s.templates.get e).toList =
      fill (("aci", Text.Percent.encode aci.toList) :: slots) (s.templates.get e).toList := by
    intro key
    rw [Credentials.slots, List.cons_append, fill, List.foldl_cons, Text.replace_of_not_infix _ h]
    rfl
  rw [address, address, hfill, hfill]

end Settings

/-! ## Sessions -/

/-- An account decides nothing of a request but its address. -/
theorem Inquiry.method_params_request (a a' : Account) (i : Inquiry) :
    (i.request a).method = (i.request a').method ∧
      (i.request a).params = (i.request a').params := by
  cases i <;>
  simp only [request, Query.request, Lookup.request, Request.withParam, Request.bare, and_self]

/-- Credentials are shown without the secret key. -/
theorem Text.Inspect.credentials_hide_key (key key' aci : String) :
    credentials ⟨key, aci⟩ = credentials ⟨key', aci⟩ := by
  unfold credentials
  rfl

namespace Session

/-- What a call gives at a scripted peer depends on no account and no request before. -/
theorem step_scripted_fst (a a' : Account) (script : List (Except Fault String))
    (log log' : List Request) (queries : List Query) (c : Call) :
    ((scripted a script log queries).step c).1 = ((scripted a' script log' queries).step c).1 := by
  cases h : c.inquiry? queries with
  | none => rw [step_of_silent h, step_of_silent h]
  | some i => rw [step_scripted_of_inquiry h, step_scripted_of_inquiry h]

/-- What the calls of a run give at a scripted peer depends on no account. -/
theorem run_scripted_fst (a a' : Account) (script : List (Except Fault String))
    (log log' : List Request) (queries : List Query) (calls : List Call) :
    ((scripted a script log queries).run calls).1 =
      ((scripted a' script log' queries).run calls).1 := by
  induction calls generalizing script log log' queries with
  | nil => rfl
  | cons c rest ih =>
    rw [run_cons_fst, run_cons_fst, step_scripted_fst a a' script log log', step_scripted,
      step_scripted]
    exact congrArg _ (ih ..)

/-- What two sessions that have asked for the same have in common, whatever their keys:
all that is shown for inspection, and the requests but for some of their addresses. -/
structure Alike (asked : List Inquiry) (s s' : Session) : Prop where
  queries : s.queries.map Text.Inspect.query = s'.queries.map Text.Inspect.query
  credentials :
    Text.Inspect.credentials s.account.credentials = Text.Inspect.credentials s'.account.credentials
  account : Text.Inspect.account s.account = Text.Inspect.account s'.account
  methods : s.channel.log.map Request.method = s'.channel.log.map Request.method
  params : s.channel.log.map Request.params = s'.channel.log.map Request.params
  /-- Each inquiry has sent a request. -/
  length : s.channel.log.length = asked.length ∧ s'.channel.log.length = asked.length
  /-- The address of an endpoint without the key in its template is the same. -/
  urls : ∀ (n : Nat) (i : Inquiry), asked[n]? = some i → ∃ r r' : Request,
    s.channel.log[n]? = some r ∧ s'.channel.log[n]? = some r' ∧
      r.url = i.destination.address s.account ∧ r'.url = i.destination.address s'.account ∧
      (¬s.account.settings.AsksForKey i.destination.endpoint → r.url = r'.url)

/-- Two sessions whose accounts differ in the secret key give the same results, and all
else that comes of them is the same but for the addresses of endpoints that ask for the
key. -/
theorem run_hides_key (settings : Settings) (aci key key' : String)
    (script : List (Except Fault String)) (calls : List Call) :
    ((start ⟨⟨key, aci⟩, settings⟩ (.scripted script)).run calls).1 =
        ((start ⟨⟨key', aci⟩, settings⟩ (.scripted script)).run calls).1 ∧
      Alike (Call.asked [] calls)
        ((start ⟨⟨key, aci⟩, settings⟩ (.scripted script)).run calls).2
        ((start ⟨⟨key', aci⟩, settings⟩ (.scripted script)).run calls).2 := by
  have hstart (a) : start a (.scripted script) = scripted a script [] [] := rfl
  rw [hstart, hstart]
  refine ⟨run_scripted_fst _ _ script [] [] [] calls, ?_⟩
  rw [run_scripted, run_scripted, List.nil_append, List.nil_append]
  exact {
    queries := rfl
    credentials := Text.Inspect.credentials_hide_key key key' aci
    account := by
      rw [Text.Inspect.account, Text.Inspect.account, Text.Inspect.credentials_hide_key key key']
    methods := by
      rw [List.map_map, List.map_map]
      exact List.map_congr_left fun i _ => (Inquiry.method_params_request _ _ i).1
    params := by
      rw [List.map_map, List.map_map]
      exact List.map_congr_left fun i _ => (Inquiry.method_params_request _ _ i).2
    length := ⟨List.length_map _, List.length_map _⟩
    urls := by
      intro n i hi
      have hlog (a : Account) : ((Call.asked [] calls).map (Inquiry.request a))[n]? =
          some (i.request a) := by
        rw [List.getElem?_map, hi, Option.map_some]
      refine ⟨_, _, hlog _, hlog _, Destination.url_request i _, Destination.url_request i _,
        fun hk => ?_⟩
      rw [Destination.url_request, Destination.url_request]
      exact Settings.address_eq_of_not_asksForKey hk key key' aci i.destination.slots }

/-- Settings with a list of models that is open to all. -/
def sampleOpen : Settings :=
  { Settings.standard with templates := Templates.standard.set .models "/public/models" }

/-- The addresses of a model and of the list, in a session with the given key. -/
def sampleUrls (key : String) : List String :=
  ((start ⟨⟨key, "client"⟩, sampleOpen⟩ (.scripted [])).run
    [.look (.model 7), .look .models]).2.channel.log.map Request.url

theorem run_hides_key_sample :
    ¬sampleOpen.AsksForKey .models ∧ (sampleUrls "key")[1]? = (sampleUrls "other")[1]? ∧
      (sampleUrls "key")[0]? ≠ (sampleUrls "other")[0]? := by
  have hopen : ¬sampleOpen.AsksForKey .models := by decide +kernel
  obtain ⟨-, halike⟩ :=
    run_hides_key sampleOpen "client" "key" "other" [] [.look (.model 7), .look .models]
  obtain ⟨r, r', hr, hr', -, -, hurl⟩ := halike.urls 1 (.look .models) rfl
  refine ⟨hopen, ?_, by decide +kernel⟩
  rw [sampleUrls, sampleUrls, List.getElem?_map, List.getElem?_map, hr, hr', Option.map_some,
    Option.map_some, hurl hopen]

end Session

end RemoteRecords
