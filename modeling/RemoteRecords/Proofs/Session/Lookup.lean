import RemoteRecords.Proofs.Json.RoundTrip
import RemoteRecords.Proofs.Record.Metadata
import RemoteRecords.Session.Account

/-!
# What is read from answers about models

The answers about models and their fields are decoded all or nothing. What comes of an
answer is said once, case by case (`Lookup.Outcome`): a failed answer is refused whatever
else it holds, a list that is missing is a fault, and one model without a number spoils
the list of all models. All else is read off these cases, and so is that the spelling of
integers does not count.

* `Lookup.Lists`, `Lookup.DescribesField`: the model and the field that a value tells about;
* `Lookup.Outcome`, `Lookup.reply_eq_iff`: what comes of an answer;
* `Lookup.decode_metadata`: what comes of a body;
* `Lookup.decode_eq_of_respelled`: bodies whose integers are spelled in another way.
-/

namespace RemoteRecords

/-! ## The status of an answer -/

namespace Envelope

/-- An answer that says of itself that it succeeded. -/
def Succeeds (answer : Json) : Prop :=
  ∃ h, answer.get? "status" = some (.number (.integer 200 h))

/-- The reason that a failed answer gives: its own message if that is a string, else a
general text. -/
inductive GivesReason (answer : Json) : String → Prop
  | own {s : String} (h : answer.get? "message" = some (.text s)) : GivesReason answer s
  | general (h : ∀ s, answer.get? "message" ≠ some (.text s)) :
    GivesReason answer "Fatal error executing request"

theorem check_eq_ok_iff_succeeds {answer : Json} : check answer = .ok () ↔ Succeeds answer := by
  rw [check_eq_ok_iff, Option.bind_eq_some_iff]
  constructor
  · rintro ⟨v, hv, hn⟩
    cases v with
    | number n =>
      cases n with
      | integer k h =>
        obtain rfl : k = 200 := (Metadata.int64?_integer_eq_some_iff h).mp hn
        exact ⟨h, hv⟩
      | double x => cases hn
    | _ => cases hn
  · rintro ⟨h, hv⟩
    exact ⟨_, hv, (Metadata.int64?_integer_eq_some_iff h).mpr rfl⟩

theorem check_eq_error {answer : Json} (h : ¬Succeeds answer) :
    check answer = .error (.refused (reason answer)) := by
  rw [← check_eq_ok_iff_succeeds, check_eq_ok_iff] at h
  rw [check, if_neg h]

theorem givesReason_reason (answer : Json) : GivesReason answer (reason answer) := by
  cases hm : (answer.get? "message").bind Json.text? with
  | some s =>
    obtain ⟨v, hv, hs⟩ := Option.bind_eq_some_iff.mp hm
    obtain rfl := Json.text?_eq_some_iff.mp hs
    rw [reason, hm]
    exact .own hv
  | none =>
    rw [reason, hm]
    refine .general fun s hs => ?_
    rw [hs] at hm
    cases hm

/-- Nothing but the status and the message of an answer counts. -/
theorem check_congr {v w : Json} (hs : v.get? "status" = w.get? "status")
    (hm : v.get? "message" = w.get? "message") : check v = check w := by
  rw [check, check, reason, reason, hs, hm]

end Envelope

/-! ## All or nothing -/

/-- A list is read in full if each of its elements is. -/
theorem mapM_eq_ok_iff {α β : Type} {f : α → Except Fault β} {xs : List α} {ys : List β} :
    xs.mapM f = .ok ys ↔ List.Forall₂ (fun x y => f x = .ok y) xs ys := by
  induction xs generalizing ys with
  | nil =>
    rw [List.mapM_nil, List.forall₂_nil_left_iff]
    exact ⟨fun h => (Except.ok.inj h).symm, fun h => h ▸ rfl⟩
  | cons x rest ih =>
    rw [List.mapM_cons, List.forall₂_cons_left_iff]
    cases hx : f x with
    | error fault => simp [bind, Except.bind]
    | ok y =>
      cases hrest : rest.mapM f with
      | error fault => simp [bind, Except.bind, ← ih, hrest]
      | ok more => simp [bind, Except.bind, pure, Except.pure, ← ih, hrest, eq_comm]

/-- The fault of a list is the fault of one of its elements. -/
theorem exists_of_mapM_eq_error {α β : Type} {f : α → Except Fault β} {fault : Fault}
    {xs : List α} (h : xs.mapM f = .error fault) : ∃ x ∈ xs, f x = .error fault := by
  induction xs with
  | nil => cases h
  | cons x rest ih =>
    rw [List.mapM_cons] at h
    cases hx : f x with
    | error other =>
      rw [hx] at h
      exact ⟨x, List.mem_cons_self, by rw [hx, Except.error.inj h]⟩
    | ok y =>
      rw [hx] at h
      cases hrest : rest.mapM f with
      | error other =>
        rw [hrest] at h
        obtain ⟨z, hz, hf⟩ := ih (by rw [hrest, Except.error.inj h])
        exact ⟨z, List.mem_cons_of_mem _ hz, hf⟩
      | ok more =>
        rw [hrest] at h
        cases h

/-- With only one fault to find in an element, an element that has it spoils the list,
wherever it stands. -/
theorem mapM_eq_error {α β : Type} {f : α → Except Fault β} {fault : Fault}
    (hf : ∀ x other, f x = .error other → other = fault) {x : α} {xs : List α} (hx : x ∈ xs)
    (h : f x = .error fault) : xs.mapM f = .error fault := by
  cases hread : xs.mapM f with
  | error other =>
    obtain ⟨y, -, hy⟩ := exists_of_mapM_eq_error hread
    rw [hf y other hy]
  | ok ys =>
    have hall := mapM_eq_ok_iff.mp hread
    obtain ⟨n, hn, rfl⟩ := List.mem_iff_getElem.mp hx
    cases h.symm.trans (hall.get hn (hall.length_eq ▸ hn))

namespace Lookup

open Metadata

/-- Whether models or their fields are looked up. -/
def IsMetadata : Lookup → Prop
  | record .. => False
  | _ => True

/-- What a value tells about a model besides its number: the name and the description,
each of them if it is a string. -/
structure Describes (v : Json) (m : Model) : Prop where
  name : ∀ s, m.name = some s ↔ v.get? "name" = some (.text s)
  description : ∀ s, m.description = some s ↔ v.get? "description" = some (.text s)

theorem describes_ofJson (id : ModelId) (v : Json) : Describes v (Model.ofJson id v) where
  name _ := textMember_eq_some_iff
  description _ := textMember_eq_some_iff

/-- There is no more to a model than its number and what is told about it. -/
theorem Describes.eq_ofJson {v : Json} {m : Model} (h : Describes v m) :
    m = Model.ofJson m.id v := by
  have hname : m.name = textMember "name" v :=
    Option.ext fun s => (h.name s).trans textMember_eq_some_iff.symm
  have hdescription : m.description = textMember "description" v :=
    Option.ext fun s => (h.description s).trans textMember_eq_some_iff.symm
  rw [Model.ofJson, ← hname, ← hdescription]

/-- The model that an item of a list tells about. -/
def Lists (item : Json) (m : Model) : Prop :=
  HasInteger "id" item m.id ∧ Describes item m

theorem readListed_eq_ok_iff {item : Json} {m : Model} :
    readListed item = .ok m ↔ Lists item m := by
  rw [Lists, ← integerMember_eq_some_iff]
  constructor
  · intro h
    rw [readListed] at h
    cases hid : integerMember "id" item with
    | none =>
      rw [hid] at h
      cases h
    | some id =>
      rw [hid] at h
      obtain rfl := Except.ok.inj h
      exact ⟨rfl, describes_ofJson id item⟩
  · rintro ⟨hid, hm⟩
    rw [readListed, hid]
    exact congrArg Except.ok hm.eq_ofJson.symm

/-- What a value tells about a field of a model besides how it is used: its number, if it
has one, and its texts, each of them if it is a string. -/
structure DescribesField (owner : ModelId) (v : Json) (f : Field) : Prop where
  model : f.model = owner
  id : HasInteger "id" v f.id ∨ (∀ n, ¬HasInteger "id" v n) ∧ f.id = -1
  identifier : ∀ s, f.identifier = some s ↔ v.get? "identifier" = some (.text s)
  label : ∀ s, f.label = some s ↔ v.get? "label" = some (.text s)
  comment : ∀ s, f.comment = some s ↔ v.get? "comment" = some (.text s)

theorem describesField_ofJson (owner : ModelId) (v : Json) :
    DescribesField owner v (Field.ofJson owner v) where
  model := rfl
  id := by
    rw [Field.ofJson, ← integerMember_eq_some_iff, ← integerMember_eq_none_iff]
    cases integerMember "id" v with
    | none => exact .inr ⟨rfl, rfl⟩
    | some id => exact .inl rfl
  identifier _ := textMember_eq_some_iff
  label _ := textMember_eq_some_iff
  comment _ := textMember_eq_some_iff

/-- An item tells about one model only. -/
theorem Lists.unique {item : Json} {m m' : Model} (h : Lists item m) (h' : Lists item m') :
    m = m' :=
  Except.ok.inj ((readListed_eq_ok_iff.mpr h).symm.trans (readListed_eq_ok_iff.mpr h'))

theorem readListed_eq_error_iff {item : Json} {fault : Fault} :
    readListed item = .error fault ↔
      fault = .missingField "id" ∧ ∀ n, ¬HasInteger "id" item n := by
  rw [readListed, ← integerMember_eq_none_iff]
  cases integerMember "id" item <;> simp [eq_comm]

/-- What comes of an answer about models or their fields. -/
inductive Outcome (answer : Json) : Lookup → Except Fault Reply → Prop
  | refused {l : Lookup} (hl : l.IsMetadata) (hs : ¬Envelope.Succeeds answer) :
    Outcome answer l (.error (.refused (Envelope.reason answer)))
  | model {id : ModelId} (hs : Envelope.Succeeds answer) :
    Outcome answer (.model id) (.ok (.model (Model.ofJson id answer)))
  | noFields {owner : ModelId} (hs : Envelope.Succeeds answer)
    (h : ∀ members, answer.get? "fields" ≠ some (.object members)) :
    Outcome answer (.fields owner) (.error (.missingField "fields"))
  | fields {owner : ModelId} {members : List (String × Json)} (hs : Envelope.Succeeds answer)
    (h : answer.get? "fields" = some (.object members)) :
    Outcome answer (.fields owner) (.ok (.fields (members.map fun m => Field.ofJson owner m.2)))
  | noModels (hs : Envelope.Succeeds answer)
    (h : ∀ items, answer.get? "models" ≠ some (.array items)) :
    Outcome answer .models (.error (.missingField "models"))
  | noNumber {items : List Json} {item : Json} (hs : Envelope.Succeeds answer)
    (h : answer.get? "models" = some (.array items)) (hi : item ∈ items)
    (hn : ∀ n, ¬HasInteger "id" item n) :
    Outcome answer .models (.error (.missingField "id"))
  | models {items : List Json} {ms : List Model} (hs : Envelope.Succeeds answer)
    (h : answer.get? "models" = some (.array items)) (hms : List.Forall₂ Lists items ms) :
    Outcome answer .models (.ok (.models ms))

variable {answer : Json}

theorem readModels_of_array {items : List Json} (h : answer.get? "models" = some (.array items)) :
    readModels answer = items.mapM readListed := by
  rw [readModels, Page.requiredAs, h]
  rfl

theorem readModels_of_missing (h : ∀ items, answer.get? "models" ≠ some (.array items)) :
    readModels answer = .error (.missingField "models") := by
  have hnone : (answer.get? "models").bind Json.items? = none := by
    simpa [Option.eq_none_iff_forall_ne_some, Option.bind_eq_some_iff,
      Json.items?_eq_some_iff] using h
  rw [readModels, Page.requiredAs, hnone]
  rfl

theorem readFields_of_object {members : List (String × Json)}
    (h : answer.get? "fields" = some (.object members)) (owner : ModelId) :
    readFields owner answer = .ok (members.map fun m => Field.ofJson owner m.2) := by
  rw [readFields, Page.requiredAs, h]
  rfl

theorem readFields_of_missing (h : ∀ members, answer.get? "fields" ≠ some (.object members))
    (owner : ModelId) : readFields owner answer = .error (.missingField "fields") := by
  have hnone : (answer.get? "fields").bind Json.members? = none := by
    simpa [Option.eq_none_iff_forall_ne_some, Option.bind_eq_some_iff,
      Json.members?_eq_some_iff] using h
  rw [readFields, Page.requiredAs, hnone]
  rfl

theorem decode_of_read {body : String} (h : Json.read body.toList = some answer) (l : Lookup) :
    l.decode body = l.reply answer := by
  rw [decode, h]

theorem reply_of_not_succeeds {l : Lookup} (hl : l.IsMetadata) (h : ¬Envelope.Succeeds answer) :
    l.reply answer = .error (.refused (Envelope.reason answer)) := by
  have hcheck := Envelope.check_eq_error h
  cases l with
  | record => cases hl
  | model | models | fields =>
    rw [reply, hcheck]
    rfl

/-- Each case is what comes of the answer. -/
theorem reply_of_outcome {l : Lookup} {r : Except Fault Reply} (h : Outcome answer l r) :
    l.reply answer = r := by
  cases h with
  | refused hl hs => exact reply_of_not_succeeds hl hs
  | model hs =>
    rw [reply, Envelope.check_eq_ok_iff_succeeds.mpr hs]
    rfl
  | noFields hs h =>
    rw [reply, Envelope.check_eq_ok_iff_succeeds.mpr hs, readFields_of_missing h]
    rfl
  | fields hs h =>
    rw [reply, Envelope.check_eq_ok_iff_succeeds.mpr hs, readFields_of_object h]
    rfl
  | noModels hs h =>
    rw [reply, Envelope.check_eq_ok_iff_succeeds.mpr hs, readModels_of_missing h]
    rfl
  | noNumber hs h hi hn =>
    have hread : readModels answer = .error (.missingField "id") := by
      rw [readModels_of_array h]
      exact mapM_eq_error (fun _ _ hf => (readListed_eq_error_iff.mp hf).1) hi
        (readListed_eq_error_iff.mpr ⟨rfl, hn⟩)
    rw [reply, Envelope.check_eq_ok_iff_succeeds.mpr hs, hread]
    rfl
  | @models items ms hs h hms =>
    have hread : readModels answer = .ok ms := by
      rw [readModels_of_array h, mapM_eq_ok_iff]
      exact hms.imp fun item m => readListed_eq_ok_iff.mpr
    rw [reply, Envelope.check_eq_ok_iff_succeeds.mpr hs, hread]
    rfl

/-- One of the cases applies to each answer. -/
theorem exists_outcome (answer : Json) {l : Lookup} (hl : l.IsMetadata) :
    ∃ r, Outcome answer l r := by
  by_cases hs : Envelope.Succeeds answer
  · cases l with
    | record => cases hl
    | model => exact ⟨_, .model hs⟩
    | fields owner =>
      by_cases h : ∃ members, answer.get? "fields" = some (.object members)
      · obtain ⟨members, h⟩ := h
        exact ⟨_, .fields hs h⟩
      · exact ⟨_, .noFields hs (not_exists.mp h)⟩
    | models =>
      by_cases h : ∃ items, answer.get? "models" = some (.array items)
      · obtain ⟨items, h⟩ := h
        cases hread : items.mapM readListed with
        | ok ms =>
          have hms := (mapM_eq_ok_iff.mp hread).imp fun item m => readListed_eq_ok_iff.mp
          exact ⟨_, .models hs h hms⟩
        | error fault =>
          obtain ⟨item, hi, hf⟩ := exists_of_mapM_eq_error hread
          exact ⟨_, .noNumber hs h hi (readListed_eq_error_iff.mp hf).2⟩
      · exact ⟨_, .noModels hs (not_exists.mp h)⟩
  · exact ⟨_, .refused hl hs⟩

/-- What comes of an answer is the one case that applies to it. -/
theorem reply_eq_iff {l : Lookup} (hl : l.IsMetadata) {r : Except Fault Reply} :
    l.reply answer = r ↔ Outcome answer l r := by
  refine ⟨fun h => ?_, reply_of_outcome⟩
  obtain ⟨other, hother⟩ := exists_outcome answer hl
  rwa [← h, reply_of_outcome hother]

/-! ## Answers that succeed -/

theorem reply_fields_eq_missing_iff (hs : Envelope.Succeeds answer) (owner : ModelId) :
    (fields owner).reply answer = .error (.missingField "fields") ↔
      ∀ members, answer.get? "fields" ≠ some (.object members) := by
  refine ⟨fun h => ?_, fun h => reply_of_outcome (.noFields hs h)⟩
  cases (reply_eq_iff (l := .fields owner) trivial).mp h with
  | noFields _ hmissing => exact hmissing

theorem reply_models_eq_missing_iff (hs : Envelope.Succeeds answer) :
    models.reply answer = .error (.missingField "models") ↔
      ∀ items, answer.get? "models" ≠ some (.array items) := by
  refine ⟨fun h => ?_, fun h => reply_of_outcome (.noModels hs h)⟩
  obtain ⟨r, hr⟩ := exists_outcome answer (l := .models) trivial
  rw [reply_of_outcome hr] at h
  cases hr with
  | refused _ hn => exact absurd hs hn
  | noModels _ hmissing => exact hmissing
  | noNumber => exact absurd (Fault.missingField.inj (Except.error.inj h)) (by decide)
  | models => cases h

/-- An array of models is read as one model for each item, if each item has a number. -/
theorem reply_models_of_array (hs : Envelope.Succeeds answer) {items : List Json}
    (h : answer.get? "models" = some (.array items)) :
    (∃ item ∈ items, ∀ n, ¬HasInteger "id" item n) ∨
      ∃ ms, models.reply answer = .ok (.models ms) ∧ List.Forall₂ Lists items ms := by
  obtain ⟨r, hr⟩ := exists_outcome answer (l := .models) trivial
  rw [reply_of_outcome hr]
  cases hr with
  | refused _ hn => exact absurd hs hn
  | noModels _ hmissing => exact absurd h (hmissing items)
  | noNumber _ hitems hi hn =>
    obtain rfl := Json.array.inj (Option.some.inj (hitems.symm.trans h))
    exact .inl ⟨_, hi, hn⟩
  | models _ hitems hms =>
    obtain rfl := Json.array.inj (Option.some.inj (hitems.symm.trans h))
    exact .inr ⟨_, rfl, hms⟩

theorem reply_models_eq_unnumbered_iff (hs : Envelope.Succeeds answer) {items : List Json}
    (h : answer.get? "models" = some (.array items)) :
    models.reply answer = .error (.missingField "id") ↔
      ∃ item ∈ items, ∀ n, ¬HasInteger "id" item n := by
  constructor
  · intro hr
    rcases reply_models_of_array hs h with hitem | ⟨ms, hok, -⟩
    · exact hitem
    · cases hok.symm.trans hr
  · rintro ⟨item, hi, hn⟩
    exact reply_of_outcome (.noNumber hs h hi hn)

/-- What comes of the body of an answer about models or their fields. The three lookups
agree on bodies that are no JSON and on answers that failed, whatever else these hold. Of
an answer that succeeds, a model always comes, of fields one for each name, and of models
one for each item, or none if the list or any of the numbers is missing. -/
theorem decode_metadata (body : String) :
    (∀ l : Lookup, l.IsMetadata →
      (l.decode body = .error .malformed ↔ Json.read body.toList = none)) ∧
    ∀ answer, Json.read body.toList = some answer →
      (∃ reason, Envelope.GivesReason answer reason ∧
        ∀ l : Lookup, l.IsMetadata →
          (l.decode body = .error (.refused reason) ↔ ¬Envelope.Succeeds answer)) ∧
      (Envelope.Succeeds answer →
        (∀ id, ∃ m, (model id).decode body = .ok (.model m) ∧ m.id = id ∧ Describes answer m) ∧
        (∀ owner,
          ((fields owner).decode body = .error (.missingField "fields") ↔
            ∀ members, answer.get? "fields" ≠ some (.object members)) ∧
          ∀ members, answer.get? "fields" = some (.object members) →
            (members.map Prod.fst).Nodup ∧
              (fields owner).decode body =
                .ok (.fields (members.map fun m => Field.ofJson owner m.2)) ∧
              ∀ m ∈ members, DescribesField owner m.2 (Field.ofJson owner m.2)) ∧
        (models.decode body = .error (.missingField "models") ↔
          ∀ items, answer.get? "models" ≠ some (.array items)) ∧
        ∀ items, answer.get? "models" = some (.array items) →
          (models.decode body = .error (.missingField "id") ↔
            ∃ item ∈ items, ∀ n, ¬HasInteger "id" item n) ∧
          ((∀ item ∈ items, ∃ n, HasInteger "id" item n) →
            ∃ ms, models.decode body = .ok (.models ms) ∧ List.Forall₂ Lists items ms)) := by
  refine ⟨fun l hl => ?_, fun answer h => ?_⟩
  · cases h : Json.read body.toList with
    | none => simp only [decode, h]
    | some answer =>
      simp only [decode, h, reduceCtorEq, iff_false]
      intro hr
      cases (reply_eq_iff hl).mp hr
  simp only [decode_of_read h]
  refine ⟨⟨_, Envelope.givesReason_reason answer, fun l hl => ?_⟩, fun hs => ?_⟩
  · refine ⟨fun hr => ?_, reply_of_not_succeeds hl⟩
    cases (reply_eq_iff hl).mp hr with
    | refused _ hs => exact hs
  refine ⟨fun id => ⟨_, reply_of_outcome (.model hs), rfl, describes_ofJson id answer⟩,
    fun owner => ?_, reply_models_eq_missing_iff hs, fun items hm => ?_⟩
  · exact ⟨reply_fields_eq_missing_iff hs owner, fun members hm =>
      ⟨Json.nodup_keys_of_read h hm, reply_of_outcome (.fields hs hm),
        fun m _ => describesField_ofJson owner m.2⟩⟩
  · refine ⟨reply_models_eq_unnumbered_iff hs hm, fun hall => ?_⟩
    refine (reply_models_of_array hs hm).resolve_left ?_
    rintro ⟨item, hi, hn⟩
    exact not_exists.mpr hn (hall item hi)

/-- The body that holds an answer. -/
def sampleBody (answer : Json) : String :=
  String.ofList answer.compact

theorem read_sampleBody (hd : answer.depth ≤ Json.maxDepth) (hr : answer.readsBack = true) :
    Json.read (sampleBody answer).toList = some answer := by
  rw [sampleBody, String.toList_ofList, Json.read_compact hd hr]

/-- An answer about all models, of which the first has its number as text and no string
as its description. -/
def sampleListing (others : List Json) : Json :=
  .object [("status", .number (.integer 200 (by decide))),
    ("models", .array (.object [("id", .text " 7 "), ("name", .text "User"),
      ("description", .bool true)] :: others))]

/-- A model with a number, a name and a description. -/
def sampleItem : Json :=
  .object [("name", .text "Order"), ("description", .text "All orders"),
    ("id", .number (.integer 8 (by decide)))]

/-- A model without a number. -/
def sampleLost : Json :=
  .object [("name", .text "Lost"), ("id", .text "seven")]

/-- An answer about one model. -/
def sampleNamed : Json :=
  .object [("status", .number (.integer 200 (by decide))), ("name", .text "User"),
    ("description", .null)]

/-- Two models in order, no model at all when one between them has no number, and one model
that was asked for by its number. -/
theorem decode_metadata_sample :
    models.decode (sampleBody (sampleListing [sampleItem])) =
      .ok (.models [⟨7, some "User", none⟩, ⟨8, some "Order", some "All orders"⟩]) ∧
    models.decode (sampleBody (sampleListing [sampleLost, sampleItem])) =
      .error (.missingField "id") ∧
    (model 5).decode (sampleBody sampleNamed) = .ok (.model ⟨5, some "User", none⟩) := by
  refine ⟨?_, ?_, ?_⟩
  · have hread : Json.read (sampleBody (sampleListing [sampleItem])).toList =
        some (sampleListing [sampleItem]) := read_sampleBody (by decide) (by decide)
    obtain ⟨-, -, -, hmodels⟩ := ((decode_metadata _).2 _ hread).2 ⟨_, rfl⟩
    obtain ⟨ms, hms, hlists⟩ := (hmodels _ rfl).2 (List.forall_mem_cons.mpr
      ⟨⟨7, integerMember_eq_some_iff.mp rfl⟩,
        List.forall_mem_singleton.mpr ⟨8, integerMember_eq_some_iff.mp rfl⟩⟩)
    rcases hlists with _ | ⟨hfirst, _ | ⟨hsecond, ⟨⟩⟩⟩
    obtain rfl : _ = (⟨7, some "User", none⟩ : Model) :=
      hfirst.unique (readListed_eq_ok_iff.mp rfl)
    obtain rfl : _ = (⟨8, some "Order", some "All orders"⟩ : Model) :=
      hsecond.unique (readListed_eq_ok_iff.mp rfl)
    exact hms
  · have hread : Json.read (sampleBody (sampleListing [sampleLost, sampleItem])).toList =
        some (sampleListing [sampleLost, sampleItem]) := read_sampleBody (by decide) (by decide)
    obtain ⟨-, -, -, hmodels⟩ := ((decode_metadata _).2 _ hread).2 ⟨_, rfl⟩
    refine (hmodels _ rfl).1.mpr ⟨_, List.mem_cons_of_mem _ List.mem_cons_self, ?_⟩
    exact integerMember_eq_none_iff.mp rfl
  · have hread : Json.read (sampleBody sampleNamed).toList = some sampleNamed :=
      read_sampleBody (by decide) (by decide)
    obtain ⟨hmodel, -⟩ := ((decode_metadata _).2 _ hread).2 ⟨_, rfl⟩
    obtain ⟨m, hm, hid, hdescribes⟩ := hmodel 5
    have hnamed : m = ⟨5, some "User", none⟩ := by
      rw [hdescribes.eq_ofJson, hid]
      rfl
    rw [hm, hnamed]

/-! ## Answers in another spelling -/

/-- An answer whose integers are spelled in another way: those of each field in an answer
about fields, and the numbers of the models in an answer about all models. -/
inductive Respelled : Lookup → Json → Json → Prop
  | fields {owner : ModelId} {v w : Json}
    (h : Json.DifferAt ["fields"] (Json.Memberwise fun _ => Field.Respelled) v w) :
    Respelled (.fields owner) v w
  | models {v w : Json} (h : Json.DifferAt ["models"] (Json.Itemwise Model.Respelled) v w) :
    Respelled .models v w

theorem readListed_eq_of_respelled {v w : Json} (h : Model.Respelled v w) :
    readListed v = readListed w := by
  rw [readListed, readListed, Model.integerMember_eq_of_respelled h]
  cases integerMember "id" w with
  | none => rfl
  | some id => exact congrArg Except.ok (Model.ofJson_eq_of_respelled h id)

theorem readFields_eq (owner : ModelId) (answer : Json) :
    readFields owner answer =
      (((answer.get? "fields").bind Json.members?).map
        (List.map fun m => Field.ofJson owner m.2)).elim (.error (.missingField "fields")) .ok := by
  rw [readFields, Page.requiredAs]
  cases (answer.get? "fields").bind Json.members? <;> rfl

theorem readModels_eq (answer : Json) :
    readModels answer =
      (((answer.get? "models").bind Json.items?).map (List.map readListed)).elim
        (.error (.missingField "models")) (List.mapM id) := by
  rw [readModels, Page.requiredAs]
  cases (answer.get? "models").bind Json.items? with
  | none => rfl
  | some items =>
    show items.mapM readListed = (items.map readListed).mapM id
    rw [List.mapM_map, Function.id_comp]

theorem reply_eq_of_respelled {l : Lookup} {v w : Json} (h : l.Respelled v w) :
    l.reply v = l.reply w := by
  cases h with
  | @fields owner _ _ h =>
    have hfields : ((v.get? "fields").bind Json.members?).map
        (List.map fun m => Field.ofJson owner m.2) =
          ((w.get? "fields").bind Json.members?).map
            (List.map fun m => Field.ofJson owner m.2) :=
      h.reader_eq (by decide) (fun member? => (member?.bind Json.members?).map
        (List.map fun m => Field.ofJson owner m.2)) fun a b hab =>
          hab.map_eq fun _ _ _ hm => Field.ofJson_eq_of_respelled hm owner
    rw [reply, reply, Envelope.check_congr (h.get?_eq (by decide)) (h.get?_eq (by decide)), readFields_eq,
      readFields_eq, hfields]
  | models h =>
    have hmodels : ((v.get? "models").bind Json.items?).map (List.map readListed) =
        ((w.get? "models").bind Json.items?).map (List.map readListed) :=
      h.reader_eq (by decide) (fun member? => (member?.bind Json.items?).map (List.map readListed))
        fun a b hab => hab.map_eq fun _ _ => readListed_eq_of_respelled
    rw [reply, reply, Envelope.check_congr (h.get?_eq (by decide)) (h.get?_eq (by decide)), readModels_eq,
      readModels_eq, hmodels]

/-- The spelling of integers does not count, and a number beyond 64 bits with a sign is
missing in either spelling. -/
theorem decode_eq_of_respelled {l : Lookup} {body respelled : String} {v w : Json}
    (hv : Json.read body.toList = some v) (hw : Json.read respelled.toList = some w)
    (h : l.Respelled v w) :
    l.decode respelled = l.decode body ∧
      ∀ items item n hn, l = .models → Envelope.Succeeds v →
        v.get? "models" = some (.array items) → item ∈ items →
        item.get? "id" = some (.number (.integer n hn)) → Int64.maxValue.toInt < n →
        l.decode body = .error (.missingField "id") ∧
          l.decode respelled = .error (.missingField "id") := by
  have hsame : l.decode respelled = l.decode body := by
    rw [decode_of_read hv, decode_of_read hw, reply_eq_of_respelled h]
  refine ⟨hsame, ?_⟩
  rintro items item n hn rfl hs hitems hi hid hlt
  have hreply : models.decode body = .error (.missingField "id") := by
    rw [decode_of_read hv]
    exact reply_of_outcome (.noNumber hs hitems hi (not_hasInteger_of_lt hid hlt))
  exact ⟨hreply, hsame.trans hreply⟩

/-- An answer about one field with one choice. -/
def sampleField (id value : Json) : Json :=
  .object [("status", .number (.integer 200 (by decide))),
    ("fields", .object [("f", .object [("id", id), ("uniqueness", .number (.integer 1 (by decide))),
      ("items", .array [.object [("value", value)]])])])]

/-- An answer about all models, of which there is one. -/
def sampleModel (id : Json) : Json :=
  .object [("status", .number (.integer 200 (by decide))), ("models", .array [.object [("id", id)]])]

/-- Two of the three integers of a field as text, and a number that is one too large. -/
theorem decode_eq_of_respelled_sample :
    (fields 5).decode (sampleBody (sampleField (.text "7") (.text "-3"))) =
      (fields 5).decode (sampleBody (sampleField (.number (.integer 7 (by decide)))
        (.number (.integer (-3) (by decide))))) ∧
    (fields 5).decode (sampleBody (sampleField (.number (.integer 7 (by decide)))
        (.number (.integer (-3) (by decide))))) =
      .ok (.fields [⟨7, none, none, none, true, false, .number, [⟨"-3", ""⟩], 5⟩]) ∧
    models.decode (sampleBody (sampleModel
        (.number (.integer 9223372036854775808 (by decide))))) = .error (.missingField "id") ∧
    models.decode (sampleBody (sampleModel (.text "9223372036854775808"))) =
      .error (.missingField "id") := by
  have hseven : (Json.number (.integer 7 (by decide))).Respelled (.text "7") := .digits _
  have hthree : (Json.number (.integer (-3) (by decide))).Respelled (.text "-3") := .digits _
  have hlarge : (Json.number (.integer 9223372036854775808 (by decide))).Respelled
      (.text "9223372036854775808") := .digits _
  have hfields : (fields 5).Respelled
      (sampleField (.number (.integer 7 (by decide))) (.number (.integer (-3) (by decide))))
      (sampleField (.text "7") (.text "-3")) := by
    refine .fields (.object (.cons ⟨rfl, ?_⟩ (.cons ⟨rfl, ?_⟩ .nil)))
    · rw [if_neg (by decide)]
    rw [if_pos (by decide)]
    refine .object (.cons ⟨rfl, .object (.cons ⟨rfl, ?_⟩ (.cons ⟨rfl, ?_⟩ (.cons ⟨rfl, ?_⟩ .nil)))⟩
      .nil)
    · rw [if_pos (by decide)]
      exact hseven
    · rw [if_pos (by decide)]
      exact .same _
    · rw [if_neg (by decide), if_pos rfl]
      refine .array (.cons (.object (.cons ⟨rfl, ?_⟩ .nil)) .nil)
      rw [if_pos (by decide)]
      exact hthree
  have hmodels : models.Respelled
      (sampleModel (.number (.integer 9223372036854775808 (by decide))))
      (sampleModel (.text "9223372036854775808")) := by
    refine .models (.object (.cons ⟨rfl, ?_⟩ (.cons ⟨rfl, ?_⟩ .nil)))
    · rw [if_neg (by decide)]
    rw [if_pos (by decide)]
    refine .array (.cons (.object (.cons ⟨rfl, ?_⟩ .nil)) .nil)
    rw [if_pos (by decide)]
    exact hlarge
  refine ⟨?_, ?_, ?_⟩
  · exact (decode_eq_of_respelled (read_sampleBody (by decide) (by decide))
      (read_sampleBody (by decide) (by decide)) hfields).1
  · rw [decode_of_read (read_sampleBody (by decide) (by decide))]
    rfl
  · exact (decode_eq_of_respelled (read_sampleBody (by decide) (by decide))
      (read_sampleBody (by decide) (by decide)) hmodels).2 _ _ _ (by decide) rfl ⟨_, rfl⟩ rfl
        List.mem_cons_self rfl (by decide)

end Lookup

end RemoteRecords
