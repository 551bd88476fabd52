import RemoteRecords.Proofs.Session.Call
import RemoteRecords.Proofs.Session.Query
import RemoteRecords.Proofs.Settings.Address
import RemoteRecords.Proofs.Text.Percent

/-!
# What an address tells

An address that is made with a standard template can be taken apart again. Behind the
base, cut at its slashes and decoded segment by segment, it is the template with the two
keys and the numbers of the call in the place of the placeholders, whatever the keys are.
So one address is made for one thing only, and by one account.

* `Destination`: what an address is made for;
* `Destination.exists_path_address`: the segments of an address, encoded;
* `Destination.eq_of_segments_eq`: the segments tell what they were made from;
* `Destination.address_tells`: all that can be read off an address.
-/

namespace RemoteRecords

/-- What an address is made for: a page of the records of a model, or something to look
up. -/
inductive Destination
  | page (projected : Bool) (model : ModelId) (count offset : Int64)
  | look (l : Lookup)
deriving DecidableEq, Repr

/-- What the request of an inquiry is addressed to. -/
def Inquiry.destination : Inquiry → Destination
  | page q => .page (q.endpoint = .recordsByProjection) q.model q.effectiveCount q.currentOffset
  | look l => .look l

namespace Destination

/-- The endpoint behind an address. -/
def endpoint : Destination → Endpoint
  | page projected .. => if projected then .recordsByProjection else .records
  | look l => l.endpoint

/-- The numbers in an address, in the order of its path. -/
def numbers : Destination → List Int64
  | page _ model count offset => [model, count, offset]
  | look (.record id owner) => [owner, id]
  | look (.model id) => [id]
  | look .models => []
  | look (.fields owner) => [owner]

/-- What an address is filled with. -/
def slots (d : Destination) : List Slot :=
  List.zipWith Slot.ofInt d.endpoint.arguments d.numbers

/-- The address of a destination for an account. -/
def address (d : Destination) (a : Account) : String :=
  a.address d.endpoint d.slots

/-- What each name of a template stands for, without any encoding. -/
def inputs (d : Destination) (c : Credentials) : List Slot :=
  [("csk", c.csk.toList), ("aci", c.aci.toList)] ++ d.slots

/-- The segments of the template, with what they stand for in the place of placeholders. -/
def segments (d : Destination) (c : Credentials) : List (List Char) :=
  (Text.split '/' (Templates.standard.get d.endpoint).toList).map fun s =>
    (((d.inputs c).map fun v => (placeholder v.1, v.2)).lookup s).getD s

/-- The address of a request is the one of its destination. -/
theorem url_request (i : Inquiry) (a : Account) : (i.request a).url = i.destination.address a := by
  cases i with
  | page q =>
    rcases q.endpoint_eq with h | h <;>
    · simp only [Inquiry.request, Query.request, Request.withParam, Request.bare, address, endpoint,
        Inquiry.destination, h]
      rfl
  | look l => cases l <;> rfl

end Destination

/-! ## Segment by segment -/

theorem placeholder_inj {name key : String} (h : placeholder name = placeholder key) :
    name = key := by
  simp only [placeholder, List.cons_append, List.cons.injEq, true_and] at h
  exact String.toList_injective (List.append_cancel_right h)

/-- A piece that is looked up by its text is looked up by its name. -/
theorem Piece.getD_lookup_text {p : Piece} (hp : p.IsBraceFree) (slots : List Slot) :
    ((slots.map fun v => (placeholder v.1, v.2)).lookup p.text).getD p.text = p.expand slots := by
  induction slots with
  | nil => cases p <;> rfl
  | cons v rest ih =>
    obtain ⟨key, value⟩ := v
    rw [List.map_cons, List.lookup_cons]
    cases p with
    | literal s =>
      have hne : s ≠ placeholder key := by
        rintro rfl
        exact hp.1 List.mem_cons_self
      rwa [text, beq_eq_false_iff_ne.mpr hne]
    | hole name =>
      rw [text, expand, List.lookup_cons]
      by_cases h : name = key
      · rw [beq_iff_eq.mpr h, beq_iff_eq.mpr (congrArg placeholder h)]
      · rw [beq_eq_false_iff_ne.mpr h, beq_eq_false_iff_ne.mpr (mt placeholder_inj h)]
        exact ih

/-- A text in which a separator stands before each part but the first. -/
theorem Text.split_append_flatMap {separator : Char} {part : List Char} {rest : List (List Char)}
    (h : separator ∉ part) (hr : ∀ p ∈ rest, separator ∉ p) :
    split separator (part ++ rest.flatMap (separator :: ·)) = part :: rest := by
  induction rest generalizing part with
  | nil => rw [List.flatMap_nil, List.append_nil, split_of_not_mem h]
  | cons next rest ih =>
    rw [List.flatMap_cons, List.cons_append, split_append h, ih (hr next List.mem_cons_self)
      fun p hp => hr p (List.mem_cons_of_mem _ hp)]

/-- All that stands between the slashes of a path, the empty text in front of the first
slash included, and the one behind a slash at the end. -/
def Endpoint.cut (e : Endpoint) : List Piece :=
  .literal [] :: e.segments ++ if e.endsWithSlash then [.literal []] else []

theorem Endpoint.isBraceFree_cut (e : Endpoint) : ∀ p ∈ e.cut, p.IsBraceFree := by
  cases e <;> decide

theorem Endpoint.slash_not_mem_cut (e : Endpoint) : ∀ p ∈ e.cut, '/' ∉ p.text := by
  cases e <;> decide

theorem Endpoint.split_standard (e : Endpoint) :
    Text.split '/' (Templates.standard.get e).toList = e.cut.map Piece.text := by
  have htext : e.pieces.flatMap Piece.text =
      [] ++ (e.cut.tail.map Piece.text).flatMap ('/' :: ·) := by
    rw [List.nil_append, cut, List.cons_append, List.tail_cons, pieces, List.flatMap_append,
      List.flatMap_assoc, List.map_append, List.flatMap_append, List.flatMap_map]
    cases e.endsWithSlash <;> simp [Piece.text]
  rw [Templates.get_standard, String.toList_ofList, htext, Text.split_append_flatMap
    List.not_mem_nil fun s hs => by
      obtain ⟨p, hp, rfl⟩ := List.mem_map.mp hs
      exact e.slash_not_mem_cut p (List.mem_of_mem_tail hp)]
  rfl

namespace Destination

/-- The segments between the slash in front and the one that may stand at the end. -/
def parts (d : Destination) (c : Credentials) : List (List Char) :=
  [d.endpoint.family.toList, c.csk.toList, c.aci.toList, d.endpoint.key.toList] ++
    d.numbers.map fun n => Text.decimalInt n.toInt

/-- The numbers stand in their order, whatever the keys are. -/
theorem map_expand_arguments (d : Destination) (csk aci : List Char) :
    (d.endpoint.arguments.map Piece.hole).map
      (Piece.expand ([("csk", csk), ("aci", aci)] ++ d.slots)) =
        d.numbers.map fun n => Text.decimalInt n.toInt := by
  cases d with
  | page projected model count offset => cases projected <;> rfl
  | look l => cases l <;> rfl

theorem segments_eq (d : Destination) (c : Credentials) :
    d.segments c = [] :: d.parts c ++ if d.endpoint.endsWithSlash then [[]] else [] := by
  have hparts : d.endpoint.segments.map (Piece.expand (d.inputs c)) = d.parts c := by
    rw [Endpoint.segments, parts, List.map_append, inputs, map_expand_arguments]
    rfl
  rw [segments, Endpoint.split_standard, List.map_map]
  refine (List.map_congr_left fun p hp =>
    Piece.getD_lookup_text (d.endpoint.isBraceFree_cut p hp) _).trans ?_
  rw [Endpoint.cut, List.cons_append, List.map_cons, List.map_append, hparts, List.cons_append]
  cases d.endpoint.endsWithSlash <;> rfl

theorem encode_decimalInt (n : Int) : Text.Percent.encode (Text.decimalInt n) = Text.decimalInt n := by
  refine Text.Percent.encode_unreserved fun c hc => ?_
  rcases Text.isDigit_or_of_mem_decimalInt hc with h | rfl
  · simp [Text.Percent.isUnreserved, Char.isAlphanum, h]
  · rfl

theorem encode_family (e : Endpoint) :
    Text.Percent.encode e.family.toList = e.family.toList := by
  cases e <;> decide

theorem encode_key (e : Endpoint) : Text.Percent.encode e.key.toList = e.key.toList := by
  cases e <;> decide

/-- Each segment of an address is what it stands for, encoded. -/
theorem map_expand_segments (d : Destination) (c : Credentials) :
    d.endpoint.segments.map (Piece.expand (c.slots ++ d.slots)) =
      (d.parts c).map Text.Percent.encode := by
  have hfront : ∀ more : List Slot,
      [Piece.literal d.endpoint.family.toList, .hole "csk", .hole "aci",
        .literal d.endpoint.key.toList].map (Piece.expand (c.slots ++ more)) =
        [d.endpoint.family.toList, c.csk.toList, c.aci.toList, d.endpoint.key.toList].map
          Text.Percent.encode := by
    intro more
    simp only [List.map_cons, List.map_nil, encode_family, encode_key]
    rfl
  have hback : (d.endpoint.arguments.map Piece.hole).map (Piece.expand (c.slots ++ d.slots)) =
      (d.numbers.map fun n => Text.decimalInt n.toInt).map Text.Percent.encode := by
    rw [Credentials.slots, map_expand_arguments, List.map_map]
    simp only [Function.comp_def, encode_decimalInt]
  rw [Endpoint.segments, parts, List.map_append, List.map_append, hfront, hback]

end Destination

namespace Destination

variable {d : Destination} {a : Account}

/-- Behind the base stand the segments, each of them encoded. -/
theorem exists_path_address
    (h : a.settings.templates.get d.endpoint = Templates.standard.get d.endpoint) :
    ∃ path, (d.address a).toList = a.settings.base ++ path ∧
      Text.split '/' path = (d.segments a.credentials).map Text.Percent.encode := by
  have hslots : ∀ v ∈ d.slots, v.IsBraceFree := by
    have hnames : ∀ name ∈ d.endpoint.arguments, IsBraceFree name.toList := by
      cases d.endpoint <;> decide
    intro v hv
    unfold slots at hv
    obtain ⟨i, hi, rfl⟩ := List.mem_iff_getElem.mp hv
    rw [List.getElem_zipWith]
    exact Slot.isBraceFree_ofInt (hnames _ (List.getElem_mem _)) _
  refine ⟨_, (Settings.toList_address h a.credentials hslots).trans (List.append_assoc _ _ _), ?_⟩
  have hparts : d.endpoint.segments.flatMap
      (fun p => '/' :: p.expand (a.credentials.slots ++ d.slots)) =
        ((d.parts a.credentials).map Text.Percent.encode).flatMap ('/' :: ·) := by
    rw [← map_expand_segments, List.flatMap_map]
  have hslash : (if d.endpoint.endsWithSlash then ['/'] else []) =
      ((if d.endpoint.endsWithSlash then [[]] else []).map Text.Percent.encode).flatMap
        ('/' :: ·) := by
    cases d.endpoint.endsWithSlash <;> rfl
  rw [hparts, hslash, ← List.flatMap_append, ← List.map_append]
  have hsplit := Text.split_append_flatMap (List.not_mem_nil (a := '/'))
    fun p (hp : p ∈ (d.parts a.credentials ++ if d.endpoint.endsWithSlash then [[]] else []).map
      Text.Percent.encode) => by
        obtain ⟨s, -, rfl⟩ := List.mem_map.mp hp
        exact Text.Percent.slash_not_mem_encode s
  rw [List.nil_append] at hsplit
  rw [hsplit, segments_eq, List.cons_append, List.map_cons, Text.Percent.encode_nil]

/-! ## One address, one destination -/

theorem eq_of_numbers_eq {d d' : Destination} (he : d.endpoint = d'.endpoint)
    (hn : d.numbers = d'.numbers) : d = d' := by
  cases d with
  | page projected model count offset =>
    cases d' with
    | page projected' model' count' offset' =>
      cases projected <;> cases projected' <;> simp_all [endpoint, numbers]
    | look l' => cases projected <;> cases l' <;> simp [endpoint, Lookup.endpoint] at he
  | look l =>
    cases d' with
    | page projected' model' count' offset' =>
      cases projected' <;> cases l <;> simp [endpoint, Lookup.endpoint] at he
    | look l' => cases l <;> cases l' <;> simp_all [endpoint, Lookup.endpoint, numbers]

theorem key_inj : ∀ {e e' : Endpoint}, e.key.toList = e'.key.toList → e = e' := by
  intro e e'
  cases e <;> cases e' <;> decide

/-- The segments tell what they were made from. -/
theorem eq_of_segments_eq {d d' : Destination} {c c' : Credentials}
    (h : d.segments c = d'.segments c') : c = c' ∧ d = d' := by
  rw [segments_eq, segments_eq] at h
  simp only [parts, List.cons_append, List.nil_append, List.cons.injEq, true_and] at h
  obtain ⟨-, hcsk, haci, hkey, hback⟩ := h
  have he := key_inj hkey
  rw [he] at hback
  have hnumbers : d.numbers = d'.numbers :=
    List.map_injective_iff.mpr (fun m n hmn => Int64.toInt_inj.mp (Text.decimalInt_inj hmn))
      (List.append_cancel_right hback)
  exact ⟨congrArg₂ Credentials.mk (String.toList_injective hcsk) (String.toList_injective haci),
    eq_of_numbers_eq he hnumbers⟩

/-- All that can be read off an address with a standard template. -/
theorem address_tells
    (h : a.settings.templates.get d.endpoint = Templates.standard.get d.endpoint) :
    (∀ i : Inquiry, i.destination = d → (i.request a).url = d.address a) ∧
      (∃ path, (d.address a).toList = a.settings.base ++ path ∧
        (Text.split '/' path).mapM Text.Percent.decode? = some (d.segments a.credentials)) ∧
      (∀ (b : Account) (d' : Destination),
        b.settings.templates.get d'.endpoint = Templates.standard.get d'.endpoint →
        b.settings.base = a.settings.base → d'.address b = d.address a →
        b.credentials = a.credentials ∧ d' = d) ∧
      ∀ projected model count offset, d = .page projected model count offset →
        1 ≤ count → 0 ≤ offset →
        Channel.pageBounds? (d.address a) = some (count.toInt.toNat, offset.toInt.toNat) := by
  have hdecode : ∀ {b : Account} {d' : Destination},
      b.settings.templates.get d'.endpoint = Templates.standard.get d'.endpoint →
      ∃ path, (d'.address b).toList = b.settings.base ++ path ∧
        (Text.split '/' path).mapM Text.Percent.decode? = some (d'.segments b.credentials) := by
    intro b d' hb
    obtain ⟨path, hpath, hsplit⟩ := exists_path_address hb
    exact ⟨path, hpath, by rw [hsplit, Text.Percent.mapM_decode?_map_encode]⟩
  refine ⟨fun i hi => hi ▸ url_request i a, hdecode h, fun b d' hb hbase hurl => ?_, ?_⟩
  · obtain ⟨path, hpath, hsegments⟩ := hdecode h
    obtain ⟨path', hpath', hsegments'⟩ := hdecode hb
    rw [hurl, hpath, hbase] at hpath'
    rw [List.append_cancel_left hpath', hsegments'] at hsegments
    exact eq_of_segments_eq (Option.some.inj hsegments)
  · rintro projected model count offset rfl hc ho
    have he : (page projected model count offset).endpoint = .records ∨
        (page projected model count offset).endpoint = .recordsByProjection := by
      cases projected
      · exact .inl rfl
      · exact .inr rfl
    have := Channel.pageBounds?_address he h a.credentials model
      (Int64.le_trans (by decide) hc) ho
    cases projected <;> exact this

/-- An account of which one key holds all that means something in an address, and the
other key is empty. -/
def sampleAccount : Account :=
  ⟨⟨"a/b?\x7baci\x7d#%é", ""⟩, { Settings.standard with url := "http://h//" }⟩

theorem address_tells_sample :
    sampleAccount.settings.templates.get (page true 42 15 30).endpoint =
        Templates.standard.get (page true 42 15 30).endpoint ∧
      (∃ path, ((page true 42 15 30).address sampleAccount).toList = "http://h".toList ++ path ∧
        (Text.split '/' path).mapM Text.Percent.decode? =
          some (["", "api_models", "a/b?\x7baci\x7d#%é", "", "get_records_by_projection", "42", "15",
            "30", ""].map String.toList)) ∧
      Channel.pageBounds? ((page true 42 15 30).address sampleAccount) = some (15, 30) := by
  have h : sampleAccount.settings.templates.get (page true 42 15 30).endpoint =
      Templates.standard.get (page true 42 15 30).endpoint := rfl
  obtain ⟨-, ⟨path, hpath, hdecode⟩, -, hbounds⟩ := address_tells h
  refine ⟨h, ⟨path, hpath, ?_⟩, hbounds true 42 15 30 rfl (by decide) (by decide)⟩
  rw [hdecode]
  decide

end Destination

end RemoteRecords
