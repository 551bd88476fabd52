import RemoteRecords.Proofs.Settings.Template
import RemoteRecords.Proofs.Text.Decimal
import RemoteRecords.Session.Query
import RemoteRecords.Service.Channel

/-!
# Addresses with the standard templates

A standard template is a path of segments: fixed names, the two keys, and the
numbers of the call. The address that it is filled in to has the same segments,
so the page that an address asks for is the one that it was made for.

* `Templates.get_standard`: the segments of the standard templates;
* `Settings.toList_address`: an address, segment by segment;
* `Settings.toList_address_page`: the address of a page, spelled out;
* `Channel.pageBounds?_address`: the count and the offset in the address of a page.
-/

namespace RemoteRecords

/-! ## Numbers in slots -/

theorem Slot.isBraceFree_ofInt {name : String} (h : RemoteRecords.IsBraceFree name.toList)
    (n : Int64) : (Slot.ofInt name n).IsBraceFree :=
  ⟨h, Text.not_mem_decimalInt (by decide) (by decide) _,
    Text.not_mem_decimalInt (by decide) (by decide) _⟩

/-! ## Segments -/

namespace Endpoint

/-- The numbers at the end of the path of an endpoint. -/
def arguments : Endpoint → List String
  | records | recordsByProjection => ["mid", "count", "offset"]
  | recordInfo => ["mid", "rid"]
  | modelInfo | fields => ["mid"]
  | models => []

/-- What the path of an endpoint is about. -/
def family : Endpoint → String
  | recordInfo => "api_records"
  | _ => "api_models"

/-- The segments of the path of an endpoint. -/
def segments (e : Endpoint) : List Piece :=
  [.literal e.family.toList, .hole "csk", .hole "aci", .literal e.key.toList] ++
    e.arguments.map .hole

/-- Whether the path of an endpoint ends with a slash. -/
def endsWithSlash : Endpoint → Bool
  | records | recordsByProjection => true
  | _ => false

/-- The path of an endpoint as a template. -/
def pieces (e : Endpoint) : List Piece :=
  e.segments.flatMap (fun p => [.literal ['/'], p]) ++
    if e.endsWithSlash then [.literal ['/']] else []

theorem isBraceFree_pieces (e : Endpoint) : ∀ p ∈ e.pieces, p.IsBraceFree := by
  cases e <;> decide

end Endpoint

theorem Templates.get_standard (e : Endpoint) :
    standard.get e = String.ofList (e.pieces.flatMap Piece.text) := by
  cases e <;> rfl

/-- The address of an endpoint with its standard template, segment by segment. -/
theorem Settings.toList_address {s : Settings} {e : Endpoint}
    (h : s.templates.get e = Templates.standard.get e) (c : Credentials) {slots : List Slot}
    (hs : ∀ v ∈ slots, v.IsBraceFree) :
    (s.address e c slots).toList =
      s.base ++ e.segments.flatMap (fun p => '/' :: p.expand (c.slots ++ slots)) ++
        if e.endsWithSlash then ['/'] else [] := by
  have hv : ∀ v ∈ c.slots ++ slots, v.IsBraceFree := by
    intro v hv
    rcases List.mem_append.mp hv with hv | hv
    · exact c.isBraceFree_slots v hv
    · exact hs v hv
  have hslash : (if e.endsWithSlash = true then [Piece.literal ['/']] else []).flatMap
      (Piece.expand (c.slots ++ slots)) = if e.endsWithSlash then ['/'] else [] := by
    cases e.endsWithSlash <;> rfl
  rw [address, String.toList_ofList, h, Templates.get_standard, String.toList_ofList,
    fill_text hv e.isBraceFree_pieces, Endpoint.pieces, List.flatMap_append, hslash,
    List.flatMap_assoc, List.append_assoc]
  simp only [List.flatMap_cons, List.flatMap_nil, List.append_nil, Piece.expand,
    List.singleton_append]

/-! ## The page of an address -/

/-- The address of a page as the standard templates have it: the operation with the given
name, the model, the page size and the offset. -/
def Settings.pageText (s : Settings) (c : Credentials) (name : String)
    (model count offset : Int) : List Char :=
  s.base ++ "/api_models/".toList ++ Text.Percent.encode c.csk.toList ++
    '/' :: Text.Percent.encode c.aci.toList ++ '/' :: name.toList ++
    '/' :: Text.decimalInt model ++ '/' :: Text.decimalInt count ++
    '/' :: Text.decimalInt offset ++ ['/']

theorem Settings.toList_address_page {s : Settings} {e : Endpoint}
    (he : e = .records ∨ e = .recordsByProjection)
    (h : s.templates.get e = Templates.standard.get e) (c : Credentials)
    (model : ModelId) (count offset : Int64) :
    (s.address e c [.ofInt "mid" model, .ofInt "count" count, .ofInt "offset" offset]).toList =
      s.pageText c e.key model.toInt count.toInt offset.toInt := by
  have hs : ∀ v ∈ [Slot.ofInt "mid" model, .ofInt "count" count, .ofInt "offset" offset],
      v.IsBraceFree := by
    simp only [List.forall_mem_cons, List.not_mem_nil, false_imp_iff, implies_true, and_true]
    exact ⟨Slot.isBraceFree_ofInt (by decide) _, Slot.isBraceFree_ofInt (by decide) _,
      Slot.isBraceFree_ofInt (by decide) _⟩
  rw [toList_address h c hs]
  rcases he with rfl | rfl <;>
  · simp [pageText, Endpoint.segments, Endpoint.arguments, Endpoint.family,
      Endpoint.endsWithSlash, Piece.expand, Credentials.slots, Slot.ofInt, List.lookup_cons]

theorem Text.slash_not_mem_decimal (n : Nat) : '/' ∉ decimal n := fun h =>
  absurd (isDigit_of_mem_decimal h) (by decide)

namespace Channel

theorem segmentNumber?_decimal {n : Nat} (h : n < UInt64.size) :
    segmentNumber? (Text.decimal n) = some n := by
  have hn : (UInt64.ofNat n).toNat = n := UInt64.toNat_ofNat_of_lt' h
  rw [segmentNumber?, Text.readUInt64_decimal h]
  exact congrArg some hn

/-- The count and the offset that an address ends with. -/
theorem pageBounds?_of_append {count offset : Nat} (hc : count < UInt64.size)
    (ho : offset < UInt64.size) (front : List Char) :
    pageBounds? (String.ofList
      (front ++ '/' :: Text.decimal count ++ '/' :: Text.decimal offset ++ ['/'])) =
      some (count, offset) := by
  have hdigits : ∀ c ∈ Text.decimal offset, (c == '/') = false := by
    intro c hm
    refine beq_eq_false_iff_ne.mpr ?_
    rintro rfl
    exact Text.slash_not_mem_decimal _ hm
  have hd : Text.dropEndWhile (· == '/')
      (front ++ '/' :: Text.decimal count ++ '/' :: Text.decimal offset ++ ['/']) =
        front ++ '/' :: Text.decimal count ++ '/' :: Text.decimal offset := by
    rw [Text.dropEndWhile_append_of_pos (by decide)]
    have := Text.dropEndWhile_append (Text.decimal_ne_nil offset) hdigits
      (front ++ '/' :: Text.decimal count ++ ['/'])
    simpa only [List.append_assoc, List.cons_append, List.nil_append] using this
  rw [pageBounds?, String.toList_ofList, hd,
    Text.split_append_last (Text.slash_not_mem_decimal _),
    Text.split_append_last (Text.slash_not_mem_decimal _), List.reverse_append, List.reverse_append]
  simp only [List.reverse_cons, List.reverse_nil, List.nil_append, List.cons_append]
  rw [segmentNumber?_decimal hc, segmentNumber?_decimal ho]
  rfl

theorem toNat_toInt_lt_size (n : Int64) : n.toInt.toNat < UInt64.size := by
  have := n.toInt_lt
  have hs : UInt64.size = 18446744073709551616 := rfl
  omega

/-- The page that an address of one of the two record endpoints asks for. -/
theorem pageBounds?_address {s : Settings} {e : Endpoint}
    (he : e = .records ∨ e = .recordsByProjection)
    (h : s.templates.get e = Templates.standard.get e) (c : Credentials) (model : ModelId)
    {count offset : Int64} (hc : 0 ≤ count) (ho : 0 ≤ offset) :
    pageBounds? (s.address e c
      [.ofInt "mid" model, .ofInt "count" count, .ofInt "offset" offset]) =
        some (count.toInt.toNat, offset.toInt.toNat) := by
  have hc' := Int64.le_iff_toInt_le.mp hc
  have ho' := Int64.le_iff_toInt_le.mp ho
  rw [← String.ofList_toList (s := s.address e c _), Settings.toList_address_page he h,
    Settings.pageText, Text.decimalInt_of_nonneg hc', Text.decimalInt_of_nonneg ho']
  exact pageBounds?_of_append (toNat_toInt_lt_size count) (toNat_toInt_lt_size offset) _

end Channel

end RemoteRecords
