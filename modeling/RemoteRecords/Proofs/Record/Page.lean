import RemoteRecords.Proofs.Json.RoundTrip
import RemoteRecords.Record.Page

/-!
# Pages read back

A page in an answer stands three levels deep, so its items may nest up to 124
levels. The page that is read from the body of a page has the same total, the
same size and the records among the items, if both numbers fit 64 bits with a
sign. A larger total is a missing one.

* `read_body_of_ofJson`: a body is read as the answer that it was made from;
* `read_body`: the page in the body of a page;
* `read_body_of_le_total`, `read_body_of_lt_depth`: the bodies without a page;
* `body_read_back`: all of it, for each total and each list of items.
-/

namespace RemoteRecords

/-- An item that is read back from a page. -/
def Json.FitsPage (v : Json) : Prop :=
  v.depth ≤ 124 ∧ v.readsBack = true

/-- An item that is read back by itself is read back from a page, if it leaves room for
the levels around it. -/
theorem Json.FitsPage.of_read {v : Json} (hd : v.depth ≤ 124)
    (h : Json.read v.compact = some v) : v.FitsPage := by
  have hmax : v.depth ≤ Json.maxDepth := Nat.le_trans hd (by decide)
  exact ⟨hd, (Json.read_compact_iff hmax).mp h⟩

namespace Page

theorem depth_answer (total : UInt64) (items : List Json) :
    (answer total items).depth = Json.depthItems items + 3 := by
  simp only [answer, natural, Json.depth, Json.depthMembers]
  omega

theorem readsBack_answer (total : UInt64) {items : List Json}
    (h : ∀ v ∈ items, v.readsBack = true) : (answer total items).readsBack = true := by
  have hi : Json.itemsReadBack items = true := by
    rw [Json.itemsReadBack_eq_all, List.all_eq_true]
    exact h
  simp only [answer, natural, Json.readsBack, Json.membersReadBack, Json.Number.readsBack_integer,
    hi, Bool.and_true, List.map_cons, List.map_nil]
  decide

/-- A body is read as the answer that it was made from. -/
theorem read_body_of_ofJson (total : UInt64) {items : List Json} (h : ∀ v ∈ items, v.FitsPage) :
    read (body total items) = ofJson (answer total items) := by
  have hd : (answer total items).depth ≤ Json.maxDepth := by
    rw [depth_answer]
    have := Json.depthItems_le_iff.mpr fun v hv => (h v hv).1
    show _ ≤ 127
    omega
  have hr := readsBack_answer total fun v hv => (h v hv).2
  rw [read, body, String.toList_ofList, Json.read_compact hd hr]

theorem int64?_natural {n : Nat} (h : n < 2 ^ 63) :
    Json.int64? (natural (UInt64.ofNat n)) = some (Int64.ofNat n) := by
  have hn : (UInt64.ofNat n).toNat = n :=
    UInt64.toNat_ofNat_of_lt' (show n < 2 ^ 64 by omega)
  have hle : ((UInt64.ofNat n).toNat : Int) ≤ Int64.maxValue.toInt := by
    rw [hn, Int64.toInt_maxValue]
    omega
  rw [natural, Json.int64?, Json.Number.int64?, if_pos hle, hn]
  rfl

theorem requiredAs_eq_ok {α : Type} {cast? : Json → Option α} {name : String} {v member : Json}
    {a : α} (hm : v.get? name = some member) (ha : cast? member = some a) :
    requiredAs cast? name v = .ok a := by
  rw [requiredAs, hm, Option.bind_some, ha]

theorem ofJson_eq_ok {v data : Json} {total size : Int64} {items : List Json}
    (hd : required "records" v = .ok data) (ht : requiredAs Json.int64? "total" data = .ok total)
    (hs : requiredAs Json.int64? "size" data = .ok size)
    (hi : requiredAs Json.items? "records" data = .ok items) :
    ofJson v = .ok ⟨total, size, recordsOf items⟩ := by
  simp only [ofJson, hd, ht, hs, hi, bind, Except.bind, pure, Except.pure]

/-- What an answer holds of its page. -/
def data (total : UInt64) (items : List Json) : Json :=
  .object [("total", natural total), ("size", natural (UInt64.ofNat items.length)),
    ("records", .array items)]

theorem get?_data_total (total : UInt64) (items : List Json) :
    (data total items).get? "total" = some (natural total) := rfl

theorem get?_data_size (total : UInt64) (items : List Json) :
    (data total items).get? "size" = some (natural (UInt64.ofNat items.length)) := rfl

theorem get?_data_records (total : UInt64) (items : List Json) :
    (data total items).get? "records" = some (.array items) := rfl

theorem ofJson_answer {total : Nat} (ht : total < 2 ^ 63) {items : List Json}
    (hs : items.length < 2 ^ 63) :
    ofJson (answer (UInt64.ofNat total) items) =
      .ok ⟨Int64.ofNat total, Int64.ofNat items.length, recordsOf items⟩ :=
  ofJson_eq_ok rfl (requiredAs_eq_ok (get?_data_total _ _) (int64?_natural ht))
    (requiredAs_eq_ok (get?_data_size _ _) (int64?_natural hs))
    (requiredAs_eq_ok (get?_data_records _ _) rfl)

/-- The page in the body of a page. -/
theorem read_body {total : Nat} (ht : total < 2 ^ 63) {items : List Json}
    (hs : items.length < 2 ^ 63) (h : ∀ v ∈ items, v.FitsPage) :
    read (body (UInt64.ofNat total) items) =
      .ok ⟨Int64.ofNat total, Int64.ofNat items.length, recordsOf items⟩ := by
  rw [read_body_of_ofJson _ h, ofJson_answer ht hs]

/-- A total beyond 64 bits with a sign counts as a missing one. -/
theorem ofJson_answer_of_le_total {total : UInt64} (h : 2 ^ 63 ≤ total.toNat) (items : List Json) :
    ofJson (answer total items) = .error (.missingField "total") := by
  have hlt : ¬(total.toNat : Int) ≤ Int64.maxValue.toInt := by
    rw [Int64.toInt_maxValue]
    omega
  have hnone : Json.int64? (natural total) = none := by
    rw [natural, Json.int64?, Json.Number.int64?, if_neg hlt]
  have hdata : required "records" (answer total items) = .ok (data total items) := rfl
  have htotal : requiredAs Json.int64? "total" (data total items) =
      .error (.missingField "total") := by
    rw [requiredAs, get?_data_total, Option.bind_some, hnone]
  rw [ofJson, hdata]
  simp only [htotal, bind, Except.bind]

theorem read_body_of_le_total {total : UInt64} (h : 2 ^ 63 ≤ total.toNat) {items : List Json}
    (hf : ∀ v ∈ items, v.FitsPage) :
    read (body total items) = .error (.missingField "total") := by
  rw [read_body_of_ofJson total hf, ofJson_answer_of_le_total h]

/-- One item that nests too deep takes the whole page with it. -/
theorem read_body_of_lt_depth (total : UInt64) {items : List Json}
    (h : ∃ v ∈ items, 124 < v.depth) : read (body total items) = .error .malformed := by
  have hdepth : Json.maxDepth < (answer total items).depth := by
    obtain ⟨v, hv, hlt⟩ := h
    have hle := Json.depthItems_le_iff.mp (Nat.le_refl (Json.depthItems items)) v hv
    rw [depth_answer]
    show 127 < _
    omega
  rw [read, body, String.toList_ofList, Json.read_compact_of_lt_depth hdepth]

theorem recordsOf_append (front back : List Json) :
    recordsOf (front ++ back) = recordsOf front ++ recordsOf back :=
  List.filterMap_append

/-- The body of a page is read as that page. It is refused for its total exactly if that
does not fit 64 bits with a sign, and as a text exactly if an item nests too deep. Items
are read back by themselves; a list holds fewer than `2 ^ 63` of them. -/
theorem body_read_back (total : UInt64) (items : List Json) :
    ((∀ v ∈ items, v.depth ≤ 124 ∧ Json.read v.compact = some v) →
      (total.toNat < 2 ^ 63 → items.length < 2 ^ 63 →
        ∃ p, read (body total items) = .ok p ∧ p.total.toInt = total.toNat ∧
          p.size.toInt = items.length ∧
          p.records = (items.filterMap Json.members?).map Record.ofPageItem) ∧
      (2 ^ 63 ≤ total.toNat → read (body total items) = .error (.missingField "total"))) ∧
    ((∃ v ∈ items, 124 < v.depth) → read (body total items) = .error .malformed) := by
  refine ⟨fun h => ?_, read_body_of_lt_depth total⟩
  have hf : ∀ v ∈ items, v.FitsPage := fun v hv => .of_read (h v hv).1 (h v hv).2
  refine ⟨fun ht hs => ?_, fun ht => read_body_of_le_total ht hf⟩
  have hread := read_body ht hs hf
  rw [UInt64.ofNat_toNat] at hread
  refine ⟨_, hread, Int64.toInt_ofNat_of_lt ht, Int64.toInt_ofNat_of_lt hs, ?_⟩
  rw [List.map_filterMap]
  rfl

/-- A number, an object and an array as items, which take three levels. -/
def sampleItem : Json :=
  .object [("id", .number (.integer 7 (by decide))), ("tags", .array [.array [.text "a"]])]

/-- An array with as many arrays in one another as it says. -/
def nested : Nat → Json
  | 0 => .null
  | n + 1 => .array [nested n]

theorem body_read_back_sample :
    (∀ v ∈ [sampleItem, .null, nested 124], v.depth ≤ 124 ∧ Json.read v.compact = some v) ∧
      (∃ p, read (body 9 [sampleItem, .null, nested 124]) = .ok p ∧ p.total.toInt = 9 ∧
        p.size.toInt = 3 ∧ p.records.length = 1) ∧
      read (body 9223372036854775808 [sampleItem, .null, nested 124]) =
        .error (.missingField "total") ∧
      read (body 9 [sampleItem, nested 125]) = .error .malformed := by
  have hback : ∀ v ∈ [sampleItem, .null, nested 124],
      v.depth ≤ 124 ∧ Json.read v.compact = some v := by
    simp only [List.forall_mem_cons, List.not_mem_nil, false_imp_iff, implies_true, and_true]
    refine ⟨⟨by decide, Json.read_compact (by decide) (by decide)⟩,
      ⟨by decide, Json.read_compact (by decide) (by decide)⟩,
      ⟨by decide +kernel, Json.read_compact (by decide +kernel) (by decide +kernel)⟩⟩
  obtain ⟨p, hread, ht, hs, hrecords⟩ := ((body_read_back 9 _).1 hback).1 (by decide) (by decide)
  refine ⟨hback, ⟨p, hread, ht, hs, ?_⟩, ((body_read_back _ _).1 hback).2 (by decide),
    (body_read_back _ _).2 ⟨nested 125, by simp, by decide +kernel⟩⟩
  rw [hrecords]
  rfl

end Page

end RemoteRecords
