import Mathlib.Algebra.Ring.Int.Defs
import RemoteRecords.Proofs.Record.Page
import RemoteRecords.Proofs.Session.Query
import RemoteRecords.Proofs.Settings.Address
import RemoteRecords.Session.Run

/-!
# Walks over the pages of a query

A query is run once and then moved to its next page for as long as a page has
items. At a peer that holds records such a walk always comes to its end, and the
pages are the records from the offset of the query on, cut where the page size
says so: none is lost, and none is there twice.

* `Session.Walk`: what a walk gives, page by page;
* `Session.fetch_of_serves`: the page that one request gets;
* `Session.delivers_of_next`, `Session.delivers_of_serves`: the pages from where a
  query stands, by induction on the records that are left;
* `Session.exists_walk_execute`: the pages of a query that is run.
-/

namespace RemoteRecords

namespace Session

/-- The pages of a walk over the query with a number, from the outcome of its
last call on, and the session after it: the next page is asked for until one is
exhausted. There is no such walk if a call fails. -/
inductive Walk (index : Nat) : Except Fault Reply × Session → List Page → Session → Prop
  | stop {p : Page} {s : Session} (h : p.isExhausted = true) :
      Walk index (.ok (.page p), s) [p] s
  | more {p : Page} {s last : Session} {pages : List Page} (h : p.isExhausted = false)
      (rest : Walk index (s.step (.query index .next)) pages last) :
      Walk index (.ok (.page p), s) (p :: pages) last

/-- A session whose peer holds records and whose templates for pages are the
standard ones. -/
structure Serves (s : Session) (records : List Json) : Prop where
  peer : s.channel.peer = .stored records
  length_lt : records.length < 2 ^ 63
  fits : ∀ v ∈ records, v.FitsPage
  template : s.account.settings.templates.records = Templates.standard.records
  projectionTemplate : s.account.settings.templates.recordsByProjection =
    Templates.standard.recordsByProjection

end Session

namespace Query

/-- The offset in force, as a number of records. -/
def skipped (q : Query) : Nat :=
  q.currentOffset.toInt.toNat

/-- The page size in force, as a number of records. -/
def pageSize (q : Query) : Nat :=
  q.effectiveCount.toInt.toNat

/-- The page of records at which a query stands. -/
def pageOf (records : List Json) (q : Query) : Page :=
  let items := (records.drop q.skipped).take q.pageSize
  ⟨Int64.ofNat records.length, Int64.ofNat items.length, Page.recordsOf items⟩

theorem pageSize_pos (q : Query) : 0 < q.pageSize := by
  have := q.toInt_effectiveCount_pos
  rw [pageSize]
  omega

theorem pageSize_advance (q : Query) : q.advance.pageSize = q.pageSize := rfl

theorem skipped_advance (q : Query) :
    q.advance.skipped = min (q.skipped + q.pageSize) (2 ^ 63 - 1) := by
  have ho := q.toInt_currentOffset_nonneg
  have hc := q.toInt_effectiveCount_pos
  rw [skipped, toInt_currentOffset_advance, skipped, pageSize, Int64.toInt_maxValue]
  omega

/-- Past the largest offset there are no records, so the next page starts behind
this one. -/
theorem drop_skipped_advance {records : List Json} (h : records.length < 2 ^ 63) (q : Query) :
    records.drop q.advance.skipped = (records.drop q.skipped).drop q.pageSize := by
  rw [List.drop_drop, skipped_advance]
  by_cases hm : q.skipped + q.pageSize ≤ 2 ^ 63 - 1
  · rw [Nat.min_eq_left hm]
  · rw [Nat.min_eq_right (by omega), List.drop_eq_nil_of_le (by omega),
      List.drop_eq_nil_of_le (by omega)]

end Query

namespace Page

theorem toInt_ofNat {n : Nat} (h : n < 2 ^ 63) : (Int64.ofNat n).toInt = n :=
  Int64.toInt_ofNat_of_lt h

theorem isExhausted_iff (p : Page) : p.isExhausted = true ↔ p.size.toInt = 0 := by
  rw [isExhausted, beq_iff_eq, ← Int64.toInt_inj]
  rfl

end Page

/-! ## One page -/

namespace Session

variable {s : Session} {records : List Json}

theorem Serves.setQuery (h : s.Serves records) (index : Nat) (q : Query) :
    (s.setQuery index q).Serves records :=
  { h with }

theorem Serves.get_endpoint (h : s.Serves records) (q : Query) :
    s.account.settings.templates.get q.endpoint = Templates.standard.get q.endpoint := by
  rcases q.endpoint_eq with e | e
  · rw [e]
    exact h.template
  · rw [e]
    exact h.projectionTemplate

theorem pageBounds?_request (h : s.Serves records) (q : Query) :
    Channel.pageBounds? (q.request s.account).url = some (q.pageSize, q.skipped) := by
  have hc := Int64.le_of_lt q.effectiveCount_pos
  exact Channel.pageBounds?_address q.endpoint_eq (h.get_endpoint q) s.account.credentials q.model
    hc q.currentOffset_nonneg

/-- The page that one request gets. -/
theorem fetch_of_serves (h : s.Serves records) (q : Query) :
    s.fetch q = (.ok (.page (q.pageOf records)),
      { s with channel := s.channel.receive (q.request s.account) }) := by
  have hl : ((records.drop q.skipped).take q.pageSize).length ≤ records.length := by
    rw [List.length_take, List.length_drop]
    omega
  have hf : ∀ v ∈ (records.drop q.skipped).take q.pageSize, v.FitsPage := fun v hv =>
    h.fits v (List.mem_of_mem_drop (List.mem_of_mem_take hv))
  have hr := Page.read_body h.length_lt (Nat.lt_of_le_of_lt hl h.length_lt) hf
  simp only [fetch, exchange, Channel.send, h.peer, pageBounds?_request h, Channel.storedPage,
    Except.bind, hr, Except.map, Query.pageOf]

/-- The session after the request for the page at which a query stands. -/
def fetched (s : Session) (index : Nat) (q : Query) : Session :=
  { s.setQuery index q with channel := s.channel.receive (q.request s.account) }

@[simp] theorem fetched_log (index : Nat) (q : Query) :
    (s.fetched index q).channel.log = s.channel.log ++ [q.request s.account] := rfl

@[simp] theorem fetched_queries (index : Nat) (q : Query) :
    (s.fetched index q).queries = s.queries.set index q := rfl

theorem Serves.fetched (h : s.Serves records) (index : Nat) (q : Query) :
    (s.fetched index q).Serves records :=
  { h with }

theorem fetch_setQuery (h : s.Serves records) (index : Nat) (q : Query) :
    (s.setQuery index q).fetch q = (.ok (.page (q.pageOf records)), s.fetched index q) :=
  fetch_of_serves (h.setQuery index q) q

theorem step_next {index : Nat} {q : Query} (h : s.queries[index]? = some q) :
    s.step (.query index .next) = (s.setQuery index q.advance).fetch q.advance := by
  simp only [step, h, queryStep]

theorem step_execute {index : Nat} {q : Query} (h : s.queries[index]? = some q)
    (columns : Option (List String)) :
    s.step (.query index (.execute columns)) =
      (s.setQuery index (q.project columns)).fetch (q.project columns) := by
  simp only [step, h, queryStep]

end Session

/-! ## Items cut into pages -/

/-- Pages that hold the given items in their order, and one more that is empty. -/
structure IsCut (total size : Nat) (items : List Json) (pages : List Page) : Prop where
  length : pages.length = (items.length + size - 1) / size + 1
  total_eq : ∀ p ∈ pages, p.total.toInt = total
  size_le : ∀ p ∈ pages, p.size.toInt ≤ size
  sum_sizes : (pages.map fun p => p.size.toInt).sum = items.length
  records_eq : pages.flatMap Page.records = Page.recordsOf items

namespace IsCut

theorem nil {total size : Nat} (hs : 0 < size) {p : Page} (ht : p.total.toInt = total)
    (hp : p.size.toInt = 0) (hr : p.records = []) : IsCut total size [] [p] where
  length := by
    rw [List.length_nil, Nat.zero_add, Nat.div_eq_of_lt (by omega)]
    rfl
  total_eq := by simpa using ht
  size_le := by
    simp only [List.mem_singleton, forall_eq, hp]
    omega
  sum_sizes := by simp [hp]
  records_eq := by simp [hr, Page.recordsOf]

/-- One more page takes as many pages as there were, and one. -/
theorem div_add_one {n size : Nat} (hs : 0 < size) (hn : 0 < n) :
    (n + size - 1) / size = (n - size + size - 1) / size + 1 := by
  by_cases h : size ≤ n
  · rw [show n + size - 1 = (n - size + size - 1) + size by omega, Nat.add_div_right _ hs]
  · rw [show n - size + size - 1 = size - 1 by omega,
      Nat.div_eq_of_lt (show size - 1 < size by omega),
      show n + size - 1 = (n - 1) + size by omega, Nat.add_div_right _ hs,
      Nat.div_eq_of_lt (show n - 1 < size by omega)]

theorem cons {total size : Nat} (hs : 0 < size) {items : List Json} (hi : items ≠ []) {p : Page}
    (ht : p.total.toInt = total) (hp : p.size.toInt = (items.take size).length)
    (hr : p.records = Page.recordsOf (items.take size)) {pages : List Page}
    (h : IsCut total size (items.drop size) pages) : IsCut total size items (p :: pages) where
  length := by
    have hn := List.length_pos_iff.mpr hi
    rw [List.length_cons, h.length, List.length_drop, div_add_one hs hn]
  total_eq := by
    intro q hq
    rcases List.mem_cons.mp hq with rfl | hq
    · exact ht
    · exact h.total_eq q hq
  size_le := by
    intro q hq
    rcases List.mem_cons.mp hq with rfl | hq
    · rw [hp, List.length_take]
      omega
    · exact h.size_le q hq
  sum_sizes := by
    rw [List.map_cons, List.sum_cons, h.sum_sizes, hp, List.length_take, List.length_drop]
    omega
  records_eq := by
    rw [List.flatMap_cons, h.records_eq, hr, ← Page.recordsOf_append, List.take_append_drop]

end IsCut

/-! ## All pages -/

namespace Session

/-- A walk is determined by where it starts. -/
theorem Walk.unique {index : Nat} {outcome : Except Fault Reply × Session}
    {pages pages' : List Page} {last last' : Session} (h : Walk index outcome pages last)
    (h' : Walk index outcome pages' last') : pages = pages' ∧ last = last' := by
  induction h generalizing pages' last' with
  | stop he =>
    cases h' with
    | stop _ => exact ⟨rfl, rfl⟩
    | more hm _ =>
      rw [he] at hm
      cases hm
  | more he _ ih =>
    cases h' with
    | stop hs =>
      rw [he] at hs
      cases hs
    | more _ rest =>
      obtain ⟨rfl, rfl⟩ := ih rest
      exact ⟨rfl, rfl⟩

/-- A walk from the page at which a query stands gives the records behind its
offset, one page a request. -/
def Delivers (s : Session) (records : List Json) (index : Nat) (q : Query) : Prop :=
  ∃ pages last sent, Walk index ((s.setQuery index q).fetch q) pages last ∧
    last.channel.log = s.channel.log ++ sent ∧ sent.length = pages.length ∧
    IsCut records.length q.pageSize (records.drop q.skipped) pages

variable {records : List Json} {index : Nat} {s : Session}

/-- Behind the last record stands one page, and it is empty. -/
theorem delivers_of_drop_eq_nil (h : s.Serves records) {q : Query}
    (hd : records.drop q.skipped = []) : s.Delivers records index q := by
  have hitems : (records.drop q.skipped).take q.pageSize = [] := by rw [hd, List.take_nil]
  have htotal : (q.pageOf records).total.toInt = records.length := Page.toInt_ofNat h.length_lt
  have hsize : (q.pageOf records).size.toInt = 0 := by
    rw [Query.pageOf, hitems]
    rfl
  have hrecords : (q.pageOf records).records = [] := by
    rw [Query.pageOf, hitems]
    rfl
  refine ⟨[q.pageOf records], s.fetched index q, [q.request s.account], ?_, rfl, rfl, ?_⟩
  · rw [fetch_setQuery h]
    exact .stop ((Page.isExhausted_iff _).mpr hsize)
  · rw [hd]
    exact .nil q.pageSize_pos htotal hsize hrecords

/-- A page with items, and what the walk gives from the next page on. -/
theorem delivers_of_next (h : s.Serves records) (hi : index < s.queries.length) {q : Query}
    (hd : records.drop q.skipped ≠ [])
    (hrest : (s.fetched index q).Delivers records index q.advance) :
    s.Delivers records index q := by
  have hlen := h.length_lt
  have hstep := q.pageSize_pos
  have hpos := List.length_pos_iff.mpr hd
  rw [List.length_drop] at hpos
  have htotal : (q.pageOf records).total.toInt = records.length := Page.toInt_ofNat hlen
  have hsize : (q.pageOf records).size.toInt =
      ((records.drop q.skipped).take q.pageSize).length :=
    Page.toInt_ofNat (by rw [List.length_take, List.length_drop]; omega)
  have hne : (q.pageOf records).isExhausted = false := by
    rw [Bool.eq_false_iff, ne_eq, Page.isExhausted_iff, hsize, List.length_take, List.length_drop]
    omega
  obtain ⟨pages, last, sent, hwalk, hlog, hsent, hcut⟩ := hrest
  rw [Query.drop_skipped_advance hlen, Query.pageSize_advance] at hcut
  refine ⟨q.pageOf records :: pages, last, q.request s.account :: sent, ?_, ?_, ?_, ?_⟩
  · rw [fetch_setQuery h]
    refine .more hne ?_
    rw [step_next (List.getElem?_set_self hi)]
    exact hwalk
  · rw [hlog, fetched_log, List.append_assoc, List.singleton_append]
  · rw [List.length_cons, List.length_cons, hsent]
  · exact .cons hstep hd htotal hsize rfl hcut

/-- The pages from where a query stands, by induction on the records that are
left. -/
theorem delivers_of_serves (k : Nat) (h : s.Serves records) (hi : index < s.queries.length)
    (q : Query) (hk : records.length - q.skipped ≤ k) : s.Delivers records index q := by
  induction k generalizing s q with
  | zero => exact delivers_of_drop_eq_nil h (List.drop_eq_nil_of_le (by omega))
  | succ k ih =>
    by_cases hd : records.drop q.skipped = []
    · exact delivers_of_drop_eq_nil h hd
    · refine delivers_of_next h hi hd (ih (h.fetched index q) ?_ q.advance ?_)
      · rw [fetched_queries, List.length_set]
        exact hi
      · have hlen := h.length_lt
        have hstep := q.pageSize_pos
        rw [Query.skipped_advance]
        omega

/-- A query that is run and then moved on for as long as there are records gives
each record from its offset on once, in order. -/
theorem exists_walk_execute (h : s.Serves records) {q : Query}
    (hq : s.queries[index]? = some q) (columns : Option (List String)) :
    ∃ pages last sent, Walk index (s.step (.query index (.execute columns))) pages last ∧
      last.channel.log = s.channel.log ++ sent ∧
      sent.length = (records.length - q.skipped + q.pageSize - 1) / q.pageSize + 1 ∧
      (∀ p ∈ pages, p.total.toInt = records.length ∧ p.size.toInt ≤ q.effectiveCount.toInt) ∧
      (pages.map fun p => p.size.toInt).sum = (records.length - q.skipped : Nat) ∧
      pages.flatMap Page.records =
        ((records.drop q.skipped).filterMap Json.members?).map Record.ofPageItem := by
  have hi : index < s.queries.length := (List.getElem?_eq_some_iff.mp hq).1
  obtain ⟨pages, last, sent, hwalk, hlog, hsent, hcut⟩ :=
    delivers_of_serves _ h hi (q.project columns) (Nat.le_refl _)
  have hsk : (q.project columns).skipped = q.skipped := rfl
  have hps : (q.project columns).pageSize = q.pageSize := rfl
  rw [hsk, hps] at hcut
  refine ⟨pages, last, sent, ?_, hlog, ?_, ?_, ?_, ?_⟩
  · rw [step_execute hq]
    exact hwalk
  · rw [hsent, hcut.length, List.length_drop]
  · intro p hp
    have hc := q.toInt_effectiveCount_pos
    have := hcut.size_le p hp
    rw [Query.pageSize, Int.toNat_of_nonneg (by omega)] at this
    exact ⟨hcut.total_eq p hp, this⟩
  · rw [hcut.sum_sizes, List.length_drop]
  · rw [hcut.records_eq, Page.recordsOf, List.map_filterMap]

/-- Three items, of which one is no record. -/
def sampleItems : List Json :=
  [.object [("id", .text "1")], .null, .object [("id", .text "2")]]

/-- A query of two items a page, at a peer with those items. -/
def sampleSession : Session :=
  { Session.start ⟨⟨"key", "client"⟩, .standard⟩ (.stored sampleItems) with
    queries := [{ Query.ofModel 7 with count := 2 }] }

/-- Three requests give two records: the third page is empty. -/
theorem exists_walk_sample :
    sampleSession.Serves sampleItems ∧ ∃ pages last sent,
      Walk 0 (sampleSession.step (.query 0 (.execute none))) pages last ∧
      last.channel.log = sent ∧ sent.length = 3 ∧
      (∀ p ∈ pages, p.total.toInt = 3 ∧ p.size.toInt ≤ 2) ∧
      (pages.map fun p => p.size.toInt).sum = 3 ∧
      pages.flatMap Page.records = [[("id", .text "1")], [("id", .text "2")]] := by
  have h : sampleSession.Serves sampleItems :=
    { peer := rfl
      length_lt := by decide
      fits := by
        simp only [sampleItems, List.forall_mem_cons, List.not_mem_nil, false_imp_iff,
          implies_true, and_true]
        exact ⟨⟨by decide, by decide⟩, ⟨by decide, by decide⟩, ⟨by decide, by decide⟩⟩
      template := rfl
      projectionTemplate := rfl }
  exact ⟨h, exists_walk_execute h (show sampleSession.queries[0]? = some _ from rfl) none⟩

end Session

end RemoteRecords
