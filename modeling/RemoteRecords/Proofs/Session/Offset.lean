import Mathlib.Algebra.Ring.Int.Defs
import RemoteRecords.Proofs.Session.Call
import RemoteRecords.Proofs.Session.Query
import RemoteRecords.Proofs.Settings.Address

/-!
# Offsets at the limit of 64 bits

The offset of a query may be set to anything and is moved on page by page, each time
cut off at the largest integer of 64 bits. Computed with integers of any size and cut
off once, where it is looked at, it is the same: no sum ever wraps around, whatever
was set before and whatever fails in between.

* `Reckoning`: the offset and the page size, computed without a limit;
* `Query.Reckons.after`: a call does to a query what it does to its reckoning;
* `Session.run_reckons`: the offset after a run, and what is sent of it.
-/

namespace RemoteRecords

/-! ## Without a limit -/

/-- Where a query would stand if there were no largest offset, and its page size. -/
structure Reckoning where
  offset : Int
  size : Int

namespace Reckoning

/-- The start, and the usual page size. -/
def start : Reckoning :=
  ⟨0, 15⟩

/-- The reckoning after a call. An offset before the start means the start, and a page
size that is not positive means the usual one. -/
def after (r : Reckoning) : QueryCall → Reckoning
  | .edit (.setOffset offset) => { r with offset := max offset.toInt 0 }
  | .edit (.setCount count) => { r with size := if 0 < count.toInt then count.toInt else 15 }
  | .next => { r with offset := r.offset + r.size }
  | .edit _ | .execute _ => r

/-- The offset, as far as 64 bits with a sign go. -/
def cut (r : Reckoning) : Int :=
  min r.offset (2 ^ 63 - 1)

end Reckoning

/-! ## One query -/

namespace Query

/-- A query that stands where a reckoning says, as far as there are offsets. -/
structure Reckons (q : Query) (r : Reckoning) : Prop where
  offset : q.currentOffset.toInt = r.cut
  size : q.effectiveCount.toInt = r.size

theorem reckons_ofModel (model : ModelId) : (ofModel model).Reckons .start :=
  ⟨rfl, rfl⟩

variable {q : Query} {r : Reckoning}

theorem Reckons.size_pos (h : q.Reckons r) : 0 < r.size := by
  rw [← h.size]
  exact q.toInt_effectiveCount_pos

/-- The offset is cut off in each step, but nothing is lost that would count: what is
cut off of a sum stays beyond the limit when more is added. -/
theorem Reckons.advance (h : q.Reckons r) : q.advance.Reckons (r.after .next) where
  offset := by
    have hpos := h.size_pos
    rw [toInt_currentOffset_advance, h.offset, h.size, Int64.toInt_maxValue]
    simp only [Reckoning.cut, Reckoning.after]
    -- A sum of what is cut off and a positive size is beyond the limit with or without the cut.
    omega
  size := h.size

theorem reckons_setOffset (h : q.Reckons r) (offset : Int64) :
    (q.after (.edit (.setOffset offset))).Reckons (r.after (.edit (.setOffset offset))) where
  offset := by
    have hle := offset.toInt_le
    rw [Int64.toInt_maxValue] at hle
    rw [toInt_currentOffset]
    show max offset.toInt 0 = min (max offset.toInt 0) (2 ^ 63 - 1)
    omega
  size := h.size

theorem reckons_setCount (h : q.Reckons r) (count : Int64) :
    (q.after (.edit (.setCount count))).Reckons (r.after (.edit (.setCount count))) where
  offset := h.offset
  size := by
    show (if 0 < count then count else usualCount).toInt = if 0 < count.toInt then count.toInt else 15
    have hiff : 0 < count ↔ 0 < count.toInt := Int64.lt_iff_toInt_lt
    by_cases hc : 0 < count
    · rw [if_pos hc, if_pos (hiff.mp hc)]
    · rw [if_neg hc, if_neg (mt hiff.mpr hc)]
      rfl

/-- A call does to a query what it does to its reckoning. -/
theorem Reckons.after (h : q.Reckons r) (c : QueryCall) : (q.after c).Reckons (r.after c) := by
  cases c with
  | next => exact h.advance
  | execute columns => exact ⟨h.offset, h.size⟩
  | edit e =>
    cases e with
    | setOffset offset => exact reckons_setOffset h offset
    | setCount count => exact reckons_setCount h count
    | add c =>
      cases c with
      | clause k => cases k <;> exact ⟨h.offset, h.size⟩
      | _ => exact ⟨h.offset, h.size⟩
    | direct ascending =>
      rw [Query.after, edited_direct]
      exact ⟨h.offset, h.size⟩
    | _ => exact ⟨h.offset, h.size⟩

theorem Reckons.foldl (h : q.Reckons r) (history : List QueryCall) :
    (history.foldl Query.after q).Reckons (history.foldl Reckoning.after r) := by
  induction history generalizing q r with
  | nil => exact h
  | cons c rest ih => exact ih (h.after c)

/-- The next page is further on, unless there is no offset beyond. -/
theorem currentOffset_lt_advance (h : q.currentOffset ≠ Int64.maxValue) :
    q.currentOffset < q.advance.currentOffset := by
  have hpos := q.toInt_effectiveCount_pos
  have hle := q.currentOffset.toInt_le
  have hne : q.currentOffset.toInt ≠ Int64.maxValue.toInt := mt Int64.toInt_inj.mp h
  rw [Int64.lt_iff_toInt_lt, toInt_currentOffset_advance]
  omega

theorem currentOffset_le_advance (q : Query) : q.currentOffset ≤ q.advance.currentOffset := by
  have hpos := q.toInt_effectiveCount_pos
  have hle := q.currentOffset.toInt_le
  rw [Int64.le_iff_toInt_le, toInt_currentOffset_advance]
  omega

theorem Reckons.slots_eq (h : q.Reckons r) :
    q.slots = [Slot.ofInt "mid" q.model, ("count", Text.decimalInt r.size),
      ("offset", Text.decimalInt r.cut)] := by
  rw [← h.size, ← h.offset]
  rfl

end Query

/-! ## Runs -/

namespace Session

/-- A session in which the query with a number stands where a reckoning says, goes on
from there, and asks for pages there. -/
structure Reckoned (s : Session) (index : Nat) (q : Query) (r : Reckoning) : Prop where
  get : s.queries[index]? = some q
  offset : q.currentOffset.toInt = r.cut
  nonneg : 0 ≤ q.currentOffset
  /-- The next page is never before this one, and behind it if there is an offset behind. -/
  next : ∃ moved, (s.step (.query index .next)).2.queries[index]? = some moved ∧
    q.currentOffset ≤ moved.currentOffset ∧
    (q.currentOffset ≠ Int64.maxValue → q.currentOffset < moved.currentOffset)
  /-- A page is asked for with the offset and the page size as they are with the call itself,
  and these are the last two segments of the address that the standard template gives. -/
  request : ∀ c, c.asks = true → ∃ e params url,
    (e = .records ∨ e = .recordsByProjection) ∧ 0 < (r.after c).size ∧
      (s.step (.query index c)).2.channel.log = s.channel.log ++ [⟨.post, url, params⟩] ∧
      url = s.account.address e [.ofInt "mid" q.model,
        ("count", Text.decimalInt (r.after c).size),
        ("offset", Text.decimalInt (r.after c).cut)] ∧
      (s.account.settings.templates.get e = Templates.standard.get e →
        url.toList = s.account.settings.pageText s.account.credentials e.key q.model.toInt
          (r.after c).size (r.after c).cut ∧
        Channel.pageBounds? url = some ((r.after c).size.toNat, (r.after c).cut.toNat))

variable {a : Account} {script : List (Except Fault String)} {log : List Request}
  {queries : List Query} {index : Nat} {q : Query} {r : Reckoning}

theorem reckoned_of_reckons (h : queries[index]? = some q) (hr : q.Reckons r) :
    (scripted a script log queries).Reckoned index q r where
  get := h
  offset := hr.offset
  nonneg := q.currentOffset_nonneg
  next := by
    refine ⟨q.advance, ?_, q.currentOffset_le_advance, Query.currentOffset_lt_advance⟩
    rw [step_scripted]
    exact Call.getElem?_effect_query h .next
  request := by
    intro c hc
    have hnext := hr.after c
    rw [← q.model_after c, ← hnext.slots_eq, ← hnext.size, ← hnext.offset]
    refine ⟨(q.after c).endpoint, [("criteria", (q.after c).payload)], _, (q.after c).endpoint_eq,
      (q.after c).toInt_effectiveCount_pos, ?_, rfl, fun hstandard => ⟨?_, ?_⟩⟩
    · rw [step_page h hc]
      rfl
    · exact Settings.toList_address_page (q.after c).endpoint_eq hstandard _ _ _ _
    · exact Channel.pageBounds?_address (q.after c).endpoint_eq hstandard _ _
        (Int64.le_of_lt (q.after c).effectiveCount_pos) (q.after c).currentOffset_nonneg

/-- After every run a query stands where its calls say when they are added up without
a limit, as far as there are offsets, and that is what it sends. -/
theorem run_reckons (a : Account) (script : List (Except Fault String)) (log : List Request)
    {queries : List Query} {index : Nat} {model : ModelId}
    (h : queries[index]? = some (.ofModel model)) (calls : List Call) :
    ∃ q, ((scripted a script log queries).run calls).2.Reckoned index q
      ((Call.own index calls).foldl Reckoning.after .start) := by
  rw [run_scripted]
  exact ⟨_, reckoned_of_reckons (Call.getElem?_foldl_effect h calls)
    ((Query.reckons_ofModel model).foldl _)⟩

/-- Two steps over the limit, of which the first fails, with another query between. -/
def sampleMoves : List Call := [
  .query 0 (.edit (.setOffset (-4))),
  .query 0 (.edit (.setOffset 9223372036854775806)),
  .query 0 .next,
  .query 1 .next,
  .query 0 (.edit (.setCount 9223372036854775807)),
  .query 0 .next]

/-- The session after these calls. -/
def sampleMoved : Session :=
  ((scripted ⟨⟨"key", "client"⟩, .standard⟩ [.error .unreachable] []
    [.ofModel 7, .ofModel 8]).run sampleMoves).2

theorem run_reckons_sample :
    [Query.ofModel 7, Query.ofModel 8][0]? = some (.ofModel 7) ∧
      ((Call.own 0 sampleMoves).foldl Reckoning.after .start).offset = 18446744073709551628 ∧
      (∃ q, sampleMoved.Reckoned 0 q ((Call.own 0 sampleMoves).foldl Reckoning.after .start) ∧
        q.currentOffset = Int64.maxValue) ∧
      sampleMoved.channel.log.map Request.url =
        ["7/15/9223372036854775807/", "8/15/15/", "7/9223372036854775807/9223372036854775807/"].map
          ("http://api.dynamicloud.org/api_models/key/client/get_records/" ++ ·) ∧
      ∃ sent, (sampleMoved.step (.query 0 (.execute none))).2.channel.log =
          sampleMoved.channel.log ++ [sent] ∧
        Channel.pageBounds? sent.url = some (9223372036854775807, 9223372036854775807) := by
  have h : [Query.ofModel 7, Query.ofModel 8][0]? = some (.ofModel 7) := rfl
  obtain ⟨q, hq⟩ := run_reckons ⟨⟨"key", "client"⟩, .standard⟩ [.error .unreachable] [] h
    sampleMoves
  refine ⟨h, rfl, ⟨q, hq, Int64.toInt_inj.mp (hq.offset.trans rfl)⟩, by decide +kernel, ?_⟩
  obtain ⟨e, params, url, -, -, hlog, -, hstandard⟩ := hq.request (.execute none) rfl
  exact ⟨_, hlog, (hstandard rfl).2⟩

end Session

end RemoteRecords
