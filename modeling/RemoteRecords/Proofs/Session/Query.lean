import RemoteRecords.Session.Query

/-!
# Offsets and page sizes as integers

The offset and the page size in force, computed with integers of any size. Only
the step to the next page can leave the 64 bits, and it stays at the largest
offset then.

* `toInt_currentOffset`: the offset in force is the one that was set, or the start;
* `toInt_currentOffset_advance`: the next page starts where this one ends, as far
  as there are offsets.
-/

namespace RemoteRecords.Query

theorem toInt_currentOffset (q : Query) : q.currentOffset.toInt = max q.offset.toInt 0 := by
  have hz : (0 : Int64).toInt = 0 := rfl
  unfold currentOffset
  split
  · next h =>
    have := Int64.lt_iff_toInt_lt.mp h
    omega
  · next h =>
    have := mt Int64.lt_iff_toInt_lt.mpr h
    omega

theorem toInt_currentOffset_nonneg (q : Query) : 0 ≤ q.currentOffset.toInt := by
  rw [toInt_currentOffset]
  omega

theorem toInt_effectiveCount_pos (q : Query) : 0 < q.effectiveCount.toInt :=
  Int64.lt_iff_toInt_lt.mp q.effectiveCount_pos

theorem toInt_addUpTo {a b : Int64} (ha : 0 ≤ a.toInt) (hb : 0 ≤ b.toInt) :
    (addUpTo a b).toInt = min (a.toInt + b.toInt) Int64.maxValue.toInt := by
  rw [addUpTo, Int64.toInt_maxValue]
  exact Int64.toInt_ofInt_of_le (by omega) (by omega)

/-- The next page starts where this one ends, as far as there are offsets. -/
theorem toInt_currentOffset_advance (q : Query) :
    q.advance.currentOffset.toInt =
      min (q.currentOffset.toInt + q.effectiveCount.toInt) Int64.maxValue.toInt := by
  have ho := q.toInt_currentOffset_nonneg
  have hc := q.toInt_effectiveCount_pos
  rw [toInt_currentOffset, advance, toInt_addUpTo ho (by omega), Int64.toInt_maxValue]
  omega

theorem endpoint_eq (q : Query) :
    q.endpoint = .records ∨ q.endpoint = .recordsByProjection := by
  unfold endpoint
  split
  · exact .inl rfl
  · exact .inl rfl
  · exact .inr rfl

end RemoteRecords.Query
