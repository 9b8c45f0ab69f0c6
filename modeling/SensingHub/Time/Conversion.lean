import SensingHub.Time.Refresh

/-!
# How far the two conversions agree after a refresh

A refresh stores the timestamp computed with the offset before it, and the result is computed with
the offset after it. So by how much the offset moved decides whether the timestamp just returned
lies in the update period that starts at the stored one: `conversion_settled` gives the exact range,
for the conversion back and for later QTimer timestamps.
-/

namespace SensingHub.Time

open Checked

namespace TimeUtil

/-- No refresh is due, exactly: the timestamp is not positive, or lies in the update period that
starts at the last one. -/
theorem updateDue_eq_false_iff {s : TimeUtil} {androidTS : Int64} :
    s.updateDue androidTS false = some false ↔ androidTS.toInt ≤ 0 ∨
      (s.mLastRealtimeNs.toInt ≤ androidTS.toInt ∧
        androidTS.toInt < s.mLastRealtimeNs.toInt + 60000000000) := by
  cases hdue : s.updateDue androidTS false with
  | none =>
    obtain ⟨hpos, -, hfar⟩ := updateDue_eq_none_iff.1 hdue
    simp only [reduceCtorEq, false_iff]
    omega
  | some due =>
    have hiff := refreshes_iff_of_updateDue hdue
    simp only [Refreshes, Bool.false_eq_true, false_or] at hiff
    rw [Option.some.injEq, ← Bool.not_eq_true, ← hiff]
    omega

/-- A conversion to a QTimer timestamp that does not refresh. -/
theorem elapsedRealtimeNanoToQtimerNs_iff {s : TimeUtil} {androidTS : Int64} {clock : ℕ → Sample}
    {q : UInt64} :
    s.elapsedRealtimeNanoToQtimerNs androidTS clock = some ⟨q, s, 0⟩ ↔
      s.updateDue androidTS false = some false ∧
        ∃ diff, checkedSub androidTS s.mOffsetNs = some diff ∧ diff.toUInt64 = q := by
  constructor
  · intro h
    rw [elapsedRealtimeNanoToQtimerNs, Option.bind_eq_some_iff] at h
    obtain ⟨update, hupdate, h⟩ := h
    rw [Option.map_eq_some_iff] at h
    obtain ⟨diff, hdiff, h⟩ := h
    rw [Outcome.mk.injEq] at h
    obtain ⟨hq, hstate, hpasses⟩ := h
    rcases update_cases hupdate with ⟨-, rfl⟩ | ⟨-, offset, k, rfl, -⟩
    · exact ⟨update_eq_some_unchanged_iff.1 hupdate, diff, hdiff, hq⟩
    · cases hpasses
  · rintro ⟨hdue, diff, hdiff, rfl⟩
    rw [elapsedRealtimeNanoToQtimerNs, update_eq_some_unchanged_iff.2 hdue, Option.bind_some, hdiff]
    rfl

/-- A conversion to a system timestamp that does not refresh. -/
theorem qtimerNsToElapsedRealtimeNano_iff {s : TimeUtil} {q : UInt64} {clock : ℕ → Sample}
    {a : Int64} :
    s.qtimerNsToElapsedRealtimeNano q clock = some ⟨a, s, 0⟩ ↔
      checkedAdd q.toInt64 s.mOffsetNs = some a ∧ s.updateDue a false = some false := by
  constructor
  · intro h
    rw [qtimerNsToElapsedRealtimeNano, Option.bind_eq_some_iff] at h
    obtain ⟨realtimeNs, hadd, h⟩ := h
    rw [Option.bind_eq_some_iff] at h
    obtain ⟨update, hupdate, h⟩ := h
    rcases update_cases hupdate with ⟨-, rfl⟩ | ⟨-, offset, k, rfl, -⟩
    · rw [if_neg Bool.false_ne_true, Option.some.injEq, Outcome.mk.injEq] at h
      obtain ⟨rfl, -, -⟩ := h
      exact ⟨hadd, update_eq_some_unchanged_iff.1 hupdate⟩
    · rw [if_pos rfl, Option.map_eq_some_iff] at h
      obtain ⟨_, -, h⟩ := h
      cases h
  · rintro ⟨hadd, hdue⟩
    rw [qtimerNsToElapsedRealtimeNano, hadd, Option.bind_some,
      update_eq_some_unchanged_iff.2 hdue]
    rfl

/-- What a conversion that refreshes leaves: the last timestamp is the one computed with the old
offset, the result the one computed with the new. -/
theorem qtimerNsToElapsedRealtimeNano_refreshed {s : TimeUtil} {q : UInt64} {clock : ℕ → Sample}
    {out : Outcome Int64} (h : s.qtimerNsToElapsedRealtimeNano q clock = some out)
    (hpasses : 0 < out.passes) :
    out.state.mLastRealtimeNs.toInt = q.toInt64.toInt + s.mOffsetNs.toInt ∧
      out.value.toInt = q.toInt64.toInt + out.state.mOffsetNs.toInt := by
  rw [qtimerNsToElapsedRealtimeNano, Option.bind_eq_some_iff] at h
  obtain ⟨realtimeNs, hadd, h⟩ := h
  rw [Option.bind_eq_some_iff] at h
  obtain ⟨update, hupdate, h⟩ := h
  rcases update_cases hupdate with ⟨-, rfl⟩ | ⟨-, offset, k, rfl, -⟩
  · rw [if_neg Bool.false_ne_true, Option.some.injEq] at h
    subst h
    cases hpasses
  · rw [if_pos rfl, Option.map_eq_some_iff] at h
    obtain ⟨a, ha, rfl⟩ := h
    exact ⟨checkedAdd_eq_some_iff.1 hadd, checkedAdd_eq_some_iff.1 ha⟩

/-- The difference of a system timestamp and the offset, as a QTimer timestamp. -/
theorem checkedSub_toUInt64 {a offset : Int64} {q : UInt64}
    (h : a.toInt = q.toInt64.toInt + offset.toInt) :
    ∃ diff, checkedSub a offset = some diff ∧ diff.toUInt64 = q := by
  refine ⟨q.toInt64, checkedSub_eq_some_iff.2 (by omega), ?_⟩
  exact UInt64.toUInt64_toInt64 q

/-- **The conversions after a refresh.** With `d` the change of the offset, the timestamp just
returned is converted back without a refresh, to the QTimer timestamp it came from, exactly if
`0 ≤ d < 60 s`; and a QTimer timestamp up to 60 s later is converted without a refresh, to the
timestamp as much later, exactly if its distance plus `d` lies in that range, and then converts
back. -/
theorem conversion_settled {s : TimeUtil} {q : UInt64} {clock : ℕ → Sample} {out : Outcome Int64}
    (hq : q.toNat < 2 ^ 62) (h : s.qtimerNsToElapsedRealtimeNano q clock = some out)
    (hpasses : 0 < out.passes) (ha : 0 < out.value.toInt) :
    (∀ next, out.state.elapsedRealtimeNanoToQtimerNs out.value next = some ⟨q, out.state, 0⟩ ↔
      0 ≤ out.state.mOffsetNs.toInt - s.mOffsetNs.toInt ∧
        out.state.mOffsetNs.toInt - s.mOffsetNs.toInt < 60000000000) ∧
    ∀ q' : UInt64, q.toNat ≤ q'.toNat → q'.toNat < q.toNat + 60000000000 →
      out.value.toInt + (q'.toNat - q.toNat) < 2 ^ 63 → ∀ next,
      (∃ a : Int64, a.toInt = out.value.toInt + (q'.toNat - q.toNat) ∧
        out.state.qtimerNsToElapsedRealtimeNano q' next = some ⟨a, out.state, 0⟩ ∧
        ∀ next', out.state.elapsedRealtimeNanoToQtimerNs a next' = some ⟨q', out.state, 0⟩) ↔
      0 ≤ (q'.toNat - q.toNat : ℤ) + (out.state.mOffsetNs.toInt - s.mOffsetNs.toInt) ∧
        (q'.toNat - q.toNat : ℤ) + (out.state.mOffsetNs.toInt - s.mOffsetNs.toInt) <
          60000000000 := by
  obtain ⟨hlast, hvalue⟩ := qtimerNsToElapsedRealtimeNano_refreshed h hpasses
  have hqInt : q.toInt64.toInt = (q.toNat : ℤ) := toInt_toInt64_of_lt (by omega)
  refine ⟨fun next ↦ ?_, fun q' hle hlt hover next ↦ ?_⟩
  · -- back: the difference is the change of the offset
    rw [elapsedRealtimeNanoToQtimerNs_iff, and_iff_left (checkedSub_toUInt64 hvalue),
      updateDue_eq_false_iff]
    omega
  · -- on: the timestamp moves as far as the QTimer does
    have hq'Int : q'.toInt64.toInt = (q'.toNat : ℤ) := toInt_toInt64_of_lt (by omega)
    have hdue : ∀ a : Int64, a.toInt = out.value.toInt + (q'.toNat - q.toNat) →
        (out.state.updateDue a false = some false ↔
          0 ≤ (q'.toNat - q.toNat : ℤ) + (out.state.mOffsetNs.toInt - s.mOffsetNs.toInt) ∧
            (q'.toNat - q.toNat : ℤ) + (out.state.mOffsetNs.toInt - s.mOffsetNs.toInt) <
              60000000000) := by
      intro a hval
      rw [updateDue_eq_false_iff]
      omega
    constructor
    · rintro ⟨a, hval, hconv, -⟩
      exact (hdue a hval).1 (qtimerNsToElapsedRealtimeNano_iff.1 hconv).2
    · intro hrange
      have hadd : (Int64.ofInt (out.value.toInt + (q'.toNat - q.toNat))).toInt =
          out.value.toInt + (q'.toNat - q.toNat) := Int64.toInt_ofInt_of_le (by omega) hover
      refine ⟨_, hadd, qtimerNsToElapsedRealtimeNano_iff.2
        ⟨checkedAdd_eq_some_iff.2 (by omega), (hdue _ hadd).2 hrange⟩, fun next' ↦ ?_⟩
      exact elapsedRealtimeNanoToQtimerNs_iff.2
        ⟨(hdue _ hadd).2 hrange, checkedSub_toUInt64 (by omega)⟩

/-! ### A refresh that moves the offset back -/

/-- The offset is 10 ns, and a refresh is due from 100 s on. -/
def sleeping : TimeUtil :=
  ⟨40000000000, 10⟩

/-- Readings that find the offset as it was. -/
def steady : Sample :=
  ⟨110000001000, 110000001010, 110000001500⟩

/-- Readings after which the system clock has lost 5 ns against the QTimer. -/
def drifted : Sample :=
  ⟨110000001000, 110000001005, 110000001500⟩

/-- Readings a moment later, with one more nanosecond lost. -/
def driftedFurther : Sample :=
  ⟨110000002000, 110000002004, 110000002500⟩

/-- A sampling loop whose first pass is a good one. -/
theorem sampleLoop_of_gap {r : Sample} (hgap : r.gap ≤ QTIMER_GAP_THRESHOLD_NS)
    {mOffsetNs offset : Int64} (hoffset : r.newOffset mOffsetNs = some offset) :
    sampleLoop (fun _ ↦ r) 0 mOffsetNs = some (offset, 1) := by
  have hstop : ¬ (QTIMER_GAP_THRESHOLD_NS < r.gap ∧ 0 + 1 < QTIMER_GAP_MAX_ITERATION) :=
    fun hgo ↦ UInt64.not_lt.2 hgap hgo.1
  rw [sampleLoop, hoffset, Option.bind_some, if_neg hstop]

/-- A call that refreshes in one pass. -/
theorem update_of_gap {s : TimeUtil} {androidTS : Int64} {r : Sample}
    (hdue : s.updateDue androidTS false = some true) (hgap : r.gap ≤ QTIMER_GAP_THRESHOLD_NS)
    {offset offset_diff time_diff : Int64} (hoffset : r.newOffset s.mOffsetNs = some offset)
    (hoffset_diff : checkedSub offset s.mOffsetNs = some offset_diff)
    (htime_diff : checkedSub androidTS s.mLastRealtimeNs = some time_diff) :
    s.updateQtimerToRealtimeOffset androidTS false (fun _ ↦ r) =
      some ⟨true, ⟨androidTS, offset⟩, 1⟩ := by
  rw [updateQtimerToRealtimeOffset, hdue, Option.bind_some, if_pos rfl,
    sampleLoop_of_gap hgap hoffset, Option.bind_some, hoffset_diff, Option.bind_some, htime_diff]
  rfl

theorem sleeping_qtimerNsToElapsedRealtimeNano {r : Sample}
    (hgap : r.gap ≤ QTIMER_GAP_THRESHOLD_NS) {offset offset_diff a : Int64}
    (hoffset : r.newOffset 10 = some offset)
    (hoffset_diff : checkedSub offset 10 = some offset_diff)
    (ha : checkedAdd (110000000000 : UInt64).toInt64 offset = some a) :
    sleeping.qtimerNsToElapsedRealtimeNano 110000000000 (fun _ ↦ r) =
      some ⟨a, ⟨110000000010, offset⟩, 1⟩ := by
  have hadd : checkedAdd (110000000000 : UInt64).toInt64 sleeping.mOffsetNs =
      some 110000000010 := rfl
  have hdue : sleeping.updateDue 110000000010 false = some true := rfl
  have htime_diff : checkedSub 110000000010 sleeping.mLastRealtimeNs = some 70000000010 := rfl
  rw [qtimerNsToElapsedRealtimeNano, hadd, Option.bind_some,
    update_of_gap hdue hgap hoffset hoffset_diff htime_diff, Option.bind_some, if_pos rfl, ha]
  rfl

theorem conversion_settled_steady :
    ∃ out, sleeping.qtimerNsToElapsedRealtimeNano 110000000000 (fun _ ↦ steady) = some out ∧
      (∀ next, out.state.elapsedRealtimeNanoToQtimerNs out.value next =
        some ⟨110000000000, out.state, 0⟩) ∧
      ∀ next, ∃ a : Int64, a.toInt = 110000000017 ∧
        out.state.qtimerNsToElapsedRealtimeNano 110000000007 next = some ⟨a, out.state, 0⟩ := by
  have h := sleeping_qtimerNsToElapsedRealtimeNano (r := steady) (by decide) rfl rfl rfl
  have hsettled := conversion_settled (by decide) h (by decide) (by decide)
  refine ⟨_, h, fun next ↦ (hsettled.1 next).2 (by decide), fun next ↦ ?_⟩
  obtain ⟨a, ha, hconv, -⟩ :=
    (hsettled.2 110000000007 (by decide) (by decide) (by decide) next).2 (by decide)
  exact ⟨a, ha, hconv⟩

/-- The offset has moved back by 5 ns, so the timestamp just returned counts as earlier than the
last one: the conversion back refreshes once more, and returns another QTimer timestamp. -/
theorem not_settled_drifted :
    ∃ out back, sleeping.qtimerNsToElapsedRealtimeNano 110000000000 (fun _ ↦ drifted) = some out ∧
      out.passes = 1 ∧ 0 < out.value.toInt ∧ drifted.Valid ∧ driftedFurther.Valid ∧
      out.state.elapsedRealtimeNanoToQtimerNs out.value (fun _ ↦ driftedFurther) = some back ∧
      back.passes = 1 ∧ back.value = 110000000001 := by
  have h := sleeping_qtimerNsToElapsedRealtimeNano (r := drifted) (by decide) rfl rfl rfl
  have hback : (⟨110000000010, 5⟩ : TimeUtil).elapsedRealtimeNanoToQtimerNs 110000000005
      (fun _ ↦ driftedFurther) = some ⟨110000000001, ⟨110000000005, 4⟩, 1⟩ := by
    have hdue : (⟨110000000010, 5⟩ : TimeUtil).updateDue 110000000005 false = some true := rfl
    have hoffset : driftedFurther.newOffset 5 = some 4 := rfl
    rw [elapsedRealtimeNanoToQtimerNs, update_of_gap hdue (by decide) hoffset rfl rfl]
    rfl
  exact ⟨_, _, h, rfl, by decide, by decide, by decide, hback, rfl, rfl⟩

end TimeUtil

end SensingHub.Time
