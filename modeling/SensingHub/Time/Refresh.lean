import SensingHub.Time.Model

/-!
# What a refresh of the offset reports

The sampling loop always ends: after the first pass whose two QTimer readings are close enough, or
after the last one it may make (`IsLastPass`). `update_cases` says all that a call can do: nothing,
or one run of the loop. The offset it leaves comes from the last pass with valid readings; the
report comes from having tried. So the two agree exactly when the last pass is a valid one
(`consistent_iff`).
-/

namespace SensingHub.Time

open Checked

/-! ### The sampling loop -/

theorem Sample.toNat_lt_of_valid {r : Sample} (h : r.Valid) : r.ns.toNat < 2 ^ 63 := by
  have hle : r.ns.toNat ≤ INT64_MAX.toNat := UInt64.le_iff_toNat_le.1 h.1
  have hmax : INT64_MAX.toNat = 2 ^ 63 - 1 := rfl
  omega

/-- The offset computed from valid readings never overflows. -/
theorem Sample.newOffset_of_valid {r : Sample} (h : r.Valid) (mOffsetNs : Int64) :
    ∃ offset, r.newOffset mOffsetNs = some offset ∧
      offset.toInt = r.curr_androidTS.toInt - r.ns.toNat := by
  have hns : r.ns.toInt64.toInt = r.ns.toNat := toInt_toInt64_of_lt (r.toNat_lt_of_valid h)
  have hcurr : (0 : Int64).toInt ≤ r.curr_androidTS.toInt := Int64.le_iff_toInt_le.1 h.2
  rw [Sample.newOffset, if_pos h]
  cases hsub : checkedSub r.curr_androidTS r.ns.toInt64 with
  | none =>
    have hlt := r.toNat_lt_of_valid h
    have hhi := r.curr_androidTS.toInt_lt
    have hzero : (0 : Int64).toInt = 0 := rfl
    rw [checkedSub_eq_none_iff, hns] at hsub
    omega
  | some offset => exact ⟨offset, rfl, hns ▸ checkedSub_eq_some_iff.1 hsub⟩

theorem Sample.newOffset_of_not_valid {r : Sample} (h : ¬ r.Valid) (mOffsetNs : Int64) :
    r.newOffset mOffsetNs = some mOffsetNs := by
  rw [Sample.newOffset, if_neg h]

/-- The pass `k` ends the sampling loop: it is the first with a small gap, or the last the limit
allows. -/
structure IsLastPass (clock : ℕ → Sample) (k : ℕ) : Prop where
  earlier : ∀ i < k, QTIMER_GAP_THRESHOLD_NS < (clock i).gap
  within : k + 1 ≤ QTIMER_GAP_MAX_ITERATION
  stops : (clock k).gap ≤ QTIMER_GAP_THRESHOLD_NS ∨ k + 1 = QTIMER_GAP_MAX_ITERATION

theorem IsLastPass.eq {clock : ℕ → Sample} {k j : ℕ} (hk : IsLastPass clock k)
    (hj : IsLastPass clock j) : k = j := by
  rcases Nat.lt_trichotomy k j with hlt | rfl | hlt
  · rcases hk.stops with hgap | hmax
    · exact absurd (hj.earlier k hlt) (UInt64.not_lt.2 hgap)
    · have := hj.within
      omega
  · rfl
  · rcases hj.stops with hgap | hmax
    · exact absurd (hk.earlier j hlt) (UInt64.not_lt.2 hgap)
    · have := hk.within
      omega

/-- What the loop leaves, when its last pass is `k`: the offset of that pass if its readings were
valid, and the offset it started with if no readings were. -/
structure LoopResult (clock : ℕ → Sample) (iter : ℕ) (mOffsetNs offset : Int64) (k : ℕ) : Prop where
  last : IsLastPass clock k
  valid : (clock k).Valid → offset.toInt = (clock k).curr_androidTS.toInt - (clock k).ns.toNat
  unchanged : (∀ i, iter ≤ i → i ≤ k → ¬ (clock i).Valid) → offset = mOffsetNs

/-- One pass of the loop that is not the last. -/
theorem LoopResult.of_next {clock : ℕ → Sample} {iter k : ℕ} {mOffsetNs mid offset : Int64}
    (hmid : (clock iter).newOffset mOffsetNs = some mid) (hle : iter + 1 ≤ k)
    (h : LoopResult clock (iter + 1) mid offset k) :
    LoopResult clock iter mOffsetNs offset k where
  last := h.last
  valid := h.valid
  unchanged hnone := by
    have hfirst := hnone iter (Nat.le_refl _) (by omega)
    rw [Sample.newOffset_of_not_valid hfirst, Option.some.injEq] at hmid
    rw [hmid]
    exact h.unchanged fun i hi hik ↦ hnone i (by omega) hik

/-- **The sampling loop ends**, after the pass that `IsLastPass` names. The induction is on the
passes left; what it carries is that every pass so far had a large gap. -/
theorem sampleLoop_result (clock : ℕ → Sample) (iter : ℕ) (mOffsetNs : Int64)
    (hiter : iter + 1 ≤ QTIMER_GAP_MAX_ITERATION)
    (hearlier : ∀ i < iter, QTIMER_GAP_THRESHOLD_NS < (clock i).gap) :
    ∃ offset k, sampleLoop clock iter mOffsetNs = some (offset, k + 1) ∧ iter ≤ k ∧
      LoopResult clock iter mOffsetNs offset k := by
  obtain ⟨mid, hmid, hvalid⟩ : ∃ mid, (clock iter).newOffset mOffsetNs = some mid ∧
      ((clock iter).Valid →
        mid.toInt = (clock iter).curr_androidTS.toInt - (clock iter).ns.toNat) := by
    by_cases hv : (clock iter).Valid
    · obtain ⟨mid, hmid, htoInt⟩ := Sample.newOffset_of_valid hv mOffsetNs
      exact ⟨mid, hmid, fun _ ↦ htoInt⟩
    · exact ⟨mOffsetNs, Sample.newOffset_of_not_valid hv mOffsetNs, fun h ↦ absurd h hv⟩
  rw [sampleLoop, hmid, Option.bind_some]
  split
  · next hnext =>
    obtain ⟨offset, k, hrun, hle, hresult⟩ := sampleLoop_result clock (iter + 1) mid hnext.2
      fun i hi ↦ by
        rcases Nat.lt_succ_iff_lt_or_eq.1 hi with hlt | rfl
        · exact hearlier i hlt
        · exact hnext.1
    exact ⟨offset, k, hrun, by omega, hresult.of_next hmid hle⟩
  · next hlast =>
    refine ⟨mid, iter, rfl, Nat.le_refl iter, ⟨hearlier, hiter, ?_⟩, hvalid, fun hnone ↦ ?_⟩
    · rcases UInt64.lt_or_le QTIMER_GAP_THRESHOLD_NS (clock iter).gap with hgap | hgap
      · exact .inr (by have := not_and.1 hlast hgap; omega)
      · exact .inl hgap
    · rw [Sample.newOffset_of_not_valid (hnone iter (Nat.le_refl iter) (Nat.le_refl iter)),
        Option.some.injEq] at hmid
      exact hmid.symm
  termination_by QTIMER_GAP_MAX_ITERATION - iter

/-- The offset of the readings is not too far from the one before it. -/
def Sample.OffsetFits (r : Sample) (mOffsetNs : Int64) : Prop :=
  -2 ^ 63 ≤ r.curr_androidTS.toInt - r.ns.toNat - mOffsetNs.toInt ∧
    r.curr_androidTS.toInt - r.ns.toNat - mOffsetNs.toInt < 2 ^ 63

namespace TimeUtil

/-! ### One call -/

/-- The timestamp calls for a refresh. -/
def Refreshes (s : TimeUtil) (androidTS : Int64) (force : Bool) : Prop :=
  0 < androidTS.toInt ∧ (force = true ∨ androidTS.toInt < s.mLastRealtimeNs.toInt ∨
    s.mLastRealtimeNs.toInt + 60000000000 ≤ androidTS.toInt)

/-- The condition of the source, where it is defined. -/
theorem refreshes_iff_of_updateDue {s : TimeUtil} {androidTS : Int64} {force due : Bool}
    (h : s.updateDue androidTS force = some due) : s.Refreshes androidTS force ↔ due = true := by
  unfold updateDue at h
  have hzero : (0 : Int64).toInt = 0 := rfl
  split at h
  · next hpos =>
    rw [Int64.lt_iff_toInt_lt, hzero] at hpos
    split at h
    · next hforce =>
      rw [Option.some.injEq] at h
      simp [Refreshes, hpos, hforce, ← h]
    · next hforce =>
      split at h
      · next hback =>
        rw [Option.some.injEq] at h
        rw [Int64.lt_iff_toInt_lt] at hback
        simp [Refreshes, hpos, hback, ← h]
      · next hback =>
        rw [Option.map_eq_some_iff] at h
        obtain ⟨diff, hdiff, rfl⟩ := h
        have hschedule : OFFSET_UPDATE_SCHEDULE_NS.toInt = 60000000000 := rfl
        rw [checkedSub_eq_some_iff] at hdiff
        rw [Int64.lt_iff_toInt_lt] at hback
        rw [decide_eq_true_iff, Int64.le_iff_toInt_le, hschedule, hdiff]
        simp only [Refreshes, hforce, hpos, true_and, Bool.false_eq_true, false_or]
        omega
  · next hpos =>
    rw [Option.some.injEq] at h
    rw [Int64.lt_iff_toInt_lt, hzero] at hpos
    simp [Refreshes, hpos, ← h]

/-- The condition overflows only for a last timestamp so far in the past that the distance is no
64-bit value. -/
theorem updateDue_eq_none_iff {s : TimeUtil} {androidTS : Int64} {force : Bool} :
    s.updateDue androidTS force = none ↔ 0 < androidTS.toInt ∧ force = false ∧
      2 ^ 63 ≤ androidTS.toInt - s.mLastRealtimeNs.toInt := by
  have hzero : (0 : Int64).toInt = 0 := rfl
  unfold updateDue
  split
  · next hpos =>
    rw [Int64.lt_iff_toInt_lt, hzero] at hpos
    split
    · next hforce => simp [hforce]
    · next hforce =>
      rw [Bool.not_eq_true] at hforce
      split
      · next hback =>
        rw [Int64.lt_iff_toInt_lt] at hback
        simp only [reduceCtorEq, false_iff, hforce, true_and]
        omega
      · next hback =>
        rw [Int64.lt_iff_toInt_lt] at hback
        rw [Option.map_eq_none_iff, checkedSub_eq_none_iff]
        simp only [hforce, hpos, true_and]
        omega
  · next hpos =>
    rw [Int64.lt_iff_toInt_lt, hzero] at hpos
    simp only [reduceCtorEq, false_iff]
    omega

theorem update_of_not_due {s : TimeUtil} {androidTS : Int64} {force : Bool} {clock : ℕ → Sample}
    (hdue : s.updateDue androidTS force = some false) :
    s.updateQtimerToRealtimeOffset androidTS force clock = some ⟨false, s, 0⟩ := by
  rw [updateQtimerToRealtimeOffset, hdue, Option.bind_some, if_neg Bool.false_ne_true]

/-- A refresh has an outcome exactly if neither the offset nor the timestamp has moved too far for
the log message. -/
theorem update_of_due {s : TimeUtil} {androidTS : Int64} {force : Bool}
    (hdue : s.updateDue androidTS force = some true) (clock : ℕ → Sample) :
    ∃ offset k, LoopResult clock 0 s.mOffsetNs offset k ∧
      ∀ out, s.updateQtimerToRealtimeOffset androidTS force clock = some out ↔
        out = ⟨true, ⟨androidTS, offset⟩, k + 1⟩ ∧ (∃ d, checkedSub offset s.mOffsetNs = some d) ∧
          ∃ d, checkedSub androidTS s.mLastRealtimeNs = some d := by
  obtain ⟨offset, k, hrun, -, hresult⟩ := sampleLoop_result clock 0 s.mOffsetNs (by decide)
    fun i hi ↦ absurd hi (Nat.not_lt_zero i)
  refine ⟨offset, k, hresult, fun out ↦ ?_⟩
  rw [updateQtimerToRealtimeOffset, hdue, Option.bind_some, if_pos rfl, hrun, Option.bind_some,
    Option.bind_eq_some_iff]
  constructor
  · rintro ⟨d, hd, h⟩
    obtain ⟨d', hd', rfl⟩ := Option.map_eq_some_iff.1 h
    exact ⟨rfl, ⟨d, hd⟩, d', hd'⟩
  · rintro ⟨rfl, ⟨d, hd⟩, d', hd'⟩
    exact ⟨d, hd, Option.map_eq_some_iff.2 ⟨d', hd', rfl⟩⟩

/-- What a call can do: nothing, or one run of the sampling loop after which the timestamp is the
last one. -/
theorem update_cases {s : TimeUtil} {androidTS : Int64} {force : Bool} {clock : ℕ → Sample}
    {out : Outcome Bool} (h : s.updateQtimerToRealtimeOffset androidTS force clock = some out) :
    (¬ s.Refreshes androidTS force ∧ out = ⟨false, s, 0⟩) ∨
      (s.Refreshes androidTS force ∧ ∃ offset k, out = ⟨true, ⟨androidTS, offset⟩, k + 1⟩ ∧
        LoopResult clock 0 s.mOffsetNs offset k) := by
  cases hdue : s.updateDue androidTS force with
  | none =>
    rw [updateQtimerToRealtimeOffset, hdue, Option.bind_none] at h
    cases h
  | some due =>
    have hiff := refreshes_iff_of_updateDue hdue
    cases due with
    | false =>
      rw [update_of_not_due hdue, Option.some.injEq] at h
      exact .inl ⟨fun hr ↦ Bool.false_ne_true (hiff.1 hr), h.symm⟩
    | true =>
      obtain ⟨offset, k, hresult, hiff'⟩ := update_of_due hdue clock
      exact .inr ⟨hiff.2 rfl, offset, k, ((hiff' out).1 h).1, hresult⟩

/-- A call without refresh, exactly. -/
theorem update_eq_some_unchanged_iff {s : TimeUtil} {androidTS : Int64} {force : Bool}
    {clock : ℕ → Sample} :
    s.updateQtimerToRealtimeOffset androidTS force clock = some ⟨false, s, 0⟩ ↔
      s.updateDue androidTS force = some false := by
  refine ⟨fun h ↦ ?_, update_of_not_due⟩
  cases hdue : s.updateDue androidTS force with
  | none =>
    rw [updateQtimerToRealtimeOffset, hdue, Option.bind_none] at h
    cases h
  | some due =>
    cases due with
    | false => rfl
    | true =>
      have hrefresh := (refreshes_iff_of_updateDue hdue).2 rfl
      rcases update_cases h with ⟨hnot, -⟩ | ⟨-, offset, k, heq, -⟩
      · exact absurd hrefresh hnot
      · cases heq

/-! ### What a call reports -/

/-- What a call reports is what it did: true only if the offset comes from the valid readings of the
last pass, which had a small gap or was the last allowed; false, and nothing changed, if no readings
were valid. -/
structure Consistent (s : TimeUtil) (clock : ℕ → Sample) (out : Outcome Bool) : Prop where
  computed : out.value = true → ∃ k, out.passes = k + 1 ∧ (clock k).Valid ∧
    out.state.mOffsetNs.toInt = (clock k).curr_androidTS.toInt - (clock k).ns.toNat ∧
    ((clock k).gap ≤ QTIMER_GAP_THRESHOLD_NS ∨ out.passes = QTIMER_GAP_MAX_ITERATION)
  failed : (∀ i < out.passes, ¬ (clock i).Valid) → out.value = false ∧ out.state = s

/-- What a refresh that has moved neither the offset nor the timestamp too far reports. -/
theorem consistent_refreshed_iff {s : TimeUtil} {androidTS offset : Int64} {clock : ℕ → Sample}
    {k : ℕ} (hresult : LoopResult clock 0 s.mOffsetNs offset k) :
    Consistent s clock ⟨true, ⟨androidTS, offset⟩, k + 1⟩ ↔ (clock k).Valid := by
  constructor
  · rintro ⟨hcomputed, -⟩
    obtain ⟨k', hk', hvalid, -⟩ := hcomputed rfl
    obtain rfl : k = k' := Nat.succ.inj hk'
    exact hvalid
  · intro hvalid
    refine ⟨fun _ ↦ ⟨k, rfl, hvalid, hresult.valid hvalid, hresult.last.stops⟩, fun hnone ↦ ?_⟩
    exact absurd hvalid (hnone k (Nat.lt_succ_self k))

/-- **When a refresh reports what it did.** Exactly when its timestamp is not too far ahead of the
last one, and none is called for or the pass that ends the sampling loop has valid readings, whose
difference is not too far from the offset. -/
theorem consistent_iff (s : TimeUtil) (androidTS : Int64) (force : Bool) (clock : ℕ → Sample) :
    (∃ out, s.updateQtimerToRealtimeOffset androidTS force clock = some out ∧
      Consistent s clock out) ↔
      (0 < androidTS.toInt → androidTS.toInt - s.mLastRealtimeNs.toInt < 2 ^ 63) ∧
        (¬ s.Refreshes androidTS force ∨ ∀ k, IsLastPass clock k →
          (clock k).Valid ∧ (clock k).OffsetFits s.mOffsetNs) := by
  have hlast := s.mLastRealtimeNs.toInt_lt
  have hts := androidTS.le_toInt
  cases hdue : s.updateDue androidTS force with
  | none =>
    obtain ⟨hpos, -, hfar⟩ := updateDue_eq_none_iff.1 hdue
    refine iff_of_false ?_ fun h ↦ ?_
    · rintro ⟨out, hout, -⟩
      rw [updateQtimerToRealtimeOffset, hdue, Option.bind_none] at hout
      cases hout
    · have hnear := h.1 hpos
      omega
  | some due =>
    have hiff := refreshes_iff_of_updateDue hdue
    cases due with
    | false =>
      have hnot : ¬ s.Refreshes androidTS force := fun hr ↦ Bool.false_ne_true (hiff.1 hr)
      refine iff_of_true ⟨_, update_of_not_due hdue, ?_⟩ ⟨fun hpos ↦ ?_, .inl hnot⟩
      · exact ⟨fun h ↦ absurd h Bool.false_ne_true, fun _ ↦ ⟨rfl, rfl⟩⟩
      · rw [Refreshes] at hnot
        omega
    | true =>
      have hrefresh := hiff.2 rfl
      have hpos := hrefresh.1
      obtain ⟨offset, k, hresult, hout⟩ := update_of_due hdue clock
      constructor
      · rintro ⟨out, h, hcons⟩
        obtain ⟨rfl, hoffset, hlater⟩ := (hout out).1 h
        have hvalid := (consistent_refreshed_iff hresult).1 hcons
        refine ⟨fun _ ↦ (exists_checkedSub_iff.1 hlater).2, .inr fun j hj ↦ ?_⟩
        obtain rfl : k = j := hresult.last.eq hj
        rw [Sample.OffsetFits, ← hresult.valid hvalid]
        exact ⟨hvalid, exists_checkedSub_iff.1 hoffset⟩
      · rintro ⟨hnear, hpass⟩
        obtain ⟨hvalid, hfits⟩ := (hpass.resolve_left (not_not.2 hrefresh)) k hresult.last
        rw [Sample.OffsetFits, ← hresult.valid hvalid] at hfits
        refine ⟨_, (hout _).2 ⟨rfl, exists_checkedSub_iff.2 hfits, ?_⟩,
          (consistent_refreshed_iff hresult).2 hvalid⟩
        exact exists_checkedSub (by omega) (hnear hpos)

/-- The QTimer reads a value above `INT64_MAX`. -/
def bootReading : Sample :=
  ⟨9223372036854775808, 50000000000, 9223372036854775808⟩

/-- It does so in the first pass only, whose readings are far apart. -/
def booting : ℕ → Sample
  | 0 => ⟨9223372036854775808, 50000000000, 9223372036854795808⟩
  | _ => ⟨49999999000, 50000000100, 49999999500⟩

theorem isLastPass_booting : IsLastPass booting 1 where
  earlier i hi := by
    obtain rfl : i = 0 := Nat.lt_one_iff.1 hi
    decide
  within := by decide
  stops := .inl (by decide)

theorem consistent_iff_booting :
    ∃ out, (⟨40000000000, 10⟩ : TimeUtil).updateQtimerToRealtimeOffset 50000000000 true booting =
        some out ∧
      Consistent ⟨40000000000, 10⟩ booting out := by
  refine (consistent_iff _ _ _ _).2 ⟨fun _ ↦ by decide, .inr fun k hk ↦ ?_⟩
  obtain rfl : 1 = k := isLastPass_booting.eq hk
  exact ⟨by decide, by decide, by decide⟩

/-- With no valid reading at all the call reports a change, leaves the offset alone and still moves
the last timestamp. -/
theorem not_consistent_bootReading :
    ∃ out, (⟨40000000000, 10⟩ : TimeUtil).updateQtimerToRealtimeOffset 50000000000 true
        (fun _ ↦ bootReading) = some out ∧
      out.value = true ∧ out.state = ⟨50000000000, 10⟩ ∧ ¬ bootReading.Valid ∧
      ¬ Consistent ⟨40000000000, 10⟩ (fun _ ↦ bootReading) out := by
  have h : (⟨40000000000, 10⟩ : TimeUtil).updateQtimerToRealtimeOffset 50000000000 true
      (fun _ ↦ bootReading) = some ⟨true, ⟨50000000000, 10⟩, 1⟩ := by
    rw [updateQtimerToRealtimeOffset, sampleLoop]
    rfl
  refine ⟨_, h, rfl, rfl, by decide, fun hcons ↦ ?_⟩
  have hfalse := (hcons.failed fun i _ ↦ by decide).1
  cases hfalse

end TimeUtil

end SensingHub.Time
