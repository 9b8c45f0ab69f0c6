import Mathlib.Algebra.Order.Group.Int
import SensingHub.Lib.ClockPair
import SensingHub.Lib.TransitionSystem
import SensingHub.Time.Conversion

/-!
# How far the conversions are off

The object over the whole time it is used: it is constructed, and then its functions are called, one
after another, with timestamps of what has happened. Time goes on between the calls and in them, the
clocks are read in the order in which the code reads them, and they may drift apart.

`Inv` says where the offset comes from: from readings around some instant, and from no timestamp
much later than that. As a conversion refreshes when its timestamp is 60 s past the stored one, the
offset that it uses is at most `age` old (`accuracy`), and the result is off by what the clocks
drift in this time and what passes between the readings of a pass. Nothing overflows on the way
(`exists_step`).
-/

namespace SensingHub.Time

open Checked
open TimeUtil (sleeping steady sleeping_qtimerNsToElapsedRealtimeNano)

/-! ### The clocks -/

/-- The QTimer and the system clock of a device, at each instant. They read less than 2^62 ns, which
are 146 years. -/
structure Clocks extends ClockPair ℕ ℤ where
  counter_nonneg : ∀ τ, 0 ≤ counter τ
  counter_lt : ∀ τ, counter τ < 2 ^ 62
  clock_nonneg : ∀ τ, 0 ≤ clock τ
  clock_lt : ∀ τ, clock τ < 2 ^ 62

/-- The readings of a pass, taken in the order of the code between two instants. -/
def Sample.ReadBetween (C : Clocks) (r : Sample) (start finish : ℕ) : Prop :=
  ∃ τ₁ τ₂ τ₃, start ≤ τ₁ ∧ τ₁ ≤ τ₂ ∧ τ₂ ≤ τ₃ ∧ τ₃ ≤ finish ∧ (r.ns.toNat : ℤ) = C.counter τ₁ ∧
    r.curr_androidTS.toInt = C.clock τ₂ ∧ (r.ns_end.toNat : ℤ) = C.counter τ₃

theorem Sample.ReadBetween.valid {C : Clocks} {r : Sample} {start finish : ℕ}
    (h : r.ReadBetween C start finish) : r.Valid := by
  obtain ⟨τ₁, τ₂, τ₃, -, -, -, -, hns, hcurr, -⟩ := h
  have hlt := C.counter_lt τ₁
  have hnonneg := C.clock_nonneg τ₂
  have hmax : INT64_MAX.toNat = 2 ^ 63 - 1 := rfl
  have hzero : (0 : Int64).toInt = 0 := rfl
  rw [Sample.Valid, UInt64.le_iff_toNat_le, Int64.le_iff_toInt_le]
  omega

/-- The gap of a pass is what the QTimer moved. -/
theorem Sample.ReadBetween.gap_eq {C : Clocks} {r : Sample} {τ₁ τ₃ : ℕ} (h : τ₁ ≤ τ₃)
    (hns : (r.ns.toNat : ℤ) = C.counter τ₁) (hend : (r.ns_end.toNat : ℤ) = C.counter τ₃) :
    (r.gap.toNat : ℤ) = C.counter τ₃ - C.counter τ₁ := by
  have hmono := C.counter_mono h
  have hle : r.ns ≤ r.ns_end := by
    rw [UInt64.le_iff_toNat_le]
    omega
  rw [Sample.gap, UInt64.toNat_sub_of_le _ _ hle]
  rw [UInt64.le_iff_toNat_le] at hle
  omega

/-- **The offset of a pass** is an estimate at the instant at which the system clock was read. -/
theorem Sample.ReadBetween.exists_estimate {C : Clocks} {r : Sample} {start finish : ℕ}
    (h : r.ReadBetween C start finish) :
    ∃ τ, start ≤ τ ∧ τ ≤ finish ∧
      C.Estimate (r.curr_androidTS.toInt - r.ns.toNat) τ 0 r.gap.toNat := by
  obtain ⟨τ₁, τ₂, τ₃, hstart, h₁, h₂, hfinish, hns, hcurr, hend⟩ := h
  refine ⟨τ₂, by omega, by omega, ?_, ?_⟩
  · rw [hns, hcurr, sub_zero]
    exact C.bracketed_le h₁
  · rw [hns, hcurr, Sample.ReadBetween.gap_eq (h₁.trans h₂) hns hend]
    exact C.le_bracketed h₂

/-- The gap that ends the sampling loop is small if one within the limit is. -/
theorem IsLastPass.gap_le {clock : ℕ → Sample} {k i : ℕ} (hk : IsLastPass clock k)
    (hi : i < QTIMER_GAP_MAX_ITERATION) (hgap : (clock i).gap ≤ QTIMER_GAP_THRESHOLD_NS) :
    (clock k).gap ≤ QTIMER_GAP_THRESHOLD_NS := by
  rcases hk.stops with hsmall | hmax
  · exact hsmall
  · rcases Nat.lt_or_ge i k with hlt | hle
    · exact absurd (hk.earlier i hlt) (UInt64.not_lt.2 hgap)
    · obtain rfl : i = k := by omega
      exact hgap

/-! ### Calls -/

/-- A call of a function of the object. -/
inductive Request
  | qtimerNsToElapsedRealtimeNano (qtimerTS : UInt64)
  | elapsedRealtimeNanoToQtimerNs (androidTS : Int64)
  | recalculateOffset (forceUpdate : Bool) (elapsedRealtimeNano : Int64)
  deriving DecidableEq, Repr

/-- What a call returns. -/
inductive Reply
  | realtime (ns : Int64)
  | qtimer (ns : UInt64)
  | changed (b : Bool)
  deriving DecidableEq, Repr

/-- An outcome with another value. -/
def Outcome.map {α β : Type*} (f : α → β) (out : Outcome α) : Outcome β :=
  ⟨f out.value, out.state, out.passes⟩

namespace Request

/-- The call, on the object. -/
def call (s : TimeUtil) (clock : ℕ → Sample) : Request → Option (Outcome Reply)
  | qtimerNsToElapsedRealtimeNano qtimerTS =>
    (s.qtimerNsToElapsedRealtimeNano qtimerTS clock).map (.map .realtime)
  | elapsedRealtimeNanoToQtimerNs androidTS =>
    (s.elapsedRealtimeNanoToQtimerNs androidTS clock).map (.map .qtimer)
  | recalculateOffset forceUpdate elapsedRealtimeNano =>
    (s.recalculateOffset forceUpdate elapsedRealtimeNano clock).map (.map .changed)

/-- The system timestamp that decides on the refresh. -/
def timestamp (s : TimeUtil) : Request → ℤ
  | qtimerNsToElapsedRealtimeNano qtimerTS => qtimerTS.toInt64.toInt + s.mOffsetNs.toInt
  | elapsedRealtimeNanoToQtimerNs androidTS => androidTS.toInt
  | recalculateOffset _ elapsedRealtimeNano => elapsedRealtimeNano.toInt

/-- The refresh does not depend on the timestamp, if that is positive. -/
def force : Request → Bool
  | recalculateOffset forceUpdate _ => forceUpdate
  | _ => false

/-- The timestamp is that of the instant `τ`. -/
def IsOf (C : Clocks) (τ : ℕ) : Request → Prop
  | qtimerNsToElapsedRealtimeNano qtimerTS => (qtimerTS.toNat : ℤ) = C.counter τ
  | elapsedRealtimeNanoToQtimerNs androidTS => androidTS.toInt = C.clock τ
  | recalculateOffset _ elapsedRealtimeNano => elapsedRealtimeNano.toInt = C.clock τ

/-- What is returned, when the call leaves the offset `mOffsetNs`. -/
def Returns (mOffsetNs : ℤ) : Request → Reply → Prop
  | qtimerNsToElapsedRealtimeNano qtimerTS, .realtime ns =>
    ns.toInt = qtimerTS.toInt64.toInt + mOffsetNs
  | elapsedRealtimeNanoToQtimerNs androidTS, .qtimer ns =>
    ns.toInt64.toInt = androidTS.toInt - mOffsetNs
  | recalculateOffset _ _, .changed _ => True
  | _, _ => False

end Request

/-- The object after a call whose timestamp for the refresh is `ts`: as before, or with an offset
from one run of the sampling loop. -/
inductive Updates (clock : ℕ → Sample) (force : Bool) (ts : ℤ) (s : TimeUtil) :
    TimeUtil → ℕ → Prop
  | unchanged (h : ts ≤ 0 ∨ (s.mLastRealtimeNs.toInt ≤ ts ∧
      ts < s.mLastRealtimeNs.toInt + 60000000000)) : Updates clock force ts s s 0
  | refreshed {androidTS offset : Int64} {k : ℕ} (hts : androidTS.toInt = ts) (hpos : 0 < ts)
      (h : LoopResult clock 0 s.mOffsetNs offset k) :
      Updates clock force ts s ⟨androidTS, offset⟩ (k + 1)

theorem updates_of_update {s : TimeUtil} {androidTS : Int64} {force : Bool} {clock : ℕ → Sample}
    {out : Outcome Bool} (h : s.updateQtimerToRealtimeOffset androidTS force clock = some out) :
    Updates clock force androidTS.toInt s out.state out.passes := by
  rcases TimeUtil.update_cases h with ⟨hnot, rfl⟩ | ⟨hrefresh, offset, k, rfl, hresult⟩
  · refine .unchanged ?_
    rw [TimeUtil.Refreshes] at hnot
    omega
  · exact .refreshed rfl hrefresh.1 hresult

/-- **All that a call does.** -/
theorem Request.call_spec {s : TimeUtil} {clock : ℕ → Sample} {req : Request}
    {out : Outcome Reply} (h : req.call s clock = some out) :
    Updates clock req.force (req.timestamp s) s out.state out.passes ∧
      req.Returns out.state.mOffsetNs.toInt out.value := by
  cases req with
  | qtimerNsToElapsedRealtimeNano qtimerTS =>
    obtain ⟨out, hout, rfl⟩ := Option.map_eq_some_iff.1 h
    rw [TimeUtil.qtimerNsToElapsedRealtimeNano, Option.bind_eq_some_iff] at hout
    obtain ⟨realtimeNs, hadd, hout⟩ := hout
    rw [Option.bind_eq_some_iff] at hout
    obtain ⟨update, hupdate, hout⟩ := hout
    have hts := checkedAdd_eq_some_iff.1 hadd
    have hupdates := updates_of_update hupdate
    rw [hts] at hupdates
    rcases TimeUtil.update_cases hupdate with ⟨-, rfl⟩ | ⟨-, offset, k, rfl, -⟩
    · rw [if_neg Bool.false_ne_true, Option.some.injEq] at hout
      subst hout
      exact ⟨hupdates, hts⟩
    · rw [if_pos rfl, Option.map_eq_some_iff] at hout
      obtain ⟨result, hresult, rfl⟩ := hout
      exact ⟨hupdates, checkedAdd_eq_some_iff.1 hresult⟩
  | elapsedRealtimeNanoToQtimerNs androidTS =>
    obtain ⟨out, hout, rfl⟩ := Option.map_eq_some_iff.1 h
    rw [TimeUtil.elapsedRealtimeNanoToQtimerNs, Option.bind_eq_some_iff] at hout
    obtain ⟨update, hupdate, hout⟩ := hout
    obtain ⟨diff, hdiff, rfl⟩ := Option.map_eq_some_iff.1 hout
    refine ⟨updates_of_update hupdate, ?_⟩
    show diff.toUInt64.toInt64.toInt = _
    rw [Int64.toInt64_toUInt64]
    exact checkedSub_eq_some_iff.1 hdiff
  | recalculateOffset forceUpdate elapsedRealtimeNano =>
    obtain ⟨out, hout, rfl⟩ := Option.map_eq_some_iff.1 h
    exact ⟨updates_of_update hout, trivial⟩

/-! ### The object over time -/

/-- The object, and the instant until which it has been used. -/
structure Timed where
  util : TimeUtil
  now : ℕ

/-- A call: the instant of which its timestamp is, the readings it may take, the instants at which
it starts and ends, and what it returns. -/
structure TimedCall where
  request : Request
  event : ℕ
  clock : ℕ → Sample
  start : ℕ
  finish : ℕ
  reply : Reply

/-- What is known of the clocks and of how they are read: between which values their offset stays,
by how much the QTimer moves between the two readings of the constructor and between those of the
pass that ends a sampling loop, and how old a timestamp is when it has been converted. -/
structure Bounds where
  lo : ℤ
  hi : ℤ
  delay : ℤ
  gap : ℤ
  lag : ℤ

/-- How old an offset is at most when it is used. -/
def Bounds.age (b : Bounds) : ℤ :=
  60000000000 + (b.hi - b.lo) + b.gap + b.delay + b.lag

/-- The clocks keep the bounds. -/
structure Bounds.Hold (b : Bounds) (C : Clocks) : Prop where
  lo_le : ∀ τ, b.lo ≤ C.offset τ
  le_hi : ∀ τ, C.offset τ ≤ b.hi
  delay_nonneg : 0 ≤ b.delay
  gap_nonneg : 0 ≤ b.gap

/-- The timestamp is of what has happened, not long before the call ends, and the sampling loop ends
with a pass that is good enough. -/
structure Timely (C : Clocks) (b : Bounds) (l : TimedCall) : Prop where
  isOf : l.request.IsOf C l.event
  past : l.event ≤ l.start
  recent : C.counter l.finish - C.counter l.event ≤ b.lag
  gap_le : ∀ k, IsLastPass l.clock k → ((l.clock k).gap.toNat : ℤ) ≤ b.gap

/-- The object from its constructor on. -/
def timedSystem (C : Clocks) (b : Bounds) : TransitionSystem Timed TimedCall where
  init s := ∃ τ₁ τ₂ elapsedRealtimeNano qtimerTimeNs, τ₁ ≤ τ₂ ∧ τ₂ ≤ s.now ∧
    elapsedRealtimeNano.toInt = C.clock τ₁ ∧ (qtimerTimeNs.toNat : ℤ) = C.counter τ₂ ∧
    C.counter τ₂ - C.counter τ₁ ≤ b.delay ∧
    TimeUtil.construct elapsedRealtimeNano qtimerTimeNs = some s.util
  step s l t := s.now ≤ l.start ∧ l.start ≤ l.finish ∧ t.now = l.finish ∧
    ∃ out, l.request.call s.util l.clock = some out ∧ l.reply = out.value ∧ t.util = out.state ∧
      ∀ i < out.passes, (l.clock i).ReadBetween C l.start l.finish

/-- Where the offset comes from: it is an estimate at an instant `τ`, and the stored timestamp is
not much later than that. -/
def From (C : Clocks) (b : Bounds) (τ : ℕ) (util : TimeUtil) : Prop :=
  C.Estimate util.mOffsetNs.toInt τ b.delay b.gap ∧
    util.mLastRealtimeNs.toInt ≤ C.counter τ + b.hi + b.gap

/-- The invariant of the object. -/
structure Inv (C : Clocks) (b : Bounds) (s : Timed) : Prop where
  exists_from : ∃ τ ≤ s.now, From C b τ s.util
  last_nonneg : 0 ≤ s.util.mLastRealtimeNs.toInt

section

variable {C : Clocks} {b : Bounds}

theorem clock_eq (τ : ℕ) : C.clock τ = C.counter τ + C.offset τ := by
  rw [ClockPair.offset]
  omega

theorem toInt_toInt64_of_counter {q : UInt64} {τ : ℕ} (h : (q.toNat : ℤ) = C.counter τ) :
    q.toInt64.toInt = C.counter τ := by
  have hlt := C.counter_lt τ
  rw [← h]
  exact toInt_toInt64_of_lt (by omega)

/-- The offset stays between the bounds, but for the errors of its readings. -/
theorem From.offset_mem (hb : b.Hold C) {τ : ℕ} {util : TimeUtil} (h : From C b τ util) :
    b.lo - b.delay ≤ util.mOffsetNs.toInt ∧ util.mOffsetNs.toInt ≤ b.hi + b.gap := by
  have hlo := hb.lo_le τ
  have hhi := hb.le_hi τ
  have hbelow := h.1.le_add
  have habove := h.1.le
  omega

/-- The timestamp that decides on a refresh is not far from the instant it is of. -/
theorem timestamp_mem (hb : b.Hold C) {τ event : ℕ} {util : TimeUtil} (h : From C b τ util)
    {req : Request} (hof : req.IsOf C event) :
    C.counter event + b.lo - b.delay ≤ req.timestamp util ∧
      req.timestamp util ≤ C.counter event + b.hi + b.gap := by
  have hmem := h.offset_mem hb
  have hlo := hb.lo_le event
  have hhi := hb.le_hi event
  have hclock := clock_eq (C := C) event
  have hdelay := hb.delay_nonneg
  have hgap := hb.gap_nonneg
  cases req with
  | qtimerNsToElapsedRealtimeNano qtimerTS =>
    have hq := toInt_toInt64_of_counter hof
    rw [Request.timestamp]
    omega
  | elapsedRealtimeNanoToQtimerNs androidTS =>
    have ha : androidTS.toInt = C.clock event := hof
    rw [Request.timestamp]
    omega
  | recalculateOffset forceUpdate elapsedRealtimeNano =>
    have ha : elapsedRealtimeNano.toInt = C.clock event := hof
    rw [Request.timestamp]
    omega

theorem inv_init (hb : b.Hold C) {s : Timed} (h : (timedSystem C b).init s) : Inv C b s := by
  obtain ⟨τ₁, τ₂, elapsedRealtimeNano, qtimerTimeNs, hle, hnow, hclock, hcounter, hdelay,
    hutil⟩ := h
  obtain ⟨offset, hoffset, hs⟩ := Option.map_eq_some_iff.1 hutil
  have hq := toInt_toInt64_of_counter hcounter
  have hsub := checkedSub_eq_some_iff.1 hoffset
  rw [hclock, hq] at hsub
  have hlate := C.late_le hle
  have hearly := C.le_late τ₁ τ₂
  have hhi := hb.le_hi τ₁
  have hgap := hb.gap_nonneg
  have hclock' := clock_eq (C := C) τ₁
  refine ⟨⟨τ₁, hle.trans hnow, ⟨?_, ?_⟩, ?_⟩, ?_⟩
  · rw [← hs, hsub]
    omega
  · rw [← hs, hsub]
    omega
  · rw [← hs, hclock]
    omega
  · rw [← hs, hclock]
    exact C.clock_nonneg τ₁

/-- **After a call** the offset comes from an instant at most `age` away from that of the
timestamp. -/
theorem exists_from_of_updates (hb : b.Hold C) {s : Timed} {l : TimedCall} (hs : Inv C b s)
    (hl : Timely C b l) (hstart : s.now ≤ l.start) (hfinish : l.start ≤ l.finish)
    {util : TimeUtil} {passes : ℕ}
    (hupdates : Updates l.clock l.request.force (l.request.timestamp s.util) s.util util passes)
    (hread : ∀ i < passes, (l.clock i).ReadBetween C l.start l.finish) :
    (∃ τ ≤ l.finish, From C b τ util ∧ |C.counter l.event - C.counter τ| ≤ b.age) ∧
      0 ≤ util.mLastRealtimeNs.toInt := by
  obtain ⟨τ₀, hτ₀, hfrom⟩ := hs.exists_from
  obtain ⟨hts, hts'⟩ := timestamp_mem hb hfrom hl.isOf
  have hlo := hb.lo_le τ₀
  have hhi := hb.le_hi τ₀
  have hdelay := hb.delay_nonneg
  have hgap := hb.gap_nonneg
  have hrecent := hl.recent
  have hlast := hfrom.2
  have hevent := C.counter_mono (hl.past.trans hfinish)
  cases hupdates with
  | unchanged h =>
    have hold := C.counter_mono (hτ₀.trans (hstart.trans hfinish))
    have hclock := clock_eq (C := C) τ₀
    have hnonneg := C.clock_nonneg τ₀
    refine ⟨⟨τ₀, hτ₀.trans (hstart.trans hfinish), hfrom, abs_le.2 ?_⟩, hs.last_nonneg⟩
    rw [Bounds.age]
    omega
  | @refreshed androidTS offset k heq hpos h =>
    have hpass := hread k (Nat.lt_succ_self k)
    obtain ⟨τ, hτ, hτ', hestimate⟩ := hpass.exists_estimate
    have hsince := C.counter_mono (hl.past.trans hτ)
    have huntil := C.counter_mono hτ'
    rw [← h.valid hpass.valid] at hestimate
    refine ⟨⟨τ, hτ', ⟨hestimate.mono hdelay (hl.gap_le k h.last), ?_⟩, abs_le.2 ?_⟩, ?_⟩
    · show androidTS.toInt ≤ _
      omega
    · rw [Bounds.age]
      omega
    · show 0 ≤ androidTS.toInt
      omega

theorem exists_from_of_step (hb : b.Hold C) {s t : Timed} {l : TimedCall} (hs : Inv C b s)
    (hl : Timely C b l) (hstep : (timedSystem C b).step s l t) :
    (∃ τ ≤ t.now, From C b τ t.util ∧ |C.counter l.event - C.counter τ| ≤ b.age) ∧
      0 ≤ t.util.mLastRealtimeNs.toInt := by
  obtain ⟨hstart, hfinish, hnow, out, hcall, -, hutil, hread⟩ := hstep
  rw [hutil, hnow]
  exact exists_from_of_updates hb hs hl hstart hfinish (Request.call_spec hcall).1 hread

theorem inv_step (hb : b.Hold C) :
    (timedSystem C b).Preserves (fun _ l ↦ Timely C b l) (Inv C b) := by
  intro s l t hs hl hstep
  obtain ⟨⟨τ, hτ, hfrom, -⟩, hlast⟩ := exists_from_of_step hb hs hl hstep
  exact ⟨⟨τ, hτ, hfrom⟩, hlast⟩

theorem inv_of_reachable (hb : b.Hold C) {s : Timed}
    (h : (timedSystem C b).ReachableIf (fun _ l ↦ Timely C b l) s) : Inv C b s :=
  TransitionSystem.IsInvariantIf.of_reachable ⟨fun _ hs ↦ inv_init hb hs, inv_step hb⟩ h

end

/-! ### Accuracy -/

/-- What is returned is off by at most so much from what the other clock showed at the instant of
the timestamp. -/
def Reply.Within (C : Clocks) (τ : ℕ) (below above : ℤ) : Reply → Prop
  | .realtime ns => C.clock τ - below ≤ ns.toInt ∧ ns.toInt ≤ C.clock τ + above
  | .qtimer ns => C.counter τ - above ≤ ns.toInt64.toInt ∧ ns.toInt64.toInt ≤ C.counter τ + below
  | .changed _ => True

/-- What is returned is as accurate as the offset. -/
theorem within_of_returns {C : Clocks} {τ : ℕ} {x below above : ℤ}
    (h : C.Estimate x τ below above) {req : Request} {reply : Reply} (hof : req.IsOf C τ)
    (hreturns : req.Returns x reply) : reply.Within C τ below above := by
  have hlo := h.le_add
  have hhi := h.le
  have hclock := clock_eq (C := C) τ
  cases req with
  | qtimerNsToElapsedRealtimeNano qtimerTS =>
    cases reply with
    | realtime ns =>
      have hq := toInt_toInt64_of_counter hof
      have hns : ns.toInt = qtimerTS.toInt64.toInt + x := hreturns
      constructor <;> omega
    | qtimer | changed => cases hreturns
  | elapsedRealtimeNanoToQtimerNs androidTS =>
    cases reply with
    | qtimer ns =>
      have ha : androidTS.toInt = C.clock τ := hof
      have hns : ns.toInt64.toInt = androidTS.toInt - x := hreturns
      constructor <;> omega
    | realtime | changed => cases hreturns
  | recalculateOffset forceUpdate elapsedRealtimeNano =>
    cases reply with
    | changed => trivial
    | realtime | qtimer => cases hreturns

/-- **How far a conversion is off**, after any run of calls with timestamps of what has happened: by
what the clocks drift apart while an offset is in use, which is at most `age`, and by what passes
between the readings that the offset comes from. -/
theorem accuracy {C : Clocks} {b : Bounds} {ω : ℤ → ℤ} (hb : b.Hold C) (hω : C.Drifts ω)
    {s t : Timed} {l : TimedCall}
    (hs : (timedSystem C b).ReachableIf (fun _ l ↦ Timely C b l) s) (hl : Timely C b l)
    (hstep : (timedSystem C b).step s l t) :
    C.Estimate t.util.mOffsetNs.toInt l.event (b.delay + ω b.age) (b.gap + ω b.age) ∧
      l.reply.Within C l.event (b.delay + ω b.age) (b.gap + ω b.age) := by
  obtain ⟨⟨τ, -, hfrom, hage⟩, -⟩ := exists_from_of_step hb (inv_of_reachable hb hs) hl hstep
  have hestimate := hfrom.1.drift hω hage
  obtain ⟨-, -, -, out, hcall, hreply, hutil, -⟩ := hstep
  have hreturns := (Request.call_spec hcall).2
  rw [← hutil, ← hreply] at hreturns
  exact ⟨hestimate, within_of_returns hestimate hl.isOf hreturns⟩

/-- Two clocks that are 10 ns apart. -/
def evenClocks : Clocks where
  counter τ := min (τ : ℤ) (2 ^ 61)
  clock τ := min (τ : ℤ) (2 ^ 61) + 10
  counter_mono τ τ' h := by
    show min (τ : ℤ) (2 ^ 61) ≤ min (τ' : ℤ) (2 ^ 61)
    omega
  counter_nonneg τ := by omega
  counter_lt τ := by omega
  clock_nonneg τ := by omega
  clock_lt τ := by omega

/-- Their offset never changes; the timestamps are up to 2 μs old. -/
def evenBounds : Bounds :=
  ⟨10, 10, 0, 500, 2000⟩

theorem offset_evenClocks (τ : ℕ) : evenClocks.offset τ = 10 := by
  exact add_sub_cancel_left (min (τ : ℤ) (2 ^ 61)) 10

theorem evenBounds_hold : evenBounds.Hold evenClocks where
  lo_le τ := (offset_evenClocks τ).ge
  le_hi τ := (offset_evenClocks τ).le
  delay_nonneg := by decide
  gap_nonneg := by decide

theorem drifts_evenClocks : evenClocks.Drifts fun _ ↦ 0 where
  mono := fun _ _ _ ↦ le_rfl
  abs_le τ τ' := by rw [offset_evenClocks, offset_evenClocks, sub_self, abs_zero]

/-- The object 40 s after the clocks were started. -/
def wokenUp : Timed :=
  ⟨sleeping, 40000000000⟩

/-- The conversion of a timestamp 70 s later. -/
def conversion : TimedCall :=
  ⟨.qtimerNsToElapsedRealtimeNano 110000000000, 110000000000, fun _ ↦ steady, 110000000500,
    110000002000, .realtime 110000000010⟩

theorem reachable_wokenUp : (timedSystem evenClocks evenBounds).ReachableIf
    (fun _ l ↦ Timely evenClocks evenBounds l) wokenUp :=
  ⟨wokenUp, [], ⟨39999999990, 39999999990, 40000000000, 39999999990, by decide, by decide,
    by decide, by decide, by decide, rfl⟩, .nil⟩

theorem readBetween_steady :
    steady.ReadBetween evenClocks conversion.start conversion.finish :=
  ⟨110000001000, 110000001000, 110000001500, by decide, by decide, by decide, by decide,
    by decide, by decide, by decide⟩

theorem timely_conversion : Timely evenClocks evenBounds conversion where
  isOf := by
    show ((110000000000 : UInt64).toNat : ℤ) = evenClocks.counter 110000000000
    decide
  past := by decide
  recent := by decide
  gap_le _ _ := by
    show (steady.gap.toNat : ℤ) ≤ 500
    decide

theorem accuracy_evenClocks :
    ∃ t, (timedSystem evenClocks evenBounds).step wokenUp conversion t ∧
      conversion.reply.Within evenClocks conversion.event 0 500 := by
  have hcall : conversion.request.call sleeping (fun _ ↦ steady) =
      some ⟨.realtime 110000000010, ⟨110000000010, 10⟩, 1⟩ := by
    show Option.map _ (sleeping.qtimerNsToElapsedRealtimeNano 110000000000 _) = _
    rw [sleeping_qtimerNsToElapsedRealtimeNano (r := steady) (by decide) rfl rfl rfl]
    rfl
  have hstep : (timedSystem evenClocks evenBounds).step wokenUp conversion
      ⟨⟨110000000010, 10⟩, 110000002000⟩ :=
    ⟨by decide, by decide, rfl, _, hcall, rfl, rfl, fun _ _ ↦ readBetween_steady⟩
  exact ⟨_, hstep,
    (accuracy evenBounds_hold drifts_evenClocks reachable_wokenUp timely_conversion hstep).2⟩

/-! ### Nothing overflows -/

/-- The offset is a difference of two readings, and the stored timestamp not negative. -/
structure InRange (util : TimeUtil) : Prop where
  lt_offset : -2 ^ 62 < util.mOffsetNs.toInt
  offset_lt : util.mOffsetNs.toInt < 2 ^ 62
  last_nonneg : 0 ≤ util.mLastRealtimeNs.toInt

section

variable {C : Clocks} {b : Bounds}

theorem inRange_init {s : Timed} (h : (timedSystem C b).init s) : InRange s.util := by
  obtain ⟨τ₁, τ₂, elapsedRealtimeNano, qtimerTimeNs, -, -, hclock, hcounter, -, hutil⟩ := h
  obtain ⟨offset, hoffset, hs⟩ := Option.map_eq_some_iff.1 hutil
  have hsub := checkedSub_eq_some_iff.1 hoffset
  rw [hclock, toInt_toInt64_of_counter hcounter] at hsub
  have hclock₀ := C.clock_nonneg τ₁
  have hclock₁ := C.clock_lt τ₁
  have hcounter₀ := C.counter_nonneg τ₂
  have hcounter₁ := C.counter_lt τ₂
  rw [← hs]
  refine ⟨?_, ?_, ?_⟩
  · show -2 ^ 62 < offset.toInt
    omega
  · show offset.toInt < 2 ^ 62
    omega
  · show 0 ≤ elapsedRealtimeNano.toInt
    rw [hclock]
    exact hclock₀

/-- What the sampling loop leaves. -/
theorem offset_mem_of_readBetween {clock : ℕ → Sample} {iter k start finish : ℕ}
    {mOffsetNs offset : Int64} (h : LoopResult clock iter mOffsetNs offset k)
    (hread : (clock k).ReadBetween C start finish) :
    -2 ^ 62 < offset.toInt ∧ offset.toInt < 2 ^ 62 := by
  have hoffset := h.valid hread.valid
  obtain ⟨τ₁, τ₂, τ₃, -, -, -, -, hns, hcurr, -⟩ := hread
  rw [hns, hcurr] at hoffset
  have hclock₀ := C.clock_nonneg τ₂
  have hclock₁ := C.clock_lt τ₂
  have hcounter₀ := C.counter_nonneg τ₁
  have hcounter₁ := C.counter_lt τ₁
  omega

theorem InRange.updates {clock : ℕ → Sample} {force : Bool} {ts : ℤ} {s util : TimeUtil}
    {passes start finish : ℕ} (hs : InRange s) (h : Updates clock force ts s util passes)
    (hread : ∀ i < passes, (clock i).ReadBetween C start finish) : InRange util := by
  cases h with
  | unchanged => exact hs
  | @refreshed androidTS offset k hts hpos h =>
    have hmem := offset_mem_of_readBetween h (hread k (Nat.lt_succ_self k))
    refine ⟨hmem.1, hmem.2, ?_⟩
    show 0 ≤ androidTS.toInt
    omega

theorem inRange_step : (timedSystem C b).Preserves (fun _ l ↦ Timely C b l) fun s ↦
    InRange s.util := by
  rintro s l t hs - ⟨-, -, -, out, hcall, -, hutil, hread⟩
  rw [hutil]
  exact hs.updates (Request.call_spec hcall).1 hread

theorem inRange_of_reachable {s : Timed}
    (h : (timedSystem C b).ReachableIf (fun _ l ↦ Timely C b l) s) : InRange s.util :=
  TransitionSystem.IsInvariantIf.of_reachable ⟨fun _ hs ↦ inRange_init hs, inRange_step⟩ h

variable {s : TimeUtil} {clock : ℕ → Sample} {start finish : ℕ}

/-- A refresh overflows nowhere, the arguments of its log message included. -/
theorem InRange.exists_update (hs : InRange s) (androidTS : Int64) (force : Bool)
    (hread : ∀ i, (clock i).ReadBetween C start finish) :
    ∃ out, s.updateQtimerToRealtimeOffset androidTS force clock = some out := by
  have hlast := hs.last_nonneg
  have hts := androidTS.toInt_lt
  have hts' := androidTS.le_toInt
  cases hdue : s.updateDue androidTS force with
  | none =>
    have hfar := (TimeUtil.updateDue_eq_none_iff.1 hdue).2.2
    omega
  | some due =>
    cases due with
    | false => exact ⟨_, TimeUtil.update_of_not_due hdue⟩
    | true =>
      have hpos := ((TimeUtil.refreshes_iff_of_updateDue hdue).2 rfl).1
      have hlo := hs.lt_offset
      have hhi := hs.offset_lt
      have hlast' := s.mLastRealtimeNs.toInt_lt
      obtain ⟨offset, k, hresult, hout⟩ := TimeUtil.update_of_due hdue clock
      have hmem := offset_mem_of_readBetween hresult (hread k)
      exact ⟨_, (hout _).2 ⟨rfl, exists_checkedSub (by omega) (by omega),
        exists_checkedSub (by omega) (by omega)⟩⟩

/-- A call whose timestamp is of what has happened has an outcome. -/
theorem InRange.exists_call (hs : InRange s) {req : Request} {event : ℕ} (hof : req.IsOf C event)
    (hread : ∀ i, (clock i).ReadBetween C start finish) : ∃ out, req.call s clock = some out := by
  have hlo := hs.lt_offset
  have hhi := hs.offset_lt
  have hcounter := C.counter_nonneg event
  have hcounter' := C.counter_lt event
  have hclock := C.clock_nonneg event
  have hclock' := C.clock_lt event
  cases req with
  | qtimerNsToElapsedRealtimeNano qtimerTS =>
    have hq := toInt_toInt64_of_counter hof
    obtain ⟨realtimeNs, hadd⟩ := exists_checkedAdd (a := qtimerTS.toInt64) (b := s.mOffsetNs)
      (by omega) (by omega)
    obtain ⟨update, hupdate⟩ := hs.exists_update realtimeNs false hread
    have hrange := hs.updates (updates_of_update hupdate) fun i _ ↦ hread i
    have hlo' := hrange.lt_offset
    have hhi' := hrange.offset_lt
    obtain ⟨result, hresult⟩ := exists_checkedAdd (a := qtimerTS.toInt64)
      (b := update.state.mOffsetNs) (by omega) (by omega)
    rw [Request.call, TimeUtil.qtimerNsToElapsedRealtimeNano, hadd, Option.bind_some, hupdate,
      Option.bind_some, hresult]
    split <;> exact ⟨_, rfl⟩
  | elapsedRealtimeNanoToQtimerNs androidTS =>
    have ha : androidTS.toInt = C.clock event := hof
    obtain ⟨update, hupdate⟩ := hs.exists_update androidTS false hread
    have hrange := hs.updates (updates_of_update hupdate) fun i _ ↦ hread i
    have hlo' := hrange.lt_offset
    have hhi' := hrange.offset_lt
    obtain ⟨diff, hdiff⟩ := exists_checkedSub (a := androidTS) (b := update.state.mOffsetNs)
      (by omega) (by omega)
    rw [Request.call, TimeUtil.elapsedRealtimeNanoToQtimerNs, hupdate, Option.bind_some, hdiff]
    exact ⟨_, rfl⟩
  | recalculateOffset forceUpdate elapsedRealtimeNano =>
    obtain ⟨update, hupdate⟩ := hs.exists_update elapsedRealtimeNano forceUpdate hread
    rw [Request.call, TimeUtil.recalculateOffset, hupdate]
    exact ⟨_, rfl⟩

end

/-- **No call overflows**, after any run of calls with timestamps of what has happened: clocks that
read less than 2^62 ns are close enough to each other. -/
theorem exists_step {C : Clocks} {b : Bounds} {s : Timed}
    (hs : (timedSystem C b).ReachableIf (fun _ l ↦ Timely C b l) s) {l : TimedCall}
    (hl : Timely C b l) (hstart : s.now ≤ l.start) (hfinish : l.start ≤ l.finish)
    (hread : ∀ i, (l.clock i).ReadBetween C l.start l.finish) :
    ∃ reply t, (timedSystem C b).step s { l with reply := reply } t := by
  obtain ⟨out, hout⟩ := (inRange_of_reachable hs).exists_call hl.isOf hread
  exact ⟨out.value, ⟨out.state, l.finish⟩, hstart, hfinish, rfl, out, hout, rfl, rfl,
    fun i _ ↦ hread i⟩

theorem exists_step_evenClocks :
    ∃ reply t, (timedSystem evenClocks evenBounds).step wokenUp
      { conversion with reply := reply } t :=
  exists_step reachable_wokenUp timely_conversion (by decide) (by decide) fun _ ↦ readBetween_steady

end SensingHub.Time
