import SensingHub.Lib.Checked

/-!
# The clock conversion of `qshTimeUtil`

`mOffsetNs` is the difference between the system clock and the QTimer, `mLastRealtimeNs` the
timestamp of the call that last refreshed it. A conversion first asks
`updateQtimerToRealtimeOffset`, which refreshes the offset if the timestamp is earlier than the last
one or `OFFSET_UPDATE_SCHEDULE_NS` later: it samples both clocks until two QTimer readings around
one system reading are close enough, at most `QTIMER_GAP_MAX_ITERATION` times.

The clocks are outside the program: a `Sample` holds what one pass of the sampling loop reads, any
64-bit values, and a call is given the samples it may take. Signed sums and differences are checked:
a call that overflows has no outcome. Unsigned ones wrap.
-/

namespace SensingHub.Time

open Checked

/-- What one pass of the sampling loop reads: the QTimer, the system clock, the QTimer again. -/
structure Sample where
  ns : UInt64
  curr_androidTS : Int64
  ns_end : UInt64
  deriving DecidableEq, Repr

/-- How often the offset needs to be updated. -/
def OFFSET_UPDATE_SCHEDULE_NS : Int64 := 60000000000

/-- The largest gap between the QTimer readings of a good sample. -/
def QTIMER_GAP_THRESHOLD_NS : UInt64 := 10000

/-- How many samples are taken at most. -/
def QTIMER_GAP_MAX_ITERATION : ℕ := 20

/-- `std::numeric_limits<int64_t>::max()`, as compared with a `uint64_t`. -/
def INT64_MAX : UInt64 := 9223372036854775807

namespace Sample

/-- The readings from which an offset is computed. -/
def Valid (r : Sample) : Prop :=
  r.ns ≤ INT64_MAX ∧ 0 ≤ r.curr_androidTS

instance (r : Sample) : Decidable r.Valid :=
  inferInstanceAs (Decidable (_ ∧ _))

/-- `ns_end - ns`, which wraps if the counter went backwards. -/
def gap (r : Sample) : UInt64 :=
  r.ns_end - r.ns

/-- `mOffsetNs` after the pass: invalid readings are logged and leave it alone. -/
def newOffset (r : Sample) (mOffsetNs : Int64) : Option Int64 :=
  if r.Valid then checkedSub r.curr_androidTS r.ns.toInt64 else some mOffsetNs

end Sample

/-- The members of `qshTimeUtil` that change. -/
structure TimeUtil where
  mLastRealtimeNs : Int64
  mOffsetNs : Int64
  deriving DecidableEq, Repr

/-- What a call returns, the state it leaves, and how many passes of the sampling loop it made; a
call that does not refresh makes none. -/
structure Outcome (α : Type*) where
  value : α
  state : TimeUtil
  passes : ℕ
  deriving DecidableEq, Repr

/-- The `do … while` loop, at the start of the pass `iter`: the offset it leaves and the number of
passes made. -/
def sampleLoop (clock : ℕ → Sample) (iter : ℕ) (mOffsetNs : Int64) : Option (Int64 × ℕ) :=
  ((clock iter).newOffset mOffsetNs).bind fun offset ↦
    if QTIMER_GAP_THRESHOLD_NS < (clock iter).gap ∧ iter + 1 < QTIMER_GAP_MAX_ITERATION then
      sampleLoop clock (iter + 1) offset
    else some (offset, iter + 1)
  termination_by QTIMER_GAP_MAX_ITERATION - iter

namespace TimeUtil

/-- The condition under which `updateQtimerToRealtimeOffset` refreshes, from left to right. -/
def updateDue (s : TimeUtil) (androidTS : Int64) (force : Bool) : Option Bool :=
  if 0 < androidTS then
    if force then some true
    else if androidTS < s.mLastRealtimeNs then some true
    else (checkedSub androidTS s.mLastRealtimeNs).map fun diff ↦
      decide (OFFSET_UPDATE_SCHEDULE_NS ≤ diff)
  else some false

/-- Refreshes the offset if the timestamp calls for it; true if it did. A log message tells how far
the offset and the timestamp have moved. -/
def updateQtimerToRealtimeOffset (s : TimeUtil) (androidTS : Int64) (force : Bool)
    (clock : ℕ → Sample) : Option (Outcome Bool) :=
  (s.updateDue androidTS force).bind fun due ↦
    if due then
      (sampleLoop clock 0 s.mOffsetNs).bind fun r ↦
        -- the message goes nowhere, but its arguments are computed
        (checkedSub r.1 s.mOffsetNs).bind fun _ ↦
          (checkedSub androidTS s.mLastRealtimeNs).map fun _ ↦ ⟨true, ⟨androidTS, r.1⟩, r.2⟩
    else some ⟨false, s, 0⟩

/-- QTimer timestamp to system time. The timestamp that decides on the refresh is computed with the
offset before it, the result with the offset after it. -/
def qtimerNsToElapsedRealtimeNano (s : TimeUtil) (qtimerTS : UInt64) (clock : ℕ → Sample) :
    Option (Outcome Int64) :=
  (checkedAdd qtimerTS.toInt64 s.mOffsetNs).bind fun realtimeNs ↦
    (s.updateQtimerToRealtimeOffset realtimeNs false clock).bind fun update ↦
      if update.value then
        (checkedAdd qtimerTS.toInt64 update.state.mOffsetNs).map fun realtimeNs ↦
          ⟨realtimeNs, update.state, update.passes⟩
      else some ⟨realtimeNs, update.state, update.passes⟩

/-- System time to QTimer timestamp. -/
def elapsedRealtimeNanoToQtimerNs (s : TimeUtil) (androidTS : Int64) (clock : ℕ → Sample) :
    Option (Outcome UInt64) :=
  (s.updateQtimerToRealtimeOffset androidTS false clock).bind fun update ↦
    (checkedSub androidTS update.state.mOffsetNs).map fun diff ↦
      ⟨diff.toUInt64, update.state, update.passes⟩

/-- The constructor: the system clock is read first, the QTimer after it. -/
def construct (elapsedRealtimeNano : Int64) (qtimerTimeNs : UInt64) : Option TimeUtil :=
  (checkedSub elapsedRealtimeNano qtimerTimeNs.toInt64).map fun offset ↦
    ⟨elapsedRealtimeNano, offset⟩

/-- Refreshes the offset for what the system clock reads. -/
def recalculateOffset (s : TimeUtil) (forceUpdate : Bool) (elapsedRealtimeNano : Int64)
    (clock : ℕ → Sample) : Option (Outcome Bool) :=
  s.updateQtimerToRealtimeOffset elapsedRealtimeNano forceUpdate clock

end TimeUtil

end SensingHub.Time
