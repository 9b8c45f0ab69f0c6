import SensingHub.Lib.Handles
import SensingHub.Wakelock.Safety

/-!
# The one wakelock of a process and its files

`getInstance` makes the object when it is first given a name; all clients share it, whatever names
they give. Here the object is followed down to its files: the constructor opens two, and closes the
first again if it cannot open the second, and the calls write the name to them, as long as they are
open.

`Lives` is what the clients see, with the wakelock of `System` in the place of the object.
`commands_live` says that object and files do just that, and what the kernel is told by all of it.
-/

namespace SensingHub.Wakelock

open HandleOp

/-! ### The functions -/

/-- Programs that open the device files and write names to them. -/
abbrev LockM :=
  HandleM Unit Path (fun _ : String ↦ ℤ) (fun _ : Empty ↦ Unit)

namespace QshWakelock

/-- What the constructor leaves if a file cannot be opened. -/
def unopened : QshWakelock :=
  ⟨0, false, fun _ ↦ -1, ""⟩

theorem not_open_unopened (path : Path) : ¬ 0 ≤ unopened.mFds path := by
  show ¬ (0 : ℤ) ≤ -1
  decide

/-- The descriptors of the two files. -/
def fds (acquire release : ℕ) : Path → ℤ
  | .wake_lock => acquire
  | .wake_unlock => release

/-- `qshWakelock::qshWakelock` -/
def construct (lockName : String) : LockM QshWakelock := do
  match ← callAcquire () .wake_lock with
  | none => return unopened
  | some fd =>
    match ← callAcquire () .wake_unlock with
    | none =>
      callRelease () fd
      return unopened
    | some fd' => return ⟨0, false, fds fd fd', lockName⟩

variable (self : QshWakelock)

/-- The `write` of the name, and what follows from it. -/
def write (path : Path) (held : Bool) : LockM (ℤ × QshWakelock) :=
  if 0 ≤ self.mFds path then do
    let written ← callUse () (self.mFds path).toNat self.mQshWakelockName
    if 0 < written then return (0, { self with mIsHeld := held })
    else return (-1, self)
  else return (-1, self)

/-- `qshWakelock::acquire()` -/
def kernelAcquire : LockM (ℤ × QshWakelock) :=
  self.write .wake_lock true

/-- `qshWakelock::release()` -/
def kernelRelease : LockM (ℤ × QshWakelock) :=
  self.write .wake_unlock false

/-- `qshWakelock::acquire(unsigned int)` -/
def acquire (inCount : UInt32) : LockM (ℤ × QshWakelock) :=
  if 4294967295 - self.mAcqCount < inCount then return (-1, self)
  else if self.mAcqCount = 0 ∧ self.mIsHeld = false then do
    let (ret, self) ← self.kernelAcquire
    if ret ≠ 0 then return (ret, self)
    else return (ret, { self with mAcqCount := self.mAcqCount + inCount })
  else return (-1, { self with mAcqCount := self.mAcqCount + inCount })

/-- `qshWakelock::release(unsigned int)` -/
def release (inCount : UInt32) : LockM (ℤ × QshWakelock) :=
  if self.mAcqCount < inCount then return (-1, self)
  else
    let self := { self with mAcqCount := self.mAcqCount - inCount }
    if self.mAcqCount = 0 ∧ self.mIsHeld = true then self.kernelRelease
    else return (-1, self)

end QshWakelock

/-- `qshWakelock::getInstance`, with `mSelf`. -/
def getInstance (mSelf : Option QshWakelock) (lockName : Option String) :
    LockM (Option QshWakelock) :=
  match mSelf, lockName with
  | some self, _ => return some self
  | none, none => return none
  | none, some lockName => do
    let self ← QshWakelock.construct lockName
    return some self

/-- What clients do, one after another: `acquire` and `release` have a mutex, and `getInstance` is
not called by two threads at once. -/
inductive Command
  | getInstance (lockName : Option String)
  | acquire (inCount : UInt32)
  | release (inCount : UInt32)
  deriving DecidableEq, Repr

/-- What a command returns, if that is a number, and `mSelf` behind it. There is nothing to call as
long as there is no object. -/
def execute (mSelf : Option QshWakelock) (c : Command) : LockM (Option ℤ × Option QshWakelock) :=
  match c, mSelf with
  | .getInstance lockName, mSelf => do
    let mSelf ← getInstance mSelf lockName
    return (none, mSelf)
  | .acquire _, none | .release _, none => return (none, none)
  | .acquire inCount, some self => do
    let (ret, self) ← self.acquire inCount
    return (some ret, some self)
  | .release inCount, some self => do
    let (ret, self) ← self.release inCount
    return (some ret, some self)

/-- Some commands. -/
def executeAll (mSelf : Option QshWakelock) :
    List Command → LockM (List (Option ℤ) × Option QshWakelock)
  | [] => return ([], mSelf)
  | c :: cs => do
    let (r, mSelf) ← execute mSelf c
    let (rs, mSelf) ← executeAll mSelf cs
    return (r :: rs, mSelf)

/-! ### What clients see -/

/-- A public call without what becomes of its write. -/
def Call.command : Call → Command
  | .acquire inCount _ => .acquire inCount
  | .release inCount _ => .release inCount

/-- The name that is given with a command. -/
def Command.lockName : Command → Option String
  | .getInstance lockName => lockName
  | .acquire _ | .release _ => none

/-- A command, what it returns and the wakelock behind it. -/
inductive Executes : Option System → Command → Option ℤ → Option System → Prop
  /-- There is no name and no object yet. -/
  | nobody (c : Command) (hc : c.lockName = none) : Executes none c none none
  | construct (lockName : String) (opened : Path → ℤ) :
      Executes none (.getInstance (some lockName)) none (some (.construct opened lockName))
  /-- A name that is given later does not matter. -/
  | again (s : System) (lockName : Option String) :
      Executes (some s) (.getInstance lockName) none (some s)
  | call (s : System) (c : Call) :
      Executes (some s) c.command (some (s.call c).1) (some (s.call c).2)

/-- The commands, what they return and the wakelock they leave. -/
inductive Lives : Option System → List Command → List (Option ℤ) → Option System → Prop
  | nil (s : Option System) : Lives s [] [] s
  | cons {s t u : Option System} {c : Command} {cs : List Command} {r : Option ℤ}
      {rs : List (Option ℤ)} (h : Executes s c r t) (hcs : Lives t cs rs u) :
      Lives s (c :: cs) (r :: rs) u

/-- The first name that is given. -/
def firstName (cs : List Command) : Option String :=
  cs.findSome? Command.lockName

/-! ### Object and files -/

/-- The interface of the files. -/
abbrev fileContract : Contract (HandleOp Unit Path String Empty)
    (HandleAns (fun _ ↦ ℤ) fun _ ↦ Unit) (Handles Unit Path fun _ : String ↦ ℤ) :=
  Handles.contract fun _ _ ↦ True

/-- What the kernel has taken. -/
def writes (fs : Handles Unit Path fun _ : String ↦ ℤ) : List KernelWrite :=
  fs.used.filterMap fun e ↦ if 0 < e.answer then some ⟨e.name, e.use⟩ else none

/-- The files are those of the wakelock: its descriptors are open, nothing else is, and the kernel
has taken what it has written. -/
structure Stands (s : System) (fs : Handles Unit Path fun _ : String ↦ ℤ) : Prop where
  held : ∀ path, 0 ≤ s.lock.mFds path → fs.held ((), (s.lock.mFds path).toNat) = some path
  only : ∀ fd path, fs.held ((), fd) = some path → s.lock.mFds path = fd
  kernel : s.kernel = writes fs

/-- Nothing has been opened yet, as long as there is no object. -/
def StandsFor (fs : Handles Unit Path fun _ : String ↦ ℤ) : Option System → Prop
  | none => fs = .empty
  | some s => Stands s fs

namespace System

/-- What both `acquire()` and `release()` do. -/
def writeTo (s : System) (path : Path) (held : Bool) (written : ℤ) : ℤ × System :=
  if 0 ≤ s.lock.mFds path then
    if 0 < written then (0, s.wrote path held)
    else (-1, s)
  else (-1, s)

end System

variable {s : System} {fs : Handles Unit Path fun _ : String ↦ ℤ}

theorem Stands.setCount (h : Stands s fs) (n : UInt32) : Stands (s.setCount n) fs :=
  ⟨h.held, h.only, h.kernel⟩

theorem writes_record (fs : Handles Unit Path fun _ : String ↦ ℤ) (path : Path) (name : String)
    (written : ℤ) : writes (fs.record ⟨path, name, written⟩) =
      writes fs ++ (if 0 < written then [⟨path, name⟩] else []) := by
  rw [writes, Handles.record, List.filterMap_append, List.filterMap_cons, List.filterMap_nil]
  by_cases h : 0 < written
  · rw [if_pos h, if_pos h]
    rfl
  · rw [if_neg h, if_neg h]
    rfl

theorem wp_write (h : Stands s fs) (path : Path) (held : Bool) :
    fileContract.wp (s.lock.write path held) (fun r t ↦ ∃ written,
      r = ((s.writeTo path held written).1, (s.writeTo path held written).2.lock) ∧
        Stands (s.writeTo path held written).2 t) fs := by
  rw [QshWakelock.write]
  split
  · next hfd =>
    refine Handles.wp_use (h.held path hfd) fun written ↦ ?_
    have hkernel := writes_record fs path s.lock.mQshWakelockName written
    split
    · next hw =>
      rw [if_pos hw] at hkernel
      refine Contract.wp_pure ⟨written, ?_⟩
      rw [System.writeTo, if_pos hfd, if_pos hw]
      exact ⟨rfl, h.held, h.only, by rw [System.wrote_kernel, hkernel, h.kernel]⟩
    · next hw =>
      rw [if_neg hw, List.append_nil] at hkernel
      refine Contract.wp_pure ⟨written, ?_⟩
      rw [System.writeTo, if_pos hfd, if_neg hw]
      exact ⟨rfl, h.held, h.only, h.kernel.trans hkernel.symm⟩
  · next hfd =>
    refine Contract.wp_pure ⟨0, ?_⟩
    rw [System.writeTo, if_neg hfd]
    exact ⟨rfl, h⟩

theorem wp_acquire (h : Stands s fs) (n : UInt32) :
    fileContract.wp (s.lock.acquire n) (fun r t ↦ ∃ written,
      r = ((s.acquire n written).1, (s.acquire n written).2.lock) ∧
        Stands (s.acquire n written).2 t) fs := by
  unfold QshWakelock.acquire System.acquire
  split
  · exact Contract.wp_pure ⟨0, rfl, h⟩
  · split
    · refine Contract.wp_then (wp_write h .wake_lock true) ?_
      rintro ⟨ret, self⟩ t ⟨written, heq, hstands⟩
      obtain ⟨rfl, rfl⟩ := Prod.mk.inj heq
      have hkernel : s.kernelAcquire written = s.writeTo .wake_lock true written := rfl
      dsimp only
      split
      · next hne =>
        refine Contract.wp_pure ⟨written, ?_⟩
        rw [hkernel, if_pos hne]
        exact ⟨rfl, hstands⟩
      · next hzero =>
        refine Contract.wp_pure ⟨written, ?_⟩
        rw [hkernel, if_neg hzero]
        exact ⟨rfl, hstands.setCount _⟩
    · exact Contract.wp_pure ⟨0, rfl, h.setCount _⟩

theorem wp_release (h : Stands s fs) (n : UInt32) :
    fileContract.wp (s.lock.release n) (fun r t ↦ ∃ written,
      r = ((s.release n written).1, (s.release n written).2.lock) ∧
        Stands (s.release n written).2 t) fs := by
  unfold QshWakelock.release System.release
  split
  · exact Contract.wp_pure ⟨0, rfl, h⟩
  · have hset := h.setCount (s.lock.mAcqCount - n)
    show fileContract.wp (if (s.setCount (s.lock.mAcqCount - n)).lock.mAcqCount = 0 ∧
        (s.setCount (s.lock.mAcqCount - n)).lock.mIsHeld = true then
      (s.setCount (s.lock.mAcqCount - n)).lock.kernelRelease
      else return (-1, (s.setCount (s.lock.mAcqCount - n)).lock)) _ fs
    split
    · next hlast =>
      refine Contract.wp_mono ?_ (wp_write hset .wake_unlock false)
      rintro r t ⟨written, hr, hstands⟩
      refine ⟨written, ?_⟩
      rw [if_pos hlast]
      exact ⟨hr, hstands⟩
    · next hlast =>
      refine Contract.wp_pure ⟨0, ?_⟩
      rw [if_neg hlast]
      exact ⟨rfl, hset⟩

/-- What the constructor makes of two open files. -/
theorem construct_fds (fd fd' : ℕ) (lockName : String) :
    System.construct (QshWakelock.fds fd fd') lockName =
      ⟨⟨0, false, QshWakelock.fds fd fd', lockName⟩, []⟩ := by
  have hlock : ¬ QshWakelock.fds fd fd' .wake_lock < 0 := not_lt.2 (Int.natCast_nonneg fd)
  have hunlock : ¬ QshWakelock.fds fd fd' .wake_unlock < 0 := not_lt.2 (Int.natCast_nonneg fd')
  rw [System.construct, if_neg hlock, if_neg hunlock]

theorem stands_unopened (lockName : String) {fs : Handles Unit Path fun _ : String ↦ ℤ}
    (hheld : fs.held = fun _ ↦ none) (hused : fs.used = []) :
    Stands (System.construct (fun _ ↦ -1) lockName) fs where
  held path hfd := absurd hfd (QshWakelock.not_open_unopened path)
  only _ _ h := by
    rw [hheld] at h
    exact (Option.some_ne_none _ h.symm).elim
  kernel := by
    rw [writes, hused]
    rfl

theorem stands_opened {fd fd' : ℕ} (hne : fd' ≠ fd) (lockName : String) :
    Stands (System.construct (QshWakelock.fds fd fd') lockName)
      ((Handles.empty.hold () fd .wake_lock).hold () fd' .wake_unlock) := by
  rw [construct_fds]
  refine ⟨fun path _ ↦ ?_, fun h path hheld ↦ ?_, rfl⟩
  · cases path with
    | wake_lock =>
      refine (Handles.held_hold_of_ne _ (fun heq ↦ hne ?_) _).trans (Handles.held_hold ..)
      exact (Prod.mk.inj heq).2.symm
    | wake_unlock => exact Handles.held_hold ..
  · by_cases hunlock : h = fd'
    · rw [hunlock, Handles.held_hold, Option.some.injEq] at hheld
      rw [← hheld, hunlock]
      rfl
    · rw [Handles.held_hold_of_ne _ (fun heq ↦ hunlock (Prod.mk.inj heq).2)] at hheld
      by_cases hlock : h = fd
      · rw [hlock, Handles.held_hold, Option.some.injEq] at hheld
        rw [← hheld, hlock]
        rfl
      · rw [Handles.held_hold_of_ne _ (fun heq ↦ hlock (Prod.mk.inj heq).2)] at hheld
        exact (Option.some_ne_none _ hheld.symm).elim

/-- The constructor opens both files or leaves none open. -/
theorem wp_construct (lockName : String) :
    fileContract.wp (QshWakelock.construct lockName) (fun self t ↦ ∃ opened,
      self = (System.construct opened lockName).lock ∧
        Stands (System.construct opened lockName) t) .empty := by
  rw [QshWakelock.construct]
  refine Handles.wp_acquire (fun fd hfree _ ↦ ?_) ?_
  · refine Handles.wp_acquire (fun fd' hfree' _ ↦ ?_) ?_
    · refine Contract.wp_pure ⟨QshWakelock.fds fd fd', ?_, stands_opened ?_ lockName⟩
      · rw [construct_fds]
      · rintro rfl
        rw [Handles.held_hold] at hfree'
        exact Option.some_ne_none _ hfree'
    · refine Handles.wp_release (Handles.held_hold ..) ?_
      exact Contract.wp_pure ⟨fun _ ↦ -1, rfl,
        stands_unopened lockName (Handles.held_drop hfree rfl) rfl⟩
  · exact Contract.wp_pure ⟨fun _ ↦ -1, rfl, stands_unopened lockName rfl rfl⟩

theorem wp_getInstance {s : Option System} (h : StandsFor fs s) (lockName : Option String) :
    fileContract.wp (getInstance (s.map System.lock) lockName) (fun mSelf t ↦ ∃ u,
      Executes s (.getInstance lockName) none u ∧ mSelf = u.map System.lock ∧
        StandsFor t u) fs := by
  cases s with
  | some s => exact Contract.wp_pure ⟨some s, .again s lockName, rfl, h⟩
  | none =>
    cases lockName with
    | none => exact Contract.wp_pure ⟨none, .nobody _ rfl, rfl, h⟩
    | some lockName =>
      obtain rfl : fs = .empty := h
      refine Contract.wp_then (wp_construct lockName) ?_
      rintro _ t ⟨opened, rfl, hstands⟩
      exact Contract.wp_pure ⟨_, .construct lockName opened, rfl, hstands⟩

/-- One command, with the object and its files in the place of the wakelock. -/
theorem wp_execute {s : Option System} (h : StandsFor fs s) (c : Command) :
    fileContract.wp (execute (s.map System.lock) c) (fun r t ↦ ∃ u,
      Executes s c r.1 u ∧ r.2 = u.map System.lock ∧ StandsFor t u) fs := by
  cases c with
  | getInstance lockName =>
    refine Contract.wp_then (wp_getInstance h lockName) ?_
    rintro _ t ⟨u, hget, rfl, ht⟩
    exact Contract.wp_pure ⟨u, hget, rfl, ht⟩
  | acquire n =>
    cases s with
    | none => exact Contract.wp_pure ⟨none, .nobody _ rfl, rfl, h⟩
    | some s =>
      refine Contract.wp_then (wp_acquire h n) ?_
      rintro _ t ⟨written, rfl, ht⟩
      exact Contract.wp_pure ⟨_, .call s (.acquire n written), rfl, ht⟩
  | release n =>
    cases s with
    | none => exact Contract.wp_pure ⟨none, .nobody _ rfl, rfl, h⟩
    | some s =>
      refine Contract.wp_then (wp_release h n) ?_
      rintro _ t ⟨written, rfl, ht⟩
      exact Contract.wp_pure ⟨_, .call s (.release n written), rfl, ht⟩

theorem wp_executeAll {s : Option System} (h : StandsFor fs s) (cs : List Command) :
    fileContract.wp (executeAll (s.map System.lock) cs) (fun r t ↦ ∃ u,
      Lives s cs r.1 u ∧ r.2 = u.map System.lock ∧ StandsFor t u) fs := by
  induction cs generalizing s fs with
  | nil => exact Contract.wp_pure ⟨s, .nil s, rfl, h⟩
  | cons c cs ih =>
    refine Contract.wp_then (wp_execute h c) ?_
    rintro ⟨r, _⟩ t ⟨u, hc, rfl, ht⟩
    refine Contract.wp_then (ih ht) ?_
    rintro ⟨rs, _⟩ t' ⟨u', hcs, rfl, ht'⟩
    exact Contract.wp_pure ⟨u', .cons hc hcs, rfl, ht'⟩

/-! ### What the kernel is told -/

namespace System

/-- What is written is this name. Without open files there is no name to write. -/
structure Named (lockName : String) (s : System) : Prop where
  lock : ∀ path, 0 ≤ s.lock.mFds path → s.lock.mQshWakelockName = lockName
  kernel : ∀ w ∈ s.kernel, w.name = lockName

variable {lockName : String}

theorem Named.construct (opened : Path → ℤ) (lockName : String) :
    (System.construct opened lockName).Named lockName := by
  have hunopened : Named lockName ⟨QshWakelock.unopened, []⟩ := by
    refine ⟨fun path hfd ↦ ?_, List.forall_mem_nil _⟩
    exact absurd hfd (QshWakelock.not_open_unopened path)
  rw [System.construct]
  split_ifs
  · exact hunopened
  · exact hunopened
  · exact ⟨fun _ _ ↦ rfl, List.forall_mem_nil _⟩

theorem Named.setCount (h : s.Named lockName) (n : UInt32) : (s.setCount n).Named lockName :=
  ⟨h.lock, h.kernel⟩

theorem Named.wrote (h : s.Named lockName) {path : Path} {held : Bool} {written : ℤ}
    (hw : s.WriteOk path written) : (s.wrote path held).Named lockName := by
  refine ⟨h.lock, ?_⟩
  rw [wrote_kernel]
  refine List.forall_mem_append.2 ⟨h.kernel, List.forall_mem_singleton.2 ?_⟩
  exact h.lock path hw.1

theorem Named.call (h : s.Named lockName) (c : Call) : (s.call c).2.Named lockName := by
  cases c with
  | acquire n w =>
    show (s.acquire n w).2.Named lockName
    rcases s.acquire_cases n w with ⟨-, heq⟩ | ⟨-, ⟨-, -, hw, heq⟩ | ⟨-, -, -, heq⟩ | ⟨-, heq⟩⟩
    · rwa [heq]
    · rw [heq]
      exact (h.wrote hw).setCount _
    · rwa [heq]
    · rw [heq]
      exact h.setCount _
  | release n w =>
    show (s.release n w).2.Named lockName
    rcases s.release_cases n w with ⟨-, heq⟩ | ⟨-, ⟨-, -, hw, heq⟩ | ⟨-, -, -, heq⟩ | ⟨-, heq⟩⟩
    · rwa [heq]
    · rw [heq]
      exact (h.setCount 0).wrote hw
    · rw [heq]
      exact h.setCount 0
    · rw [heq]
      exact h.setCount _

end System

/-- The wakelock there is by the time the names have been given of which `lockName` is the first. -/
def Owned (lockName : Option String) : Option System → Prop
  | none => lockName = none
  | some s => ∃ name, lockName = some name ∧ s.Inv ∧ s.Named name

theorem Executes.owned {s t : Option System} {c : Command} {r : Option ℤ} {lockName : Option String}
    (h : Executes s c r t) (hs : Owned lockName s) : Owned (lockName.or c.lockName) t := by
  cases h with
  | nobody c hc =>
    obtain rfl : lockName = none := hs
    rw [hc]
    rfl
  | construct name opened =>
    obtain rfl : lockName = none := hs
    exact ⟨name, rfl, .construct opened name, .construct opened name⟩
  | again s name =>
    obtain ⟨name', rfl, hinv, hnamed⟩ := hs
    exact ⟨name', rfl, hinv, hnamed⟩
  | call s c =>
    obtain ⟨name', rfl, hinv, hnamed⟩ := hs
    exact ⟨name', rfl, System.machine_inv.step s c _ hinv trivial rfl, hnamed.call c⟩

theorem Lives.owned {s t : Option System} {cs : List Command} {rs : List (Option ℤ)}
    {lockName : Option String} (h : Lives s cs rs t) (hs : Owned lockName s) :
    Owned (lockName.or (firstName cs)) t := by
  induction h generalizing lockName with
  | nil s =>
    rw [firstName, List.findSome?_nil, Option.or_none]
    exact hs
  | @cons _ _ _ c cs _ _ h _ ih =>
    have hname : firstName (c :: cs) = c.lockName.or (firstName cs) := by
      rw [firstName, List.findSome?_cons]
      cases c.lockName <;> rfl
    rw [hname, ← Option.or_assoc]
    exact ih (h.owned hs)

/-- The kernel is told of the two files in turns, and always the same name. -/
structure Told (lockName : Option String) (ws : List KernelWrite) : Prop where
  alternating : (ws.map KernelWrite.path).IsChain (· ≠ ·)
  first : ∀ w ∈ ws.head?, w.path = .wake_lock
  name : ∀ w ∈ ws, lockName = some w.name

theorem StandsFor.told {s : Option System} {lockName : Option String} (h : StandsFor fs s)
    (hs : Owned lockName s) : Told lockName (writes fs) := by
  cases s with
  | none =>
    obtain rfl : fs = .empty := h
    exact ⟨.nil, fun _ hw ↦ (Option.some_ne_none _ hw.symm).elim, List.forall_mem_nil _⟩
  | some s =>
    have hstands : Stands s fs := h
    obtain ⟨name, rfl, hinv, hnamed⟩ := hs
    rw [← hstands.kernel]
    exact ⟨hinv.alternating.1, hinv.alternating.2, fun w hw ↦ by rw [hnamed.kernel w hw]⟩

theorem StandsFor.getLast?_of_count {s : Option System} {lockName : Option String}
    (h : StandsFor fs s) (hs : Owned lockName s) {self : QshWakelock}
    (hself : s.map System.lock = some self) (hpos : 0 < self.mAcqCount) :
    ∃ name, lockName = some name ∧ (writes fs).getLast? = some ⟨.wake_lock, name⟩ := by
  cases s with
  | none => exact (Option.some_ne_none _ hself.symm).elim
  | some s =>
    have hstands : Stands s fs := h
    obtain ⟨name, rfl, hinv, hnamed⟩ := hs
    obtain rfl : s.lock = self := Option.some.inj hself
    have hheld : s.KernelHeld :=
      hinv.held_iff.1 (hinv.held_of_count (UInt32.pos_iff_ne_zero.1 hpos))
    obtain ⟨w, hw, hpath⟩ := Option.map_eq_some_iff.1 hheld
    have hname := hnamed.kernel w (List.mem_of_getLast? hw)
    refine ⟨name, rfl, ?_⟩
    rw [← hstands.kernel, hw, ← hpath, ← hname]

/-- Whatever is still to be done may be refused, and then the kernel is told nothing more. -/
theorem exists_refused {α : Type} (p : LockM α) (fs : Handles Unit Path fun _ : String ↦ ℤ) :
    ∃ es a, Interaction.Run p es a ∧ fileContract.Answered fs es ∧
      writes (fileContract.after fs es) = writes fs := by
  induction p generalizing fs with
  | ret a => exact ⟨[], a, .refl _, trivial, rfl⟩
  | call op next ih =>
    cases op with
    | acquire k path =>
      obtain ⟨es, a, hrun, hes, hwrites⟩ := ih none fs
      exact ⟨_, a, .call _ hrun, ⟨fun _ h ↦ (Option.some_ne_none _ h.symm).elim, hes⟩, hwrites⟩
    | use k h name =>
      obtain ⟨es, a, hrun, hes, hwrites⟩ :=
        ih (0 : ℤ) (fileContract.next fs (.use k h name) (0 : ℤ))
      refine ⟨_, a, .call _ hrun, ⟨trivial, hes⟩, hwrites.trans ?_⟩
      dsimp only [fileContract, Handles.contract]
      split
      · next path _ => rw [writes_record, if_neg (Int.lt_irrefl 0), List.append_nil]
      · rfl
    | release k h =>
      obtain ⟨es, a, hrun, hes, hwrites⟩ := ih () (fs.drop k h)
      exact ⟨_, a, .call _ hrun, ⟨trivial, hes⟩, hwrites⟩
    | ask v => exact v.elim

/-! ### The main result -/

/-- **The wakelock of a process and its files**, over any calls of any clients and every answer of
the file system, also if it comes to no end: only open files are written to, and the kernel is told
of the two files in turns, by the first name that was given. What clients see of it is one wakelock,
made when a name is first given; a count that is not zero means that the kernel has been told last
to stay awake. -/
theorem commands_live (cs : List Command)
    {es : List (Interaction.Event (HandleOp Unit Path String Empty)
      (HandleAns (fun _ ↦ ℤ) fun _ ↦ Unit))}
    {q : LockM (List (Option ℤ) × Option QshWakelock)}
    (hsteps : Interaction.Steps (executeAll none cs) es q)
    (hanswered : fileContract.Answered .empty es) :
    fileContract.Respected .empty es ∧
      (∀ op next, q = .call op next → fileContract.allows (fileContract.after .empty es) op) ∧
      Told (firstName cs) (writes (fileContract.after .empty es)) ∧
      ∀ rs mSelf, q = .ret (rs, mSelf) → ∃ s, Lives none cs rs s ∧ mSelf = s.map System.lock ∧
        StandsFor (fileContract.after .empty es) s ∧
        ∀ self, mSelf = some self → 0 < self.mAcqCount → ∃ name, firstName cs = some name ∧
          (writes (fileContract.after .empty es)).getLast? = some ⟨.wake_lock, name⟩ := by
  have hinit : StandsFor .empty none := rfl
  obtain ⟨hrespected, hwp⟩ := Contract.wp_steps (wp_executeAll hinit cs) hsteps hanswered
  refine ⟨hrespected, ?_, ?_, ?_⟩
  · rintro op next rfl
    exact hwp.1
  · obtain ⟨es', _, hrun, hes', hwrites⟩ := exists_refused q (fileContract.after .empty es)
    obtain ⟨-, s, hlives, -, hstands⟩ := Contract.wp_run hwp hrun hes'
    rw [← hwrites]
    exact hstands.told (hlives.owned rfl)
  · rintro rs mSelf rfl
    obtain ⟨s, hlives, rfl, hstands⟩ := hwp
    refine ⟨s, hlives, rfl, hstands, fun self hself hpos ↦ ?_⟩
    exact hstands.getLast?_of_count (hlives.owned rfl) hself hpos

/-- One client is early, and the other two disagree on the name. -/
def threeClients : List Command :=
  [.acquire 1, .getInstance (some "hub"), .getInstance (some "client"), .acquire 2, .release 1]

/-- Both files are opened, and one name is written. -/
def threeClientsFiles : List (Interaction.Event (HandleOp Unit Path String Empty)
    (HandleAns (fun _ ↦ ℤ) fun _ ↦ Unit)) :=
  [⟨.acquire () .wake_lock, some 3⟩, ⟨.acquire () .wake_unlock, some 4⟩,
    ⟨.use () 3 "hub", (4 : ℤ)⟩]

theorem run_threeClients : Interaction.Run (executeAll none threeClients) threeClientsFiles
    ([none, none, none, some 0, some (-1)], some ⟨1, true, QshWakelock.fds 3 4, "hub"⟩) :=
  .call _ (.call _ (.call _ (.refl _)))

theorem answered_threeClients : fileContract.Answered .empty threeClientsFiles := by
  refine ⟨?_, ?_, trivial, trivial⟩
  · intro fd h
    obtain rfl : 3 = fd := Option.some.inj h
    exact ⟨rfl, trivial⟩
  · intro fd h
    obtain rfl : 4 = fd := Option.some.inj h
    exact ⟨rfl, trivial⟩

theorem commands_live_threeClients :
    Told (some "hub") (writes (fileContract.after .empty threeClientsFiles)) ∧
      ∃ s, Lives none threeClients [none, none, none, some 0, some (-1)] s := by
  obtain ⟨-, -, htold, hreturns⟩ :=
    commands_live threeClients run_threeClients answered_threeClients
  obtain ⟨s, hlives, -⟩ := hreturns _ _ rfl
  exact ⟨htold, s, hlives⟩

end SensingHub.Wakelock
