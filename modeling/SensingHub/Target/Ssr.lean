import Mathlib.Data.Int.Notation
import SensingHub.Lib.CString
import SensingHub.Lib.Handles

/-!
# Restarting the DSP

`getDspType` looks through the remote processors for one with the firmware of the ADSP, and keeps
the answer once it has found one. `triggerSSR` restarts it by writing to a node of its driver, or
else crashes the system, depending on two properties. `calls_proper` says over any calls that what
is opened is closed, that the processors are not looked at again once the ADSP has been found, that
nothing is written successfully but a `1` for it, after it has been found, or the `c` of a crash,
and that this has happened as often as `triggerSSR` has returned 0.

The entries of a directory and the contents of a file are each read at once here. A file whose size
`ftell` cannot tell is left out: `resize` throws there, with the file and the directory still open.
-/

namespace SensingHub.Target

open CLib (str)
open HandleOp

/-! ### The functions -/

/-- What files are opened as. -/
inductive Kind
  | fd
  | dir
  | file
  deriving DecidableEq, Repr

/-- What is done with them. -/
inductive Use
  | write (b : Bytes)
  /-- `readdir`, up to the end of the directory. -/
  | entries
  /-- `fseek`, `ftell` and `fread` -/
  | contents
  deriving DecidableEq, Repr

/-- What that returns. -/
abbrev Use.Answer : Use → Type
  | .write _ => ℤ
  | .entries => List Bytes
  | .contents => Bytes

/-- The properties. -/
inductive Property
  /-- `persist.vendor.sensors.debug.hal_trigger_ssr` -/
  | ssr
  /-- `persist.vendor.sensors.debug.hal_trigger_crash` -/
  | crash
  deriving DecidableEq, Repr

/-- Programs that use files and properties. -/
abbrev TargetM :=
  HandleM Kind Bytes Use.Answer (fun _ : Property ↦ Bytes)

/-- `dspType` -/
inductive DspType
  | unknown
  | adsp
  deriving DecidableEq, Repr

/-- The static variables of `getDspType`. -/
structure Probe where
  isProbed : Bool
  dsp : DspType
  deriving DecidableEq, Repr

/-- As the program starts. -/
def Probe.initial : Probe :=
  ⟨false, .unknown⟩

/-- `std::string::find` finds something. -/
def finds (firmwareName pattern : Bytes) : Bool :=
  firmwareName.tails.any pattern.isPrefixOf

/-- The file with the name of the firmware of a remote processor. -/
def remoteprocName (dName : Bytes) : Bytes :=
  str "/sys/class/remoteproc/" ++ dName ++ str "/name"

/-- The loop over the entries of the directory. -/
def probeEntries (probe : Probe) : List Bytes → TargetM Probe
  | [] => return probe
  | dName :: rest => do
    if dName = str "." ∨ dName = str ".." then probeEntries probe rest
    else
      match ← callAcquire .file (remoteprocName dName) with
      | none => probeEntries probe rest
      | some firmwareNamePtr =>
        let firmwareName ← callUse .file firmwareNamePtr .contents
        callRelease .file firmwareNamePtr
        if finds firmwareName (str "adsp") then return ⟨true, .adsp⟩
        else probeEntries probe rest

/-- `getDspType` -/
def getDspType (probe : Probe) : TargetM (DspType × Probe) :=
  if probe.isProbed then return (probe.dsp, probe)
  else do
    match ← callAcquire .dir (str "/sys/class/remoteproc") with
    | none => return (probe.dsp, probe)
    | some remoteProcDir =>
      let entries ← callUse .dir remoteProcDir .entries
      let probe ← probeEntries probe entries
      callRelease .dir remoteProcDir
      return (probe.dsp, probe)

/-- The node of the ADSP: `mAdspSysNode` and `ssr`. -/
def adspSsr : Bytes :=
  str "/sys/kernel/boot_adsp/ssr"

/-- The file for crashes. -/
def sysrqTrigger : Bytes :=
  str "/proc/sysrq-trigger"

/-- `getSSRPath` -/
def getSSRPath (probe : Probe) : TargetM (Bytes × Probe) := do
  let (dsp, probe) ← getDspType probe
  return (if dsp = .adsp then adspSsr else [], probe)

/-- `isSSRTrigerSupport` and `isCrashTrigerSupport`, on Android or not. -/
def isSupported (android : Bool) (property : Property) : TargetM Bool :=
  if android then do
    let value ← callAsk property
    return value.take 4 = str "true"
  else return false

/-- Open a file, write to it and close it. -/
def trigger (path b : Bytes) : TargetM ℤ := do
  match ← callAcquire .fd path with
  | none => return -1
  | some fd =>
    let n ← callUse .fd fd (.write b)
    callRelease .fd fd
    return if 0 < n then 0 else -1

/-- `triggerSSR`, without the time it waits. -/
def triggerSSR (android : Bool) (probe : Probe) : TargetM (ℤ × Probe) := do
  if ← isSupported android .ssr then
    let (path, probe) ← getSSRPath probe
    let ret ← trigger path (str "1")
    return (ret, probe)
  else if ← isSupported android .crash then
    let ret ← trigger sysrqTrigger (str "c")
    return (ret, probe)
  else return (-1, probe)

/-- The calls. -/
inductive Call
  | getDspType
  | triggerSSR
  deriving DecidableEq, Repr

/-- What they return. -/
inductive Result
  | dsp (dsp : DspType)
  | ret (ret : ℤ)
  deriving DecidableEq, Repr

/-- A call. -/
def call (android : Bool) (probe : Probe) : Call → TargetM (Result × Probe)
  | .getDspType => do
    let (dsp, probe) ← getDspType probe
    return (.dsp dsp, probe)
  | .triggerSSR => do
    let (ret, probe) ← triggerSSR android probe
    return (.ret ret, probe)

/-- Some calls. -/
def calls (android : Bool) (probe : Probe) : List Call → TargetM (List Result × Probe)
  | [] => return ([], probe)
  | c :: cs => do
    let (r, probe) ← call android probe c
    let (rs, probe) ← calls android probe cs
    return (r :: rs, probe)

/-! ### What has been done -/

/-- What has been done with files. -/
abbrev Log := List (Used Bytes Use.Answer)

/-- The firmware of the ADSP has been read. -/
def namesAdsp : Used Bytes Use.Answer → Bool
  | ⟨_, .contents, firmwareName⟩ => finds firmwareName (str "adsp")
  | ⟨_, .write _, _⟩ | ⟨_, .entries, _⟩ => false

/-- Something has been written. -/
def isTrigger : Used Bytes Use.Answer → Bool
  | ⟨_, .write _, n⟩ => 0 < (n : ℤ)
  | ⟨_, .contents, _⟩ | ⟨_, .entries, _⟩ => false

/-- What may be done, the ADSP having been found or not: nothing is read once it has been, and it is
restarted only then. -/
def Allowed (found : Bool) : Used Bytes Use.Answer → Prop
  | ⟨path, .write b, n⟩ => 0 < (n : ℤ) →
    path = adspSsr ∧ b = str "1" ∧ found = true ∨ path = sysrqTrigger ∧ b = str "c"
  | ⟨_, .contents, _⟩ | ⟨_, .entries, _⟩ => found = false

/-- Nothing has been done that may not be. -/
def Proper (es : Log) : Prop :=
  ∀ pre e post, es = pre ++ e :: post → Allowed (pre.any namesAdsp) e

theorem proper_nil : Proper [] := by
  intro pre e post h
  cases (List.append_eq_nil_iff.1 h.symm).2

theorem Proper.concat {es : Log} {e : Used Bytes Use.Answer} (h : Proper es)
    (he : Allowed (es.any namesAdsp) e) : Proper (es ++ [e]) := by
  intro pre e' post heq
  rcases List.eq_nil_or_concat post with rfl | ⟨post, last, rfl⟩
  · obtain ⟨rfl, hlast⟩ := List.append_inj' heq rfl
    cases hlast
    exact he
  · rw [List.concat_eq_append, ← List.cons_append, ← List.append_assoc] at heq
    obtain ⟨rfl, -⟩ := List.append_inj' heq rfl
    exact h pre e' post rfl

/-- What is there to be opened: every file has a name. -/
def Named (_ : Kind) (path : Bytes) : Prop :=
  path ≠ []

/-- What the functions may do, and what they may rely on. -/
abbrev fileContract : Contract (HandleOp Kind Bytes Use Property)
    (HandleAns Use.Answer fun _ ↦ Bytes) (Handles Kind Bytes Use.Answer) :=
  Handles.contract Named

/-- The static variables say what has been found, and nothing has been done that may not be. -/
structure Knows (probe : Probe) (es : Log) : Prop where
  isProbed : probe.isProbed = es.any namesAdsp
  dsp : probe.dsp = .adsp ↔ probe.isProbed = true
  proper : Proper es

theorem knows_initial : Knows .initial [] :=
  ⟨rfl, iff_of_false (by decide) (by decide), proper_nil⟩

/-! ### What the functions do -/

variable {probe : Probe} {s : Handles Kind Bytes Use.Answer}

/-- Something is read, as long as the ADSP has not been found. -/
theorem Knows.read {es : Log} {e : Used Bytes Use.Answer} (h : Knows probe es)
    (hprobed : probe.isProbed = false) (hallowed : Allowed false e) :
    (namesAdsp e = false → Knows probe (es ++ [e])) ∧
      (namesAdsp e = true → Knows ⟨true, .adsp⟩ (es ++ [e])) := by
  have hfound : es.any namesAdsp = false := h.isProbed.symm.trans hprobed
  have hproper : Proper (es ++ [e]) := h.proper.concat (hfound ▸ hallowed)
  have hany : (es ++ [e]).any namesAdsp = namesAdsp e := by
    rw [List.any_append, hfound, Bool.false_or, List.any_cons, List.any_nil, Bool.or_false]
  refine ⟨fun he ↦ ⟨?_, h.dsp, hproper⟩, fun he ↦ ⟨?_, iff_of_true rfl rfl, hproper⟩⟩
  · rw [hany, he, hprobed]
  · rw [hany, he]

/-- What a function that only reads leaves behind. -/
structure Reads (probe : Probe) (s t : Handles Kind Bytes Use.Answer) : Prop where
  held : t.held = s.held
  knows : Knows probe t.used
  triggers : t.used.filter isTrigger = s.used.filter isTrigger

theorem Reads.refl (h : Knows probe s.used) : Reads probe s s :=
  ⟨rfl, h, rfl⟩

theorem wp_probeEntries (h : Knows probe s.used) (hprobed : probe.isProbed = false)
    (entries : List Bytes) :
    fileContract.wp (probeEntries probe entries) (fun probe' t ↦ Reads probe' s t) s := by
  induction entries generalizing s with
  | nil => exact Contract.wp_pure (.refl h)
  | cons dName rest ih =>
    rw [probeEntries]
    split
    · exact ih h
    · refine Handles.wp_once (u := .contents) _ (fun _ ↦ rfl)
        (fun _ firmwareName t hheld hused ↦ ?_) (ih h)
      obtain ⟨hother, hadsp⟩ := h.read (e := ⟨remoteprocName dName, .contents, firmwareName⟩)
        hprobed rfl
      have htriggers : t.used.filter isTrigger = s.used.filter isTrigger := by
        rw [hused, List.filter_append]
        exact List.append_nil _
      split
      · next hfirmware =>
        exact Contract.wp_pure ⟨hheld, hused ▸ hadsp hfirmware, htriggers⟩
      · next hfirmware =>
        refine Contract.wp_mono (fun probe' u hu ↦ ?_)
          (ih (hused ▸ hother (Bool.eq_false_iff.2 hfirmware)))
        exact ⟨hu.held.trans hheld, hu.knows, hu.triggers.trans htriggers⟩

theorem wp_getDspType (h : Knows probe s.used) :
    fileContract.wp (getDspType probe) (fun r t ↦ r.1 = r.2.dsp ∧ Reads r.2 s t) s := by
  unfold getDspType
  cases hprobed : probe.isProbed with
  | true => exact Contract.wp_pure ⟨rfl, .refl h⟩
  | false =>
    refine Handles.wp_acquire (fun remoteProcDir hfree _ ↦ ?_) (Contract.wp_pure ⟨rfl, .refl h⟩)
    have hheld := Handles.held_hold s .dir remoteProcDir (str "/sys/class/remoteproc")
    refine Handles.wp_use hheld fun entries ↦ ?_
    have hknows :=
      (h.read (e := ⟨str "/sys/class/remoteproc", .entries, entries⟩) hprobed rfl).1 rfl
    refine Contract.wp_then (wp_probeEntries hknows hprobed entries) fun probe' t ht ↦ ?_
    refine Handles.wp_release (ht.held ▸ hheld) (Contract.wp_pure ⟨rfl, ?_⟩)
    refine ⟨Handles.held_drop hfree ht.held, ht.knows, ht.triggers.trans ?_⟩
    show (s.used ++ [_]).filter isTrigger = _
    rw [List.filter_append]
    exact List.append_nil _

/-- How often something has been written. -/
def triggers (s : Handles Kind Bytes Use.Answer) : ℕ :=
  (s.used.filter isTrigger).length

/-- What a function leaves behind that has triggered something `n` times. -/
structure Leaves (probe : Probe) (s t : Handles Kind Bytes Use.Answer) (n : ℕ) : Prop where
  held : t.held = s.held
  knows : Knows probe t.used
  triggers : triggers t = triggers s + n

theorem Reads.leaves {t : Handles Kind Bytes Use.Answer} (h : Reads probe s t) :
    Leaves probe s t 0 :=
  ⟨h.held, h.knows, congrArg List.length h.triggers⟩

theorem Leaves.trans {probe' : Probe} {t u : Handles Kind Bytes Use.Answer} {m n : ℕ}
    (h : Leaves probe s t m) (h' : Leaves probe' t u n) : Leaves probe' s u (m + n) where
  held := h'.held.trans h.held
  knows := h'.knows
  triggers := by rw [h'.triggers, h.triggers, Nat.add_assoc]

/-- A write is reported as what it has been. -/
theorem wp_trigger (h : Knows probe s.used) {path b : Bytes}
    (hpath : path ≠ [] → path = adspSsr ∧ b = str "1" ∧ probe.isProbed = true ∨
      path = sysrqTrigger ∧ b = str "c") :
    fileContract.wp (trigger path b) (fun r t ↦ Leaves probe s t (if r = 0 then 1 else 0)) s := by
  refine Handles.wp_once (u := .write b) _ (fun _ ↦ rfl) (fun hthere n t hheld hused ↦ ?_)
    (Contract.wp_pure ⟨rfl, h, rfl⟩)
  have hallowed : Allowed (s.used.any namesAdsp) ⟨path, .write b, n⟩ := fun _ ↦
    h.isProbed ▸ hpath hthere
  have hfound : t.used.any namesAdsp = s.used.any namesAdsp := by
    rw [hused, List.any_append]
    exact Bool.or_false _
  have hknows : Knows probe t.used :=
    ⟨h.isProbed.trans hfound.symm, h.dsp, hused ▸ h.proper.concat hallowed⟩
  refine Contract.wp_pure ⟨hheld, hknows, ?_⟩
  rw [triggers, triggers, hused, List.filter_append, List.length_append]
  congr 1
  by_cases hn : (0 : ℤ) < n
  · have hwrote : isTrigger ⟨path, .write b, n⟩ = true := decide_eq_true hn
    rw [if_pos hn, if_pos rfl, List.filter_cons_of_pos hwrote]
    rfl
  · have hfailed : ¬ isTrigger ⟨path, .write b, n⟩ = true := fun hyes ↦ hn (of_decide_eq_true hyes)
    rw [if_neg hn, if_neg (by decide), List.filter_cons_of_neg hfailed]
    rfl

theorem wp_isSupported (android : Bool) (property : Property) :
    fileContract.wp (isSupported android property) (fun _ t ↦ t = s) s := by
  cases android with
  | false => exact Contract.wp_pure rfl
  | true => exact Handles.wp_ask fun _ ↦ Contract.wp_pure rfl

theorem wp_getSSRPath (h : Knows probe s.used) :
    fileContract.wp (getSSRPath probe) (fun r t ↦ Reads r.2 s t ∧
      (r.1 ≠ [] → r.1 = adspSsr ∧ r.2.isProbed = true)) s := by
  refine Contract.wp_then (wp_getDspType h) ?_
  rintro ⟨dsp, probe'⟩ t ⟨hdsp, hreads⟩
  obtain rfl : dsp = probe'.dsp := hdsp
  refine Contract.wp_pure ⟨hreads, fun hne ↦ ?_⟩
  by_cases hadsp : probe'.dsp = .adsp
  · exact ⟨if_pos hadsp, hreads.knows.dsp.1 hadsp⟩
  · exact absurd (if_neg hadsp) hne

theorem wp_triggerSSR (h : Knows probe s.used) (android : Bool) :
    fileContract.wp (triggerSSR android probe)
      (fun r t ↦ Leaves r.2 s t (if r.1 = 0 then 1 else 0)) s := by
  refine Contract.wp_then (wp_isSupported android .ssr) ?_
  rintro (_ | _) _ rfl
  · refine Contract.wp_then (wp_isSupported android .crash) ?_
    rintro (_ | _) _ rfl
    · exact Contract.wp_pure ⟨rfl, h, rfl⟩
    · exact Contract.wp_then (wp_trigger h fun _ ↦ .inr ⟨rfl, rfl⟩) fun ret t ht ↦
        Contract.wp_pure ht
  · refine Contract.wp_then (wp_getSSRPath h) ?_
    rintro ⟨path, probe'⟩ t ⟨hreads, hpath⟩
    refine Contract.wp_then (wp_trigger hreads.knows fun hne ↦ ?_) fun ret u hu ↦ ?_
    · exact .inl ⟨(hpath hne).1, rfl, (hpath hne).2⟩
    · have hleaves := hreads.leaves.trans hu
      rw [Nat.zero_add] at hleaves
      exact Contract.wp_pure hleaves

/-- A call reports that something has been triggered. -/
def Result.triggered : Result → Bool
  | .dsp _ => false
  | .ret r => r = 0

theorem wp_call (h : Knows probe s.used) (android : Bool) (c : Call) :
    fileContract.wp (call android probe c)
      (fun r t ↦ Leaves r.2 s t (if r.1.triggered then 1 else 0)) s := by
  cases c with
  | getDspType =>
    exact Contract.wp_then (wp_getDspType h) fun r t ht ↦ Contract.wp_pure ht.2.leaves
  | triggerSSR =>
    refine Contract.wp_then (wp_triggerSSR h android) fun r t ht ↦ Contract.wp_pure ?_
    show Leaves r.2 s t (if decide (r.1 = 0) then 1 else 0)
    simpa only [decide_eq_true_eq] using ht

theorem wp_calls (h : Knows probe s.used) (android : Bool) (cs : List Call) :
    fileContract.wp (calls android probe cs)
      (fun r t ↦ Leaves r.2 s t (r.1.countP Result.triggered)) s := by
  induction cs generalizing probe s with
  | nil => exact Contract.wp_pure ⟨rfl, h, rfl⟩
  | cons c cs ih =>
    refine Contract.wp_then (wp_call h android c) fun r t ht ↦ ?_
    refine Contract.wp_then (ih ht.knows) fun rs u hu ↦ ?_
    have hleaves := ht.trans hu
    rw [Nat.add_comm, ← List.countP_cons] at hleaves
    exact Contract.wp_pure hleaves

/-- **The DSP is restarted only after it has been found, and as often as it is said**: whatever is
called, only open files are used; and as soon as the calls have returned, all have been closed,
nothing has been done that may not be, and something has been triggered as often as it has been
reported. -/
theorem calls_proper (android : Bool) (cs : List Call)
    {es : List (Interaction.Event (HandleOp Kind Bytes Use Property)
      (HandleAns Use.Answer fun _ ↦ Bytes))} {q : TargetM (List Result × Probe)}
    (hsteps : Interaction.Steps (calls android .initial cs) es q)
    (hanswered : fileContract.Answered .empty es) :
    fileContract.Respected .empty es ∧
      (∀ op next, q = .call op next →
        fileContract.allows (fileContract.after .empty es) op) ∧
      ∀ rs probe, q = .ret (rs, probe) →
        (∀ k h, (fileContract.after .empty es).held (k, h) = none) ∧
          Proper (fileContract.after .empty es).used ∧
          triggers (fileContract.after .empty es) = rs.countP Result.triggered ∧
          (probe.dsp = .adsp ↔ (fileContract.after .empty es).used.any namesAdsp = true) := by
  obtain ⟨hrespected, hwp⟩ := Contract.wp_steps (wp_calls knows_initial android cs) hsteps hanswered
  refine ⟨hrespected, ?_, ?_⟩
  · rintro op next rfl
    exact hwp.1
  · rintro rs probe rfl
    obtain ⟨hheld, hknows, htriggers⟩ := hwp
    exact ⟨fun k h ↦ congrFun hheld (k, h), hknows.proper, htriggers.trans (Nat.zero_add _),
      hknows.isProbed ▸ hknows.dsp⟩

/-- A DSP that is found behind another one, and then restarted. -/
def restart : List (Interaction.Event (HandleOp Kind Bytes Use Property)
    (HandleAns Use.Answer fun _ ↦ Bytes)) :=
  [⟨.ask .ssr, str "true"⟩, ⟨.acquire .dir (str "/sys/class/remoteproc"), some 0⟩,
    ⟨.use .dir 0 .entries, [str ".", str "r0", str "r1", str "r2"]⟩,
    ⟨.acquire .file (remoteprocName (str "r0")), none⟩,
    ⟨.acquire .file (remoteprocName (str "r1")), some 0⟩, ⟨.use .file 0 .contents, str "an adsp"⟩,
    ⟨.release .file 0, ()⟩, ⟨.release .dir 0, ()⟩, ⟨.acquire .fd adspSsr, some 3⟩,
    ⟨.use .fd 3 (.write (str "1")), (1 : ℤ)⟩, ⟨.release .fd 3, ()⟩]

theorem run_restart : Interaction.Run (calls true .initial [.triggerSSR, .getDspType]) restart
    ([.ret 0, .dsp .adsp], ⟨true, .adsp⟩) :=
  .call _ (.call _ (.call _ (.call _ (.call _ (.call _ (.call _ (.call _ (.call _ (.call _
    (.call _ (.refl _)))))))))))

theorem answered_restart : fileContract.Answered .empty restart :=
  ⟨trivial, fun _ _ ↦ ⟨rfl, List.cons_ne_nil _ _⟩, trivial, nofun, fun h hh ↦ by
    cases hh
    exact ⟨rfl, List.cons_ne_nil _ _⟩, trivial, trivial, trivial, fun h hh ↦ by
    cases hh
    exact ⟨rfl, List.cons_ne_nil _ _⟩, trivial, trivial, trivial⟩

theorem calls_proper_restart : (∀ k h, (fileContract.after .empty restart).held (k, h) = none) ∧
    Proper (fileContract.after .empty restart).used ∧
    triggers (fileContract.after .empty restart) = 1 ∧
    (DspType.adsp = .adsp ↔ (fileContract.after .empty restart).used.any namesAdsp = true) :=
  (calls_proper true [.triggerSSR, .getDspType] run_restart answered_restart).2.2 _ _ rfl

end SensingHub.Target
