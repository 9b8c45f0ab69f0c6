import Mathlib.Data.Int.Notation
import SensingHub.Lib.CString
import SensingHub.Lib.Linker

/-!
# Session loggers

`LoggerFactory::getLogger` gives a session a logger that hands everything to a shim library, or one
that does nothing. Whether it is the one or the other is found out when it is asked for: `libdiag`
is tried the first time only, with `RTLD_NOLOAD` and then without, and the shim as long as it has
not been opened, if `libdiag` is there; all symbols have to be found.

Seen from the sessions this is a service that at some time, or never, begins to give out loggers
that log, and from then on gives out no others; each of them logs what it is told under the module
and the key of its session, and nothing else is logged. `Served` is that service, and
`commands_served` says that the factory and its loggers are one, and how they use the libraries.
-/

namespace SensingHub.SessionLogger

open LinkerOp

/-! ### The libraries -/

/-- The libraries that are loaded. -/
inductive Library
  /-- `libdiag.so` -/
  | libdiag
  /-- `libsnsdiagshim-c.so` -/
  | diagShim
  deriving DecidableEq, Repr

/-- The symbols of the shim. -/
inductive Symbol
  /-- `sns_diag_log_request_msg_c` -/
  | req
  /-- `sns_diag_log_event_msg_c` -/
  | evt
  /-- `sns_diag_log_response_msg_c` -/
  | rsp
  /-- `sns_diag_update_client_connect_id_c` -/
  | setId
  /-- `sns_diag_clear_session_c` -/
  | clear
  deriving DecidableEq, Repr

/-- The calls of the shim. -/
inductive Call
  | req (sessionKey : ℕ) (requestBuf dataType moduleName : Bytes)
  | evt (sessionKey : ℕ) (eventBuf dataType moduleName : Bytes)
  | rsp (sessionKey : ℕ) (responseValue : UInt32) (dataType moduleName : Bytes)
  | setId (sessionKey : ℕ) (clientConnectId : UInt64)
  | clear (sessionKey : ℕ)
  deriving DecidableEq, Repr

/-- Under which symbol a call is found. -/
def Call.symbol : Call → Symbol
  | .req .. => .req
  | .evt .. => .evt
  | .rsp .. => .rsp
  | .setId .. => .setId
  | .clear _ => .clear

/-- What a call returns. -/
abbrev Call.Result : Call → Type
  | .req .. | .evt .. | .rsp .. => ℤ
  | .setId .. | .clear _ => Unit

/-- Programs that load the libraries. -/
abbrev DiagM :=
  LinkerM Library Symbol Call.Result

/-! ### `SensorsDiagLogger` -/

/-- `DiagShim` -/
structure DiagShim where
  handle : Option ℕ
  req : Option ℕ
  evt : Option ℕ
  rsp : Option ℕ
  setId : Option ℕ
  clear : Option ℕ
  deriving DecidableEq, Repr

/-- As it is initialized. -/
def DiagShim.initial : DiagShim :=
  ⟨none, none, none, none, none, none⟩

/-- The static variables of `SensorsDiagLogger`. -/
structure Diag where
  diagShim : DiagShim
  sLibdiagChecked : Bool
  sLibdiagAvailable : Bool
  deriving DecidableEq, Repr

/-- As the program starts. -/
def Diag.initial : Diag :=
  ⟨.initial, false, false⟩

/-- `diagShimInit` -/
def diagShimInit (d : Diag) : DiagM Diag :=
  if d.diagShim.handle ≠ none then return d
  else do
    match ← callDlopen .diagShim false with
    | none => return d
    | some handle =>
      let req ← callDlsym handle .req
      let evt ← callDlsym handle .evt
      let rsp ← callDlsym handle .rsp
      let setId ← callDlsym handle .setId
      let clear ← callDlsym handle .clear
      return { d with diagShim := ⟨some handle, req, evt, rsp, setId, clear⟩ }

/-- `isDiagShimAvailable` -/
def DiagShim.isAvailable (shim : DiagShim) : Bool :=
  shim.req.isSome && shim.evt.isSome && shim.rsp.isSome && shim.setId.isSome && shim.clear.isSome

/-- The check for `libdiag`. -/
def checkLibdiag (d : Diag) : DiagM Diag :=
  if d.sLibdiagChecked then return d
  else do
    match ← callDlopen .libdiag true with
    | some _ => return { d with sLibdiagChecked := true, sLibdiagAvailable := true }
    | none =>
      let libdiagHandle ← callDlopen .libdiag false
      return { d with sLibdiagChecked := true, sLibdiagAvailable := libdiagHandle.isSome }

/-- `isAvailable` -/
def isAvailable (d : Diag) : DiagM (Bool × Diag) := do
  let d ← checkLibdiag d
  if d.sLibdiagAvailable then
    let d ← diagShimInit d
    return (d.diagShim.isAvailable, d)
  else return (false, d)

/-- A logger: a `SensorsDiagLogger` with its `_moduleName` and `_sessionKey`, or the one
`NullLogger`. -/
inductive Logger
  | diag (moduleName : Bytes) (sessionKey : ℕ)
  | null
  deriving DecidableEq, Repr

/-- `LoggerFactory::getLogger` -/
def getLogger (d : Diag) (moduleName : Bytes) (sessionKey : ℕ) : DiagM (Logger × Diag) := do
  let (available, d) ← isAvailable d
  if available then return (.diag moduleName sessionKey, d) else return (.null, d)

namespace Logger

/-- `logRequest` -/
def logRequest (d : Diag) (dataType requestBuf : Bytes) : Logger → DiagM ℤ
  | null => return 0
  | diag moduleName sessionKey =>
    if d.diagShim.req ≠ none then do
      let rc ← callInvoke d.diagShim.req (.req sessionKey requestBuf dataType moduleName)
      return if rc = 0 then 0 else 1
    else return 1

/-- `logResponse` -/
def logResponse (d : Diag) (dataType : Bytes) (responseValue : UInt32) : Logger → DiagM ℤ
  | null => return 0
  | diag moduleName sessionKey =>
    if d.diagShim.rsp ≠ none then do
      let rc ← callInvoke d.diagShim.rsp (.rsp sessionKey responseValue dataType moduleName)
      return if rc = 0 then 0 else 1
    else return 1

/-- `logEvent` -/
def logEvent (d : Diag) (dataType eventBuf : Bytes) : Logger → DiagM ℤ
  | null => return 0
  | diag moduleName sessionKey =>
    if d.diagShim.evt ≠ none then do
      let rc ← callInvoke d.diagShim.evt (.evt sessionKey eventBuf dataType moduleName)
      return if rc = 0 then 0 else 1
    else return 1

/-- `updateClientId` -/
def updateClientId (d : Diag) (clientConnectId : UInt64) : Logger → DiagM Unit
  | null => return
  | diag _ sessionKey =>
    if d.diagShim.setId ≠ none then
      callInvoke d.diagShim.setId (Call.setId sessionKey clientConnectId)
    else return

/-- The destructor. -/
def destroy (d : Diag) : Logger → DiagM Unit
  | null => return
  | diag _ sessionKey =>
    if d.diagShim.clear ≠ none then callInvoke d.diagShim.clear (Call.clear sessionKey)
    else return

end Logger

/-! ### Sessions that log -/

/-- What sessions do, with the loggers that have been given out counted from 0. The pointer to a
logger that is released is not used again. -/
inductive Command
  | getLogger (moduleName : Bytes) (sessionKey : ℕ)
  | logRequest (i : ℕ) (dataType requestBuf : Bytes)
  | logResponse (i : ℕ) (dataType : Bytes) (responseValue : UInt32)
  | logEvent (i : ℕ) (dataType eventBuf : Bytes)
  | updateClientId (i : ℕ) (clientId : UInt64)
  | release (i : ℕ)
  deriving DecidableEq, Repr

/-- The static variables and the loggers, as long as they have not been released. -/
structure Process where
  diag : Diag
  loggers : List (Option Logger)
  deriving DecidableEq, Repr

/-- The logger of a session, if it has one. -/
def loggerAt (loggers : List (Option Logger)) (i : ℕ) : Option Logger :=
  loggers.getD i none

/-- A command, with what it returns if that is a number. -/
def execute (p : Process) : Command → DiagM (Option ℤ × Process)
  | .getLogger moduleName sessionKey => do
    let (logger, d) ← getLogger p.diag moduleName sessionKey
    return (none, ⟨d, p.loggers ++ [some logger]⟩)
  | .logRequest i dataType requestBuf =>
    match loggerAt p.loggers i with
    | none => return (none, p)
    | some logger => do
      let rc ← logger.logRequest p.diag dataType requestBuf
      return (some rc, p)
  | .logResponse i dataType responseValue =>
    match loggerAt p.loggers i with
    | none => return (none, p)
    | some logger => do
      let rc ← logger.logResponse p.diag dataType responseValue
      return (some rc, p)
  | .logEvent i dataType eventBuf =>
    match loggerAt p.loggers i with
    | none => return (none, p)
    | some logger => do
      let rc ← logger.logEvent p.diag dataType eventBuf
      return (some rc, p)
  | .updateClientId i clientId =>
    match loggerAt p.loggers i with
    | none => return (none, p)
    | some logger => do
      logger.updateClientId p.diag clientId
      return (none, p)
  | .release i =>
    match loggerAt p.loggers i with
    | none => return (none, p)
    | some logger => do
      logger.destroy p.diag
      return (none, { p with loggers := p.loggers.set i none })

/-- Some commands, with what they return. -/
def executeAll (p : Process) : List Command → DiagM (List (Option ℤ) × Process)
  | [] => return ([], p)
  | c :: cs => do
    let (r, p) ← execute p c
    let (rs, p) ← executeAll p cs
    return (r :: rs, p)

/-! ### The service -/

/-- The logger that a command uses. -/
def Command.index? : Command → Option ℕ
  | .getLogger .. => none
  | .logRequest i .. | .logResponse i .. | .logEvent i .. | .updateClientId i _ | .release i =>
    some i

/-- The loggers behind a command. -/
def Command.after (loggers : List (Option Logger)) : Command → List (Option Logger)
  | .release i => loggers.set i none
  | _ => loggers

/-- What is logged for a command under a module and a key. -/
def Command.call? (moduleName : Bytes) (sessionKey : ℕ) : Command → Option Call
  | .getLogger .. => none
  | .logRequest _ dataType requestBuf => some (.req sessionKey requestBuf dataType moduleName)
  | .logResponse _ dataType responseValue =>
    some (.rsp sessionKey responseValue dataType moduleName)
  | .logEvent _ dataType eventBuf => some (.evt sessionKey eventBuf dataType moduleName)
  | .updateClientId _ clientId => some (.setId sessionKey clientId)
  | .release _ => some (.clear sessionKey)

/-- What a command returns if there is nothing to log it with. -/
def Command.unlogged : Command → Option ℤ
  | .logRequest .. | .logResponse .. | .logEvent .. => some 0
  | _ => none

/-- What a command returns that has been logged. -/
def Call.status : (c : Call) → c.Result → Option ℤ
  | .req .., (rc : ℤ) | .evt .., (rc : ℤ) | .rsp .., (rc : ℤ) => some (if rc = 0 then 0 else 1)
  | .setId .., _ | .clear _, _ => none

/-- Some commands are served, with these calls of the shim and these results. The service has begun
to give out loggers that log if `logs`; it can only if the shim is `full`. -/
inductive Served (full : Prop) : (logs : Bool) → List (Option Logger) → List Command →
    List (Returned Call.Result) → List (Option ℤ) → Prop
  | nil {logs : Bool} {loggers : List (Option Logger)} : Served full logs loggers [] [] []
  | getLogger {logs logs' : Bool} {loggers : List (Option Logger)} {moduleName : Bytes}
      {sessionKey : ℕ} {cs : List Command} {calls : List (Returned Call.Result)}
      {rs : List (Option ℤ)} (hkept : logs = true → logs' = true) (hfull : logs' = true → full)
      (h : Served full logs'
        (loggers ++ [some (if logs' then .diag moduleName sessionKey else .null)]) cs calls rs) :
      Served full logs loggers (.getLogger moduleName sessionKey :: cs) calls (none :: rs)
  | released {logs : Bool} {loggers : List (Option Logger)} {c : Command} {i : ℕ}
      {cs : List Command} {calls : List (Returned Call.Result)} {rs : List (Option ℤ)}
      (hi : c.index? = some i) (hlogger : loggerAt loggers i = none)
      (h : Served full logs loggers cs calls rs) :
      Served full logs loggers (c :: cs) calls (none :: rs)
  | null {logs : Bool} {loggers : List (Option Logger)} {c : Command} {i : ℕ}
      {cs : List Command} {calls : List (Returned Call.Result)} {rs : List (Option ℤ)}
      (hi : c.index? = some i) (hlogger : loggerAt loggers i = some .null)
      (h : Served full logs (c.after loggers) cs calls rs) :
      Served full logs loggers (c :: cs) calls (c.unlogged :: rs)
  | diag {logs : Bool} {loggers : List (Option Logger)} {c : Command} {i : ℕ}
      {moduleName : Bytes} {sessionKey : ℕ} {call : Call} {cs : List Command}
      {calls : List (Returned Call.Result)} {rs : List (Option ℤ)} (hi : c.index? = some i)
      (hlogger : loggerAt loggers i = some (.diag moduleName sessionKey))
      (hcall : c.call? moduleName sessionKey = some call) (r : call.Result)
      (h : Served full logs (c.after loggers) cs calls rs) :
      Served full logs loggers (c :: cs) (⟨call, r⟩ :: calls) (call.status r :: rs)

/-! ### The libraries are used as they should be -/

/-- `libdiag` is opened at most twice, and as long as it is not open; the shim only if `libdiag` is
open, and if it is not open itself. -/
def MayOpen (s : Linker Library Call.Result) : Library → Prop
  | .libdiag => ¬ s.IsOpen .libdiag ∧ s.tried .libdiag < 2
  | .diagShim => s.IsOpen .libdiag ∧ ¬ s.IsOpen .diagShim

section

variable (exports : Library → Symbol → Option ℕ)

/-- What the loggers may do, and what they may rely on. -/
abbrev diagContract : Contract (LinkerOp Library Symbol Call) (LinkerAns Call.Result)
    (Linker Library Call.Result) :=
  Linker.contract exports Call.symbol MayOpen

/-- All symbols are in the shim. -/
def Full : Prop :=
  ∀ symbol, exports .diagShim symbol ≠ none

/-- The pointer for a symbol. -/
def DiagShim.get (shim : DiagShim) : Symbol → Option ℕ
  | .req => shim.req
  | .evt => shim.evt
  | .rsp => shim.rsp
  | .setId => shim.setId
  | .clear => shim.clear

theorem DiagShim.isAvailable_iff (shim : DiagShim) :
    shim.isAvailable = true ↔ ∀ symbol, shim.get symbol ≠ none := by
  simp only [DiagShim.isAvailable, Bool.and_eq_true, Option.isSome_iff_ne_none]
  constructor
  · rintro ⟨⟨⟨⟨hreq, hevt⟩, hrsp⟩, hsetId⟩, hclear⟩ (_ | _ | _ | _ | _)
    exacts [hreq, hevt, hrsp, hsetId, hclear]
  · intro h
    exact ⟨⟨⟨⟨h .req, h .evt⟩, h .rsp⟩, h .setId⟩, h .clear⟩

/-- The static variables say what has been done with the libraries. -/
structure Fits (logs : Bool) (d : Diag) (s : Linker Library Call.Result) : Prop where
  unchecked : d.sLibdiagChecked = false → s.tried .libdiag = 0 ∧ ¬ s.IsOpen .libdiag
  available : d.sLibdiagAvailable = true → d.sLibdiagChecked = true ∧ s.IsOpen .libdiag
  shut : d.diagShim.handle = none → d.diagShim = .initial ∧ ¬ s.IsOpen .diagShim
  opened : d.diagShim.handle ≠ none → s.IsOpen .diagShim ∧
    ∀ symbol, exports .diagShim symbol = d.diagShim.get symbol
  logs : logs = true → d.sLibdiagAvailable = true ∧ d.diagShim.isAvailable = true

end

variable {exports : Library → Symbol → Option ℕ} {logs : Bool} {d : Diag}
  {s : Linker Library Call.Result}

theorem fits_initial : Fits exports false .initial .fresh where
  unchecked _ := ⟨rfl, by rintro ⟨h, hopen⟩; cases hopen⟩
  available h := by cases h
  shut _ := ⟨rfl, by rintro ⟨h, hopen⟩; cases hopen⟩
  opened h := absurd rfl h
  logs h := by cases h

/-- Pointers have been found if all of them have been. -/
theorem Fits.handle_ne_none (h : Fits exports logs d s)
    (havailable : d.diagShim.isAvailable = true) : d.diagShim.handle ≠ none := by
  intro hnone
  rw [(h.shut hnone).1] at havailable
  cases havailable

theorem Fits.full (h : Fits exports logs d s) (havailable : d.diagShim.isAvailable = true) :
    Full exports := by
  intro symbol
  rw [(h.opened (h.handle_ne_none havailable)).2 symbol]
  exact (DiagShim.isAvailable_iff _).1 havailable symbol

/-- `libdiag` has been tried, and may be open now. -/
theorem wp_checkLibdiag (h : Fits exports logs d s) :
    (diagContract exports).wp (checkLibdiag d) (fun d' t ↦ Fits exports logs d' t ∧
      d'.diagShim = d.diagShim ∧ t.invoked = s.invoked ∧
      (d.sLibdiagAvailable = true → d'.sLibdiagAvailable = true)) s := by
  unfold checkLibdiag
  cases hchecked : d.sLibdiagChecked with
  | true => exact Contract.wp_pure ⟨h, rfl, rfl, id⟩
  | false =>
    obtain ⟨htried, hshut⟩ := h.unchecked hchecked
    have hunavailable : d.sLibdiagAvailable ≠ true := fun havailable ↦
      Bool.false_ne_true (hchecked.symm.trans (h.available havailable).1)
    have hlogs : logs ≠ true := fun hlogs ↦ hunavailable (h.logs hlogs).1
    have hne : Library.diagShim ≠ .libdiag := by decide
    -- what follows when it has been opened, however often it has been tried
    have hopened : ∀ (u : Linker Library Call.Result) (handle : ℕ), u.opened = s.opened →
        u.opened handle = none ∨ u.opened handle = some .libdiag →
        Fits exports logs { d with sLibdiagChecked := true, sLibdiagAvailable := true }
          (u.enter handle .libdiag) := by
      intro u handle hsame hfree
      have hopen : ∀ lib, u.IsOpen lib ↔ s.IsOpen lib := fun lib ↦ by
        rw [Linker.IsOpen, Linker.IsOpen, hsame]
      refine ⟨nofun, fun _ ↦ ⟨rfl, handle, Linker.opened_enter u handle _⟩,
        fun hnone ↦ ?_, fun hsome ↦ ?_, fun hyes ↦ absurd hyes hlogs⟩
      · exact ⟨(h.shut hnone).1, fun hboth ↦
          (h.shut hnone).2 ((hopen _).1 (Linker.isOpen_enter hboth hne))⟩
      · exact ⟨((hopen _).2 (h.opened hsome).1).enter hfree, (h.opened hsome).2⟩
    refine Linker.wp_dlopen ⟨hshut, by omega⟩ (fun handle hfree ↦ ?_) ?_
    · exact Contract.wp_pure ⟨hopened _ handle rfl hfree, rfl, rfl, fun _ ↦ rfl⟩
    · refine Linker.wp_dlopen ⟨hshut, ?_⟩ (fun handle hfree ↦ ?_) ?_
      · show Function.update s.tried .libdiag (s.tried .libdiag + 1) .libdiag < 2
        rw [Function.update_self]
        omega
      · exact Contract.wp_pure ⟨hopened _ handle rfl hfree, rfl, rfl, fun _ ↦ rfl⟩
      · exact Contract.wp_pure ⟨⟨nofun, nofun, h.shut,
          h.opened, fun hyes ↦ absurd hyes hlogs⟩, rfl, rfl, fun hyes ↦ absurd hyes hunavailable⟩

/-- The shim has been opened, or may be the next time. -/
theorem wp_diagShimInit (h : Fits exports logs d s) (havailable : d.sLibdiagAvailable = true) :
    (diagContract exports).wp (diagShimInit d) (fun d' t ↦ Fits exports logs d' t ∧
      d'.sLibdiagAvailable = true ∧ t.invoked = s.invoked ∧
      (d.diagShim.isAvailable = true → d'.diagShim.isAvailable = true)) s := by
  obtain ⟨hchecked, hlibdiag⟩ := h.available havailable
  unfold diagShimInit
  split
  · exact Contract.wp_pure ⟨h, havailable, rfl, id⟩
  · next hhandle =>
    obtain ⟨hinitial, hshut⟩ := h.shut (not_not.1 hhandle)
    have hunavailable : d.diagShim.isAvailable ≠ true := by
      rw [hinitial]
      decide
    have hlogs : logs ≠ true := fun hlogs ↦ hunavailable (h.logs hlogs).2
    refine Linker.wp_dlopen ⟨hlibdiag, hshut⟩ (fun handle hfree ↦ ?_) ?_
    · have hopened := Linker.opened_enter (s.attempt .diagShim) handle .diagShim
      refine Linker.wp_dlsym hopened (Linker.wp_dlsym hopened (Linker.wp_dlsym hopened
        (Linker.wp_dlsym hopened (Linker.wp_dlsym hopened ?_))))
      refine Contract.wp_pure ⟨⟨fun hfalse ↦ ?_, fun _ ↦ ⟨hchecked, ?_⟩, nofun,
        fun _ ↦ ⟨⟨handle, hopened⟩, ?_⟩, fun hyes ↦ absurd hyes hlogs⟩, havailable, rfl,
        fun hyes ↦ absurd hyes hunavailable⟩
      · exact absurd (hchecked.symm.trans hfalse) (by decide)
      · exact Linker.IsOpen.enter hlibdiag hfree
      · rintro (_ | _ | _ | _ | _) <;> rfl
    · exact Contract.wp_pure ⟨⟨fun hfalse ↦ absurd (hchecked.symm.trans hfalse) (by decide),
        h.available, h.shut, h.opened, h.logs⟩, havailable, rfl, id⟩

/-- The service may begin to log when it is asked for a logger, and does not stop to. -/
theorem wp_isAvailable (h : Fits exports logs d s) :
    (diagContract exports).wp (isAvailable d) (fun r t ↦ Fits exports r.1 r.2 t ∧
      t.invoked = s.invoked ∧ (logs = true → r.1 = true) ∧ (r.1 = true → Full exports)) s := by
  refine Contract.wp_then (wp_checkLibdiag h) ?_
  rintro d' t ⟨hfits, hshim, hinvoked, hkept⟩
  cases havailable : d'.sLibdiagAvailable with
  | true =>
    refine Contract.wp_then (wp_diagShimInit hfits havailable) ?_
    rintro d'' u ⟨hfits', havailable', hinvoked', hkept'⟩
    refine Contract.wp_pure ⟨⟨hfits'.unchecked, hfits'.available, hfits'.shut, hfits'.opened,
      fun hyes ↦ ⟨havailable', hyes⟩⟩, hinvoked'.trans hinvoked, fun hyes ↦ ?_, hfits'.full⟩
    exact hkept' (hshim ▸ (h.logs hyes).2)
  | false =>
    refine Contract.wp_pure ⟨⟨hfits.unchecked, hfits.available, hfits.shut, hfits.opened, nofun⟩,
      hinvoked, fun hyes ↦ ?_, nofun⟩
    exact absurd (havailable.symm.trans (hkept (h.logs hyes).1)) (by decide)

/-! ### The loggers are the service -/

/-- A command as it is served by a logger. -/
def Logger.perform (d : Diag) (c : Command) : Logger → DiagM (Option ℤ)
  | .null => return c.unlogged
  | .diag moduleName sessionKey =>
    match c.call? moduleName sessionKey with
    | none => return none
    | some call => do
      let r ← callInvoke (d.diagShim.get call.symbol) call
      return call.status r

/-- A command with the logger it uses: the pointers of a logger that logs are not null. -/
theorem execute_of_loggerAt {p : Process} {c : Command} {i : ℕ} {logger : Logger}
    (hi : c.index? = some i) (hlogger : loggerAt p.loggers i = some logger)
    (hshim : logger ≠ .null → ∀ symbol, p.diag.diagShim.get symbol ≠ none) :
    execute p c =
      logger.perform p.diag c >>= fun r ↦ pure (r, ⟨p.diag, c.after p.loggers⟩) := by
  cases logger with
  | null =>
    cases c with
    | getLogger => cases hi
    | _ =>
      cases hi
      rw [execute, hlogger]
      rfl
  | diag moduleName sessionKey =>
    have hget := hshim Logger.noConfusion
    cases c with
    | getLogger => cases hi
    | logRequest =>
      cases hi
      have hptr : p.diag.diagShim.req ≠ none := hget .req
      rw [execute, hlogger]
      simp only [Logger.logRequest, if_pos hptr]
      rfl
    | logResponse =>
      cases hi
      have hptr : p.diag.diagShim.rsp ≠ none := hget .rsp
      rw [execute, hlogger]
      simp only [Logger.logResponse, if_pos hptr]
      rfl
    | logEvent =>
      cases hi
      have hptr : p.diag.diagShim.evt ≠ none := hget .evt
      rw [execute, hlogger]
      simp only [Logger.logEvent, if_pos hptr]
      rfl
    | updateClientId =>
      cases hi
      have hptr : p.diag.diagShim.setId ≠ none := hget .setId
      rw [execute, hlogger]
      simp only [Logger.updateClientId, if_pos hptr]
      rfl
    | release =>
      cases hi
      have hptr : p.diag.diagShim.clear ≠ none := hget .clear
      rw [execute, hlogger]
      simp only [Logger.destroy, if_pos hptr]
      rfl

theorem execute_of_released {p : Process} {c : Command} {i : ℕ} (hi : c.index? = some i)
    (hlogger : loggerAt p.loggers i = none) : execute p c = pure (none, p) := by
  cases c with
  | getLogger => cases hi
  | _ =>
    cases hi
    rw [execute, hlogger]

/-- There is a logger that logs only if the service has begun to give them out. -/
def Matches (logs : Bool) (loggers : List (Option Logger)) : Prop :=
  ∀ logger, some logger ∈ loggers → logger ≠ .null → logs = true

theorem Matches.append {logs' : Bool} {loggers : List (Option Logger)} {logger : Logger}
    (h : Matches logs loggers) (hkept : logs = true → logs' = true)
    (hlogger : logger ≠ .null → logs' = true) : Matches logs' (loggers ++ [some logger]) := by
  intro l hl hne
  rcases List.mem_append.1 hl with hl | hl
  · exact hkept (h l hl hne)
  · cases List.mem_singleton.1 hl
    exact hlogger hne

theorem Matches.after {loggers : List (Option Logger)} (h : Matches logs loggers) (c : Command) :
    Matches logs (c.after loggers) := by
  cases c with
  | release i =>
    intro l hl
    rcases List.mem_or_eq_of_mem_set hl with hl | hnone
    · exact h l hl
    · cases hnone
  | _ => exact h

theorem mem_of_loggerAt {loggers : List (Option Logger)} {i : ℕ} {logger : Logger}
    (h : loggerAt loggers i = some logger) : some logger ∈ loggers := by
  rw [loggerAt, List.getD_eq_getElem?_getD] at h
  cases hget : loggers[i]? with
  | none =>
    rw [hget] at h
    cases h
  | some l =>
    rw [hget, Option.getD_some] at h
    exact List.mem_of_getElem? (h ▸ hget)

/-- What a command comes to: whatever the service does behind it, the command has been served. -/
structure Comes (exports : Library → Symbol → Option ℕ) (logs : Bool) (p : Process) (c : Command)
    (s : Linker Library Call.Result) (r : Option ℤ) (p' : Process)
    (t : Linker Library Call.Result) : Prop where
  served : ∃ logs' added, Fits exports logs' p'.diag t ∧ Matches logs' p'.loggers ∧
    t.invoked = s.invoked ++ added ∧ ∀ cs calls rs,
      Served (Full exports) logs' p'.loggers cs calls rs →
        Served (Full exports) logs p.loggers (c :: cs) (added ++ calls) (r :: rs)

theorem wp_getLogger (h : Fits exports logs d s) (moduleName : Bytes) (sessionKey : ℕ) :
    (diagContract exports).wp (getLogger d moduleName sessionKey) (fun r t ↦ ∃ logs' : Bool,
      r.1 = (if logs' then .diag moduleName sessionKey else .null) ∧ Fits exports logs' r.2 t ∧
        t.invoked = s.invoked ∧ (logs = true → logs' = true) ∧
          (logs' = true → Full exports)) s := by
  refine Contract.wp_then (wp_isAvailable h) ?_
  rintro ⟨available, d'⟩ t ⟨hfits, hinvoked, hkept, hfull⟩
  cases available with
  | true => exact Contract.wp_pure ⟨true, rfl, hfits, hinvoked, hkept, hfull⟩
  | false => exact Contract.wp_pure ⟨false, rfl, hfits, hinvoked, hkept, hfull⟩

theorem wp_execute {p : Process} (h : Fits exports logs p.diag s)
    (hmatches : Matches logs p.loggers) (c : Command) :
    (diagContract exports).wp (execute p c)
      (fun r t ↦ Comes exports logs p c s r.1 r.2 t) s := by
  cases hi : c.index? with
  | none =>
    cases c with
    | getLogger moduleName sessionKey =>
      refine Contract.wp_then (wp_getLogger h moduleName sessionKey) ?_
      rintro ⟨logger, d⟩ t ⟨logs', rfl, hfits, hinvoked, hkept, hfull⟩
      refine Contract.wp_pure ⟨logs', [], hfits, hmatches.append hkept fun hne ↦ ?_,
        hinvoked.trans (List.append_nil _).symm, fun _ _ _ ↦ .getLogger hkept hfull⟩
      by_contra hlogs
      exact hne (if_neg hlogs)
    | _ => cases hi
  | some i =>
    cases hlogger : loggerAt p.loggers i with
    | none =>
      rw [execute_of_released hi hlogger]
      exact Contract.wp_pure ⟨logs, [], h, hmatches, (List.append_nil _).symm,
        fun _ _ _ ↦ .released hi hlogger⟩
    | some logger =>
      have hlogs : logger ≠ .null → logs = true := hmatches logger (mem_of_loggerAt hlogger)
      have hshim : logger ≠ .null → ∀ symbol, p.diag.diagShim.get symbol ≠ none := fun hne ↦
        (DiagShim.isAvailable_iff _).1 (h.logs (hlogs hne)).2
      rw [execute_of_loggerAt hi hlogger hshim]
      cases logger with
      | null =>
        exact Contract.wp_pure ⟨logs, [], h, hmatches.after c, (List.append_nil _).symm,
          fun _ _ _ ↦ .null hi hlogger⟩
      | diag moduleName sessionKey =>
        have havailable := (h.logs (hlogs Logger.noConfusion)).2
        obtain ⟨hopen, hget⟩ := h.opened (h.handle_ne_none havailable)
        obtain ⟨call, hcall⟩ : ∃ call, c.call? moduleName sessionKey = some call := by
          cases c with
          | getLogger => cases hi
          | _ => exact ⟨_, rfl⟩
        rw [Logger.perform, hcall]
        refine Linker.wp_invoke (hshim Logger.noConfusion call.symbol) hopen (hget call.symbol)
          fun r ↦ Contract.wp_pure ⟨logs, [⟨call, r⟩], ⟨h.unchecked, h.available, h.shut, h.opened,
            h.logs⟩, hmatches.after c, rfl, fun _ _ _ ↦ .diag hi hlogger hcall r⟩

theorem wp_executeAll {p : Process} (h : Fits exports logs p.diag s)
    (hmatches : Matches logs p.loggers) (cs : List Command) :
    (diagContract exports).wp (executeAll p cs) (fun r t ↦ ∃ added,
      t.invoked = s.invoked ++ added ∧ Served (Full exports) logs p.loggers cs added r.1) s := by
  induction cs generalizing logs p s with
  | nil => exact Contract.wp_pure ⟨[], (List.append_nil _).symm, .nil⟩
  | cons c cs ih =>
    refine Contract.wp_then (wp_execute h hmatches c) ?_
    rintro ⟨r, p'⟩ t ⟨logs', added, hfits, hmatches', hinvoked, hserved⟩
    refine Contract.wp_then (ih hfits hmatches') ?_
    rintro ⟨rs, p''⟩ u ⟨added', hinvoked', hserved'⟩
    refine Contract.wp_pure ⟨added ++ added', ?_, hserved cs added' rs hserved'⟩
    rw [hinvoked', hinvoked, List.append_assoc]

/-! ### `libdiag` is tried once -/

/-- The command asks for a logger. -/
def Command.Asks (c : Command) : Prop :=
  ∃ moduleName sessionKey, c = .getLogger moduleName sessionKey

/-- A command that uses a logger asks for none. -/
theorem Command.not_asks {c : Command} {i : ℕ} (hi : c.index? = some i) : ¬ c.Asks := by
  rintro ⟨moduleName, sessionKey, rfl⟩
  cases hi

/-- The call opens `libdiag`. -/
def OpensLibdiag (op : LinkerOp Library Symbol Call) : Prop :=
  ∃ noload, op = .dlopen .libdiag noload

/-- All that is asked of a program is not to open `libdiag`, if it is `settled` whether that is
there. -/
def settledContract : Contract (LinkerOp Library Symbol Call) (LinkerAns Call.Result) Bool where
  allows settled op := settled = true → ¬ OpensLibdiag op
  answers _ _ _ := True
  next settled _ _ := settled

section

variable {settled : Bool} {α : Type} {f : α → Prop}

theorem settled_perform {op : LinkerOp Library Symbol Call}
    {next : LinkerAns Call.Result op → DiagM α} (hop : ¬ OpensLibdiag op)
    (h : ∀ r, settledContract.wp (next r) (fun a t ↦ t = settled ∧ f a) settled) :
    settledContract.wp (Interaction.perform op >>= next) (fun a t ↦ t = settled ∧ f a) settled :=
  Contract.wp_perform (fun _ ↦ hop) fun r _ ↦ h r

theorem settled_checkLibdiag (h : settled = true → d.sLibdiagChecked = true) :
    settledContract.wp (checkLibdiag d)
      (fun d' t ↦ t = settled ∧ d'.sLibdiagChecked = true) settled := by
  rw [checkLibdiag]
  split
  · next hchecked => exact Contract.wp_pure ⟨rfl, hchecked⟩
  · next hchecked =>
    have hopen : settled = true → ∀ op, ¬ OpensLibdiag op := fun hs ↦ absurd (h hs) hchecked
    refine Contract.wp_perform (fun hs ↦ hopen hs _) fun r _ ↦ ?_
    cases r with
    | some handle => exact Contract.wp_pure ⟨rfl, rfl⟩
    | none => exact Contract.wp_perform (fun hs ↦ hopen hs _) fun _ _ ↦ Contract.wp_pure ⟨rfl, rfl⟩

theorem settled_diagShimInit (hchecked : d.sLibdiagChecked = true) :
    settledContract.wp (diagShimInit d)
      (fun d' t ↦ t = settled ∧ d'.sLibdiagChecked = true) settled := by
  have hshim : ¬ OpensLibdiag (.dlopen .diagShim false) := by
    rintro ⟨noload, hop⟩
    cases hop
  have hsymbol : ∀ handle symbol, ¬ OpensLibdiag (.dlsym handle symbol) := by
    rintro handle symbol ⟨noload, hop⟩
    cases hop
  rw [diagShimInit]
  split
  · exact Contract.wp_pure ⟨rfl, hchecked⟩
  · refine settled_perform hshim fun r ↦ ?_
    cases r with
    | none => exact Contract.wp_pure ⟨rfl, hchecked⟩
    | some handle =>
      exact settled_perform (hsymbol _ _) fun _ ↦ settled_perform (hsymbol _ _) fun _ ↦
        settled_perform (hsymbol _ _) fun _ ↦ settled_perform (hsymbol _ _) fun _ ↦
          settled_perform (hsymbol _ _) fun _ ↦ Contract.wp_pure ⟨rfl, hchecked⟩

theorem settled_getLogger (h : settled = true → d.sLibdiagChecked = true) (moduleName : Bytes)
    (sessionKey : ℕ) : settledContract.wp (getLogger d moduleName sessionKey)
      (fun r t ↦ t = settled ∧ r.2.sLibdiagChecked = true) settled := by
  have havailable : settledContract.wp (isAvailable d)
      (fun r t ↦ t = settled ∧ r.2.sLibdiagChecked = true) settled := by
    refine Contract.wp_then (settled_checkLibdiag h) ?_
    rintro d' _ ⟨rfl, hchecked⟩
    split
    · refine Contract.wp_then (settled_diagShimInit hchecked) ?_
      rintro d'' _ ⟨rfl, hchecked'⟩
      exact Contract.wp_pure ⟨rfl, hchecked'⟩
    · exact Contract.wp_pure ⟨rfl, hchecked⟩
  refine Contract.wp_then havailable ?_
  rintro ⟨available, d'⟩ _ ⟨rfl, hchecked⟩
  cases available with
  | true => exact Contract.wp_pure ⟨rfl, hchecked⟩
  | false => exact Contract.wp_pure ⟨rfl, hchecked⟩

/-- A call of the shim, if there is a pointer. -/
theorem settled_invoke {ptr : Option ℕ} (c : Call) (g : c.Result → α) (a : α) :
    settledContract.wp (if ptr ≠ none then callInvoke ptr c >>= fun r ↦ pure (g r) else pure a)
      (fun _ t ↦ t = settled ∧ True) settled := by
  split
  · refine settled_perform ?_ fun r ↦ Contract.wp_pure ⟨rfl, trivial⟩
    rintro ⟨noload, hop⟩
    cases hop
  · exact Contract.wp_pure ⟨rfl, trivial⟩

/-- The command has left `libdiag` alone if it was to, and it has been tried now if the command asks
for a logger. -/
def Settles (settled : Bool) (p : Process) (c : Command) (r : Option ℤ × Process) (t : Bool) :
    Prop :=
  t = settled ∧
    (p.diag.sLibdiagChecked = true ∨ c.Asks → r.2.diag.sLibdiagChecked = true)

/-- The static variables are as before. -/
theorem settles_of_not_asks {p : Process} {c : Command} (hasks : ¬ c.Asks) (r : Option ℤ)
    (loggers : List (Option Logger)) : Settles settled p c (r, ⟨p.diag, loggers⟩) settled :=
  ⟨rfl, fun hor ↦ hor.resolve_right hasks⟩

theorem settled_of_logger {p : Process} {c : Command} (hasks : ¬ c.Asks) {x : DiagM α}
    (hx : settledContract.wp x (fun _ t ↦ t = settled ∧ True) settled) (g : α → Option ℤ)
    (loggers : List (Option Logger)) :
    settledContract.wp (x >>= fun a ↦ (pure (g a, ⟨p.diag, loggers⟩) : DiagM (Option ℤ × Process)))
      (Settles settled p c) settled := by
  refine Contract.wp_then hx ?_
  rintro a _ ⟨rfl, -⟩
  exact Contract.wp_pure (settles_of_not_asks hasks _ _)

/-- A command that uses a logger, by what that does. -/
theorem settled_execute_of_logger {p : Process} {c : Command} {i : ℕ} {logger : Logger}
    (hi : c.index? = some i) (hlogger : loggerAt p.loggers i = some logger) :
    settledContract.wp (execute p c) (Settles settled p c) settled := by
  have hasks : ¬ c.Asks := Command.not_asks hi
  cases c with
  | getLogger => cases hi
  | logRequest j dataType requestBuf =>
    cases hi
    simp only [execute, hlogger]
    refine settled_of_logger hasks ?_ some _
    cases logger with
    | null => exact Contract.wp_pure ⟨rfl, trivial⟩
    | diag moduleName sessionKey =>
      exact settled_invoke (.req ..) (fun rc ↦ if rc = 0 then 0 else 1) 1
  | logResponse j dataType responseValue =>
    cases hi
    simp only [execute, hlogger]
    refine settled_of_logger hasks ?_ some _
    cases logger with
    | null => exact Contract.wp_pure ⟨rfl, trivial⟩
    | diag moduleName sessionKey =>
      exact settled_invoke (.rsp ..) (fun rc ↦ if rc = 0 then 0 else 1) 1
  | logEvent j dataType eventBuf =>
    cases hi
    simp only [execute, hlogger]
    refine settled_of_logger hasks ?_ some _
    cases logger with
    | null => exact Contract.wp_pure ⟨rfl, trivial⟩
    | diag moduleName sessionKey =>
      exact settled_invoke (.evt ..) (fun rc ↦ if rc = 0 then 0 else 1) 1
  | updateClientId j clientId =>
    cases hi
    simp only [execute, hlogger]
    refine settled_of_logger hasks ?_ (fun _ ↦ none) _
    cases logger with
    | null => exact Contract.wp_pure ⟨rfl, trivial⟩
    | diag moduleName sessionKey => exact settled_invoke (.setId ..) id ()
  | release j =>
    cases hi
    simp only [execute, hlogger]
    refine settled_of_logger hasks ?_ (fun _ ↦ none) _
    cases logger with
    | null => exact Contract.wp_pure ⟨rfl, trivial⟩
    | diag moduleName sessionKey => exact settled_invoke (.clear ..) id ()

theorem settled_execute {p : Process} (h : settled = true → p.diag.sLibdiagChecked = true)
    (c : Command) : settledContract.wp (execute p c) (Settles settled p c) settled := by
  cases hi : c.index? with
  | none =>
    cases c with
    | getLogger moduleName sessionKey =>
      refine Contract.wp_then (settled_getLogger h moduleName sessionKey) ?_
      rintro ⟨logger, d⟩ _ ⟨rfl, hchecked⟩
      exact Contract.wp_pure ⟨rfl, fun _ ↦ hchecked⟩
    | _ => cases hi
  | some i =>
    cases hlogger : loggerAt p.loggers i with
    | none =>
      rw [execute_of_released hi hlogger]
      exact Contract.wp_pure (settles_of_not_asks (Command.not_asks hi) _ _)
    | some logger => exact settled_execute_of_logger hi hlogger

theorem settled_executeAll {p : Process} (h : settled = true → p.diag.sLibdiagChecked = true)
    (cs : List Command) : settledContract.wp (executeAll p cs) (fun r t ↦ t = settled ∧
      (p.diag.sLibdiagChecked = true ∨ (∃ c ∈ cs, c.Asks) → r.2.diag.sLibdiagChecked = true))
        settled := by
  induction cs generalizing p with
  | nil =>
    refine Contract.wp_pure ⟨rfl, ?_⟩
    rintro (hchecked | ⟨c, hc, -⟩)
    · exact hchecked
    · exact absurd hc List.not_mem_nil
  | cons c cs ih =>
    refine Contract.wp_then (settled_execute h c) ?_
    rintro ⟨r, p'⟩ _ ⟨rfl, hchecked⟩
    refine Contract.wp_then (ih fun hs ↦ hchecked (.inl (h hs))) ?_
    rintro ⟨rs, p''⟩ _ ⟨rfl, hchecked'⟩
    refine Contract.wp_pure ⟨rfl, fun hor ↦ hchecked' ?_⟩
    rcases hor with hbefore | ⟨c', hc', hasks⟩
    · exact .inl (hchecked (.inl hbefore))
    · rcases List.mem_cons.1 hc' with rfl | hc'
      · exact .inl (hchecked (.inr hasks))
      · exact .inr ⟨c', hc', hasks⟩

end

theorem executeAll_append (p : Process) (cs₁ cs₂ : List Command) :
    executeAll p (cs₁ ++ cs₂) = (executeAll p cs₁).bind fun r₁ ↦ (executeAll r₁.2 cs₂).bind fun r₂ ↦
      .ret (r₁.1 ++ r₂.1, r₂.2) := by
  induction cs₁ generalizing p with
  | nil => exact (Interaction.bind_ret _).symm
  | cons c cs₁ ih =>
    show (execute p c).bind _ = ((execute p c).bind _).bind _
    rw [Interaction.bind_assoc]
    refine congrArg _ (funext fun r ↦ ?_)
    show (executeAll r.2 (cs₁ ++ cs₂)).bind _ = ((executeAll r.2 cs₁).bind _).bind _
    rw [ih, Interaction.bind_assoc, Interaction.bind_assoc]
    refine congrArg _ (funext fun r₁ ↦ ?_)
    rw [Interaction.bind_assoc]
    rfl

theorem not_opensLibdiag_of_respected {es : List (Interaction.Event
      (LinkerOp Library Symbol Call) (LinkerAns Call.Result))}
    (h : settledContract.Respected true es) : ∀ e ∈ es, ¬ OpensLibdiag e.op := by
  induction es with
  | nil => exact List.forall_mem_nil _
  | cons e es ih => exact List.forall_mem_cons.2 ⟨h.1 rfl, ih h.2⟩

/-- **`libdiag` is not tried any more** when some commands have been executed of which one asks for
a logger. -/
theorem not_opensLibdiag_of_asks {cs₁ cs₂ : List Command} {es₁ es₂ : List (Interaction.Event
      (LinkerOp Library Symbol Call) (LinkerAns Call.Result))} {r : List (Option ℤ) × Process}
    {q : DiagM (List (Option ℤ) × Process)}
    (hrun : Interaction.Run (executeAll ⟨.initial, []⟩ cs₁) es₁ r) (hasks : ∃ c ∈ cs₁, c.Asks)
    (hsteps : Interaction.Steps (executeAll ⟨.initial, []⟩ (cs₁ ++ cs₂)) (es₁ ++ es₂) q) :
    ∀ e ∈ es₂, ¬ OpensLibdiag e.op := by
  have hfalse : false = true → Diag.initial.sLibdiagChecked = true := fun h ↦ absurd h (by decide)
  have hanswered : ∀ settled es, settledContract.Answered settled es := fun settled es ↦
    Contract.answered_of_forall (fun _ _ _ ↦ trivial) settled es
  obtain ⟨-, -, hchecked⟩ := Contract.wp_run (settled_executeAll hfalse cs₁) hrun (hanswered _ _)
  have hrest := settled_executeAll (fun _ : true = true ↦ hchecked (.inr hasks)) cs₂
  rw [executeAll_append] at hsteps
  have hbehind : settledContract.wp ((executeAll r.2 cs₂).bind fun r₂ ↦
      .ret (r.1 ++ r₂.1, r₂.2)) (fun _ _ ↦ True) true :=
    Contract.wp_bind.2 (Contract.wp_mono (fun _ _ _ ↦ trivial) hrest)
  exact not_opensLibdiag_of_respected
    (Contract.wp_steps hbehind (hrun.of_bind hsteps) (hanswered _ _)).1

/-- **The loggers are the service**: whatever sessions do, the libraries are opened and looked into
only when they should be, and nothing is called but what has been found; and with what has been
called, and what has been returned, the commands have been served. When a logger has been asked for
`libdiag` is not tried any more. -/
theorem commands_served (cs : List Command) {es : List (Interaction.Event
      (LinkerOp Library Symbol Call) (LinkerAns Call.Result))}
    {q : DiagM (List (Option ℤ) × Process)}
    (hsteps : Interaction.Steps (executeAll ⟨.initial, []⟩ cs) es q)
    (hanswered : (diagContract exports).Answered .fresh es) :
    (diagContract exports).Respected .fresh es ∧
      (∀ op next, q = .call op next →
        (diagContract exports).allows ((diagContract exports).after .fresh es) op) ∧
      (∀ rs p, q = .ret (rs, p) → Served (Full exports) false [] cs
        ((diagContract exports).after .fresh es).invoked rs) ∧
      ∀ cs₁ cs₂ es₁ es₂ r, cs = cs₁ ++ cs₂ → es = es₁ ++ es₂ →
        Interaction.Run (executeAll ⟨.initial, []⟩ cs₁) es₁ r → (∃ c ∈ cs₁, c.Asks) →
          ∀ e ∈ es₂, ¬ OpensLibdiag e.op := by
  have hmatches : Matches false [] := nofun
  obtain ⟨hrespected, hwp⟩ := Contract.wp_steps
    (wp_executeAll fits_initial hmatches cs) hsteps hanswered
  refine ⟨hrespected, ?_, ?_, ?_⟩
  · rintro op next rfl
    exact hwp.1
  · rintro rs p rfl
    obtain ⟨added, hinvoked, hserved⟩ := hwp
    rw [hinvoked]
    exact hserved
  · rintro cs₁ cs₂ es₁ es₂ r rfl rfl hrun hasks
    exact not_opensLibdiag_of_asks hrun hasks hsteps

/-- Two sessions, of which the second one finds the shim. -/
def twoSessions : List Command :=
  [.getLogger [65] 1, .getLogger [66] 2, .logRequest 0 [97] [], .logRequest 1 [97] [8], .release 1,
    .logRequest 1 [97] []]

/-- What the libraries are used for, with the request being refused. -/
def lateShim : List (Interaction.Event (LinkerOp Library Symbol Call) (LinkerAns Call.Result)) :=
  [⟨.dlopen .libdiag true, none⟩, ⟨.dlopen .libdiag false, some 7⟩,
    ⟨.dlopen .diagShim false, none⟩, ⟨.dlopen .diagShim false, some 8⟩, ⟨.dlsym 8 .req, some 16⟩,
    ⟨.dlsym 8 .evt, some 17⟩, ⟨.dlsym 8 .rsp, some 18⟩, ⟨.dlsym 8 .setId, some 19⟩,
    ⟨.dlsym 8 .clear, some 20⟩, ⟨.invoke (some 16) (.req 2 [8] [97] [66]), (-1 : ℤ)⟩,
    ⟨.invoke (some 20) (.clear 2), ()⟩]

/-- The symbols of the shim. -/
def shimExports : Library → Symbol → Option ℕ
  | .libdiag, _ => none
  | .diagShim, .req => some 16
  | .diagShim, .evt => some 17
  | .diagShim, .rsp => some 18
  | .diagShim, .setId => some 19
  | .diagShim, .clear => some 20

theorem run_twoSessions : Interaction.Run (executeAll ⟨.initial, []⟩ twoSessions) lateShim
    ([none, none, some 0, some 1, none, none],
      ⟨⟨⟨some 8, some 16, some 17, some 18, some 19, some 20⟩, true, true⟩, [some .null, none]⟩) :=
  .call _ (.call _ (.call _ (.call _ (.call _ (.call _ (.call _ (.call _ (.call _ (.call _
    (.call _ (.refl _)))))))))))

theorem answered_lateShim : (diagContract shimExports).Answered .fresh lateShim := by
  have hsymbol : ∀ symbol r, shimExports .diagShim symbol = r →
      ∀ lib, some Library.diagShim = some lib → r = shimExports lib symbol := by
    rintro symbol r rfl lib ⟨⟩
    rfl
  exact ⟨nofun, fun _ _ ↦ .inl rfl, nofun, fun h hh ↦ .inl (by cases hh; rfl), hsymbol .req _ rfl,
    hsymbol .evt _ rfl, hsymbol .rsp _ rfl, hsymbol .setId _ rfl, hsymbol .clear _ rfl, trivial,
    trivial, trivial⟩

/-- The first session has tried `libdiag`, and the second one leaves it alone. -/
theorem commands_served_twoSessions :
    Served (Full shimExports) false [] twoSessions
        [⟨.req 2 [8] [97] [66], (-1 : ℤ)⟩, ⟨.clear 2, ()⟩]
        [none, none, some 0, some 1, none, none] ∧
      ∀ e ∈ lateShim.drop 3, ¬ OpensLibdiag e.op := by
  have hfirst : Interaction.Run (executeAll ⟨.initial, []⟩ [.getLogger [65] 1]) (lateShim.take 3)
      ([none], ⟨⟨.initial, true, true⟩, [some .null]⟩) := .call _ (.call _ (.call _ (.refl _)))
  obtain ⟨-, -, hserved, honce⟩ := commands_served twoSessions run_twoSessions answered_lateShim
  exact ⟨hserved _ _ rfl, honce [.getLogger [65] 1] _ (lateShim.take 3) _ _ rfl rfl hfirst
    ⟨_, List.mem_singleton_self _, [65], 1, rfl⟩⟩

end SensingHub.SessionLogger
