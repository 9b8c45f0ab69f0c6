import SensingHub.Lib.CString
import SensingHub.Lib.Decoding

/-!
# Looking up sensor ids

`suidLookUp` decodes the messages of its session and hands the lists of ids in them to a callback;
`locate` waits for them with a callback of its own. An event that says that discovery is done has no
list of its own: `suid_decode_event` turns it into an empty list for a data type of a special name,
and `onSuidsAvailable` takes that name for the end of discovery.

nanopb is a parameter: for each kind of message, the fields it finds in its bytes and whether it can
decode them to the end.
-/

namespace SensingHub.Discovery

open CLib (str cString)

/-! ### Messages -/

/-- `suid` -/
structure Suid where
  low : UInt64
  high : UInt64
  deriving DecidableEq, Repr

/-- The fields of an `sns_std_suid`. -/
inductive StdSuidField
  | suidLow (v : UInt64)
  | suidHigh (v : UInt64)
  deriving DecidableEq, Repr

/-- The fields of an `sns_client_event` that are looked at. -/
inductive ClientEventField
  | msgId (v : UInt32)
  | payload (b : Bytes)
  deriving DecidableEq, Repr

/-- The fields of an `sns_suid_event`; a `suid` is an `sns_std_suid`. -/
inductive SuidEventField
  | dataType (b : Bytes)
  | suid (b : Bytes)
  deriving DecidableEq, Repr

/-- What `pb_decode` finds in the bytes of a message. -/
structure Nanopb where
  /-- `sns_client_event_msg`: its `events`. -/
  clientEventMsg : Bytes → Decoding Bytes
  /-- `sns_client_event` -/
  clientEvent : Bytes → Decoding ClientEventField
  /-- `sns_suid_event` -/
  suidEvent : Bytes → Decoding SuidEventField
  /-- `sns_std_suid` -/
  stdSuid : Bytes → Decoding StdSuidField
  /-- Without bytes there is no field. -/
  suidEvent_nil : (suidEvent []).fields = []

/-- `SNS_SUID_MSGID_SNS_SUID_EVENT` -/
def SNS_SUID_MSGID_SNS_SUID_EVENT : UInt32 := 768

/-- `SNS_SUID_MSGID_SNS_SUID_DISCOVERY_DONE_EVENT` -/
def SNS_SUID_MSGID_SNS_SUID_DISCOVERY_DONE_EVENT : UInt32 := 769

/-- The data type that stands for the end of discovery. -/
def discoveryDoneType : Bytes :=
  str "SNS_SUID_MSGID_SNS_SUID_DISCOVERY_DONE_EVENT"

/-! ### Decoding -/

/-- What the behaviour of the code is not defined for: a pointer that was never written, and a
string that no NUL ends. -/
inductive Undefined
  | uninitialized
  | unterminated
  deriving DecidableEq, Repr

/-- Decoding with local variables `σ`. -/
abbrev DecodeM (σ : Type) :=
  Prog Undefined σ

/-- `decode_payload`: the bytes of the field, to where `arg` says. -/
def decodePayload {σ : Type} (arg : Option Bytes → σ → σ) (payload : Bytes) : DecodeM σ Bool := do
  Prog.modify (arg (some payload))
  return true

/-- The fields of an `sns_std_suid`. -/
def storeStdSuid : StdSuidField → DecodeM Suid Bool
  | .suidLow v => do
    Prog.modify fun uid ↦ { uid with low := v }
    return true
  | .suidHigh v => do
    Prog.modify fun uid ↦ { uid with high := v }
    return true

/-- An `sns_client_event` and the buffer of its payload. -/
structure ClientEvent where
  msgId : UInt32
  data : Option Bytes

/-- The fields of an `sns_client_event`. -/
def storeClientEvent : ClientEventField → DecodeM ClientEvent Bool
  | .msgId v => do
    Prog.modify fun event ↦ { event with msgId := v }
    return true
  | .payload b => decodePayload (fun data event ↦ { event with data := data }) b

/-- The buffer of the data type of an `sns_suid_event`, and its ids. -/
structure SuidEvent where
  datatypeBuf : Option Bytes
  suidVector : List Suid

/-- `decode_suid` -/
def decodeSuid (pb : Nanopb) (stream : Bytes) : DecodeM SuidEvent Bool := do
  let (ok, uid) ← Prog.withLocal ⟨0, 0⟩ ((pb.stdSuid stream).run storeStdSuid)
  if !ok then return false
  Prog.modify fun event ↦ { event with suidVector := event.suidVector ++ [uid] }
  return true

/-- The fields of an `sns_suid_event`. -/
def storeSuidEvent (pb : Nanopb) : SuidEventField → DecodeM SuidEvent Bool
  | .dataType b => decodePayload (fun data event ↦ { event with datatypeBuf := data }) b
  | .suid b => decodeSuid pb b

/-- `suid_decode_context` -/
structure SuidDecodeContext where
  suids : List (List Suid)
  datatype : List Bytes

/-- `emplace_back` on both vectors. -/
def SuidDecodeContext.push (ctx : SuidDecodeContext) (datatype : Bytes) (suids : List Suid) :
    SuidDecodeContext :=
  ⟨ctx.suids ++ [suids], ctx.datatype ++ [datatype]⟩

/-- The value of a variable that may never have been written. -/
def initialized {σ : Type} {α : Type} : Option α → DecodeM σ α
  | none => Prog.stop .uninitialized
  | some a => pure a

/-- `std::string(datatype)` -/
def stringOf {σ : Type} (buf : Bytes) : DecodeM σ Bytes :=
  match cString buf with
  | none => Prog.stop .unterminated
  | some s => pure s

/-- `suid_decode_event` -/
def suidDecodeEvent (pb : Nanopb) (stream : Bytes) : DecodeM SuidDecodeContext Bool := do
  let (ok, event) ← Prog.withLocal ⟨0, none⟩ ((pb.clientEvent stream).run storeClientEvent)
  if !ok then return false
  if event.msgId = SNS_SUID_MSGID_SNS_SUID_DISCOVERY_DONE_EVENT then
    Prog.modify fun ctx ↦ ctx.push discoveryDoneType []
    return true
  else if event.msgId = SNS_SUID_MSGID_SNS_SUID_EVENT then
    let data ← initialized event.data
    if data = [] then return false
    let (ok, suidEvent) ← Prog.withLocal ⟨none, []⟩ ((pb.suidEvent data).run (storeSuidEvent pb))
    if !ok then return false
    let datatype ← stringOf (← initialized suidEvent.datatypeBuf)
    Prog.modify fun ctx ↦ ctx.push datatype suidEvent.suidVector
    return true
  else return false

/-! ### `suidLookUp` -/

/-- The members of `suidLookUp` that `handleQshEvent` uses, but for `mEventCb`. -/
structure SuidLookUp where
  mSetThreadName : Bool
  deriving DecidableEq, Repr

/-- The arguments of a call of `mEventCb`. -/
structure EventCb where
  datatype : Bytes
  suids : List Suid
  deriving DecidableEq, Repr

/-- `handleQshEvent`: the calls of `mEventCb` it makes, in order. -/
def SuidLookUp.handleQshEvent (pb : Nanopb) (self : SuidLookUp) (data : Bytes) :
    Except Undefined (SuidLookUp × List EventCb) :=
  let self := if self.mSetThreadName then { self with mSetThreadName := false } else self
  match (pb.clientEventMsg data).run (suidDecodeEvent pb) ⟨[], []⟩ with
  | (.error e, _) => .error e
  | (.ok _, ctx) =>
    if ctx.suids.length = ctx.datatype.length ∧ ctx.datatype.length ≠ 0 then
      .ok (self, (List.zipWith EventCb.mk ctx.datatype ctx.suids).filter
        fun cb ↦ cb.datatype ≠ discoveryDoneType)
    else .ok (self, [])

/-! ### `locate` -/

/-- The members of `locate`; `mSuids` is `none` when the pointer is null. -/
structure Locate where
  mSuids : Option (List Suid)
  mLookupDone : Bool
  deriving DecidableEq, Repr

/-- `onSuidsAvailable` -/
def Locate.onSuidsAvailable (l : Locate) (datatype : Bytes) (suids : List Suid) : Locate :=
  if datatype = discoveryDoneType then { l with mLookupDone := true }
  else
    match l.mSuids with
    | none => l
    | some _ => { l with mSuids := some (suids.foldl (fun v s ↦ v ++ [⟨s.low, s.high⟩]) []) }

end SensingHub.Discovery
