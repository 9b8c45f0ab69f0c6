import SensingHub.Client.Flow

/-!
# What the example client asks for

What a message asks is told by its receiver: by the message id and by what the payload says. Read
so, the requests of `main` are those of `script`, in that order: one that looks up the sensors, one
for the attributes of each, one that starts each and one that stops each.

`scriptContract` follows this: a request may only be the next one of the script, on the session that
has been got last, and none may come behind one that has been refused.
-/

namespace SensingHub.Client

open Discovery (Suid suidSensor SNS_SUID_MSGID_SNS_SUID_REQ ReceivedSuidReq decodeSuidReq)
open Interaction (Event Steps Run)
open Op
open QshPb (NanopbWriter)

/-! ### What a request asks for -/

/-- What a sensor is asked for. -/
inductive Purpose
  | sensors (req : ReceivedSuidReq)
  | attributes
  | config (rate : UInt32)
  | disable
  deriving DecidableEq, Repr

/-- What a request asks for, by its message id. -/
def ReceivedRequest.purpose? (r : ReceivedRequest) : Option Purpose :=
  if r.msgId = SNS_SUID_MSGID_SNS_SUID_REQ then
    (r.payload.bind decodeSuidReq).map .sensors
  else if r.msgId = SNS_STD_MSGID_SNS_STD_ATTR_REQ then
    some .attributes
  else if r.msgId = SNS_STD_SENSOR_MSGID_SNS_STD_SENSOR_CONFIG then
    (r.payload.bind decodeSensorConfig).map .config
  else if r.msgId = SNS_CLIENT_MSGID_SNS_CLIENT_DISABLE_REQ then
    some .disable
  else none

/-- Who is asked, and what for. -/
abbrev Demand := Suid × Purpose

/-- What is asked with a message. -/
def demand? (message : Bytes) : Option Demand := do
  let r ← decodeRequestMsg message
  return (r.suid, ← r.purpose?)

theorem demand?_eq_some {message : Bytes} {uid : Suid} {msgId : UInt32} {payload : Option Bytes}
    {p : Purpose} (hdecode : decodeRequestMsg message = some (plainRequest uid msgId payload))
    (hp : (plainRequest uid msgId payload).purpose? = some p) :
    demand? message = some (uid, p) := by
  rw [demand?, hdecode]
  show Option.bind (ReceivedRequest.purpose? _) _ = _
  rw [hp]
  rfl

section

variable {nb : NanopbWriter} (hnb : nb.FollowsWireFormat)

/-- What `getSuid` asks for: the sensors of `sensorType`, the default one only, and updates. -/
def lookUpPurpose : Purpose :=
  .sensors ⟨sensorType ++ [0], some true, some true⟩

include hnb in
theorem exists_encode_lookUp (uid : Suid) : ∃ payload, encodeSuidReq nb = some payload ∧
    ∃ out, encodeRequestMsg nb 256 (suidRequestMsg uid payload.written) = some out ∧
      demand? out.written = some (uid, lookUpPurpose) := by
  obtain ⟨payload, hpayload, hlen, hreq⟩ := exists_encodeSuidReq hnb
  obtain ⟨out, hout, hdecode⟩ := exists_encode_suidRequestMsg hnb uid hlen
  refine ⟨payload, hpayload, out, hout, demand?_eq_some hdecode ?_⟩
  show (decodeSuidReq payload.written).map Purpose.sensors = _
  rw [hreq]
  rfl

include hnb in
theorem exists_encode_attributes (uid : Suid) :
    ∃ out, encodeRequestMsg nb 256 (attrRequestMsg uid) = some out ∧
      demand? out.written = some (uid, .attributes) := by
  obtain ⟨out, hout, hdecode⟩ := exists_encode_attrRequestMsg hnb uid
  exact ⟨out, hout, demand?_eq_some hdecode rfl⟩

include hnb in
theorem exists_encode_config (uid : Suid) : ∃ sub, encodeSensorConfig nb = some sub ∧
    ∃ out, encodeRequestMsg nb 100 (configRequestMsg uid sub.written) = some out ∧
      demand? out.written = some (uid, .config sampleRate) := by
  obtain ⟨sub, hsub, hlen, hrate⟩ := exists_encodeSensorConfig hnb
  obtain ⟨out, hout, hdecode⟩ := exists_encode_configRequestMsg hnb uid hlen
  refine ⟨sub, hsub, out, hout, demand?_eq_some hdecode ?_⟩
  show (decodeSensorConfig sub.written).map Purpose.config = _
  rw [hrate]
  rfl

include hnb in
theorem exists_encode_disable (uid : Suid) :
    ∃ out, encodeRequestMsg nb 256 (disableRequestMsg uid) = some out ∧
      demand? out.written = some (uid, .disable) := by
  obtain ⟨out, hout, hdecode⟩ := exists_encode_disableRequestMsg hnb uid
  exact ⟨out, hout, demand?_eq_some hdecode rfl⟩

end

/-! ### The script -/

/-- The requests of `main`. -/
def script (suidList : List Suid) : List Demand :=
  (suidSensor, lookUpPurpose) :: (suidList.map fun uid ↦ (uid, .attributes)) ++
    (suidList.map fun uid ↦ (uid, .config sampleRate)) ++
    suidList.map fun uid ↦ (uid, .disable)

/-- The session that has been got last, what is left of the script, and whether a request has been
refused. -/
structure Script where
  session : Option Handle
  rest : List Demand
  refused : Bool

/-- Requests are made as the script says. -/
def scriptContract : Contract Op Ans Script where
  allows s
    | .sendRequest h suid message => s.session = some h ∧ s.refused = false ∧
        ∃ p rest, s.rest = (suid, p) :: rest ∧ demand? message = some (suid, p)
    | _ => True
  answers _ _ _ := True
  next s
    | .getSession _, .ok (some h) => { s with session := some h }
    | .sendRequest _ _ _, r => { s with rest := s.rest.tail, refused := decide (r ≠ 0) }
    | _, _ => s

/-- What is asked with the requests among some calls. -/
def requests (es : List (Event Op Ans)) : List (Option Demand) :=
  es.filterMap fun e ↦ match e.op with
    | .sendRequest _ _ message => some (demand? message)
    | _ => none

/-- What has been asked and what is left are the script. -/
theorem requests_append_rest {s : Script} {es : List (Event Op Ans)}
    (h : scriptContract.Respected s es) :
    requests es ++ (scriptContract.after s es).rest.map some = s.rest.map some := by
  induction es generalizing s with
  | nil => rfl
  | cons e es ih =>
    obtain ⟨hallows, hrest⟩ := h
    obtain ⟨op, r⟩ := e
    cases op with
    | sendRequest h suid message =>
      obtain ⟨-, -, p, rest, hs, hdemand⟩ := hallows
      have hlater := ih hrest
      rw [hs, List.map_cons, ← hdemand]
      refine congrArg (List.cons _) (hlater.trans ?_)
      show s.rest.tail.map some = _
      rw [hs, List.tail_cons]
    | getSession hubId =>
      rcases r with e | _ | h <;> exact ih hrest
    | openSession h => exact ih hrest
    | setCallBacks h suid => exact ih hrest
    | closeSession h => exact ih hrest
    | deleteSession h => exact ih hrest
    | wait => exact ih hrest
    | sleep => exact ih hrest
    | terminate => exact ih hrest

/-! ### Rules -/

section

variable {α : Type} {Q : α → Script → Prop} {h : Handle} {rest : List Demand}

/-- The next request of the script. -/
theorem wp_request {suid : Suid} {p : Purpose} {message : Bytes} {f : ℤ → SessionM α}
    (hdemand : demand? message = some (suid, p))
    (hsent : scriptContract.wp (f 0) Q ⟨some h, rest, false⟩)
    (hrefused : ∀ r ≠ 0, scriptContract.wp (f r) Q ⟨some h, rest, true⟩) :
    scriptContract.wp (callSendRequest h suid message >>= f) Q
      ⟨some h, (suid, p) :: rest, false⟩ := by
  refine Contract.wp_perform ⟨rfl, rfl, p, rest, rfl, hdemand⟩ fun r _ ↦ ?_
  rcases eq_or_ne r 0 with rfl | hne
  · exact hsent
  · show scriptContract.wp (f r) Q ⟨some h, rest, decide (r ≠ 0)⟩
    rw [decide_eq_true hne]
    exact hrefused r hne

/-- What is left of the script when a function has returned true. -/
def Goes (h : Handle) (rest : List Demand) (ok : Bool) (t : Script) : Prop :=
  ok = true → t = ⟨some h, rest, false⟩

theorem wp_false {rest' : List Demand} {t : Script} :
    scriptContract.wp (pure false : SessionM Bool) (Goes h rest') t :=
  Contract.wp_pure nofun

/-- A function goes on only if it has not been refused. -/
theorem wp_if_refused {r : ℤ} (hr : r ≠ 0) {p : SessionM Bool} {rest' : List Demand} {t : Script} :
    scriptContract.wp (if r ≠ 0 then pure false else p) (Goes h rest') t := by
  rw [if_pos hr]
  exact wp_false

end

/-! ### What the functions ask for -/

section

variable {nb : NanopbWriter} (hnb : nb.FollowsWireFormat) (h : Handle)

include hnb in
theorem sends_requestAttributes (suidList : List Suid) (rest : List Demand) :
    scriptContract.wp (requestAttributes nb h suidList) (Goes h rest)
      ⟨some h, (suidList.map fun uid ↦ (uid, .attributes)) ++ rest, false⟩ := by
  induction suidList with
  | nil => exact Contract.wp_pure fun _ ↦ rfl
  | cons uid suidList ih =>
    obtain ⟨out, hout, hdemand⟩ := exists_encode_attributes hnb uid
    rw [requestAttributes]
    refine Contract.wp_perform trivial fun _ _ ↦ ?_
    rw [hout]
    exact wp_request hdemand ih fun r hr ↦ wp_if_refused hr

include hnb in
theorem sends_startStreaming (suidList : List Suid) (rest : List Demand) :
    scriptContract.wp (startStreaming nb h suidList) (Goes h rest)
      ⟨some h, (suidList.map fun uid ↦ (uid, .config sampleRate)) ++ rest, false⟩ := by
  induction suidList with
  | nil => exact Contract.wp_pure fun _ ↦ rfl
  | cons uid suidList ih =>
    obtain ⟨sub, hsub, out, hout, hdemand⟩ := exists_encode_config hnb uid
    rw [startStreaming]
    refine Contract.wp_perform trivial fun _ _ ↦ ?_
    rw [hsub]
    dsimp only
    rw [hout]
    exact wp_request hdemand ih fun r hr ↦ wp_if_refused hr

include hnb in
theorem sends_stopStreaming (suidList : List Suid) (rest : List Demand) :
    scriptContract.wp (stopStreaming nb h suidList) (Goes h rest)
      ⟨some h, (suidList.map fun uid ↦ (uid, .disable)) ++ rest, false⟩ := by
  induction suidList with
  | nil => exact Contract.wp_pure fun _ ↦ rfl
  | cons uid suidList ih =>
    obtain ⟨out, hout, hdemand⟩ := exists_encode_disable hnb uid
    rw [stopStreaming, hout]
    exact wp_request hdemand ih fun r hr ↦ wp_if_refused hr

include hnb in
theorem sends_lookUpSuids (rest : List Demand) :
    scriptContract.wp (lookUpSuids nb h) (Goes h rest)
      ⟨some h, (suidSensor, lookUpPurpose) :: rest, false⟩ := by
  obtain ⟨payload, hpayload, out, hout, hdemand⟩ := exists_encode_lookUp hnb suidSensor
  rw [lookUpSuids]
  refine Contract.wp_perform trivial fun r _ ↦ ?_
  split
  · exact wp_false
  · refine Contract.wp_perform trivial fun _ _ ↦ ?_
    rw [hpayload]
    dsimp only
    rw [hout]
    refine wp_request hdemand ?_ fun r hr ↦ wp_if_refused hr
    exact Contract.wp_perform trivial fun _ _ ↦ Contract.wp_perform trivial fun _ _ ↦
      Contract.wp_pure fun _ ↦ rfl

include hnb in
theorem sends_fetchAttributes (suidList : List Suid) (rest : List Demand) :
    scriptContract.wp (fetchAttributes nb suidList h) (Goes h rest)
      ⟨some h, (suidList.map fun uid ↦ (uid, .attributes)) ++ rest, false⟩ := by
  rw [fetchAttributes]
  refine Contract.wp_perform trivial fun r _ ↦ ?_
  split
  · exact wp_false
  · refine Contract.wp_then (sends_requestAttributes hnb h suidList rest) fun ok t ht ↦ ?_
    cases ok with
    | false => exact wp_false
    | true =>
      exact Contract.wp_perform trivial fun _ _ ↦ Contract.wp_perform trivial fun _ _ ↦
        Contract.wp_pure ht

include hnb in
theorem sends_stream (suidList : List Suid) (rest : List Demand) :
    scriptContract.wp (stream nb suidList h) (Goes h rest)
      ⟨some h, (suidList.map fun uid ↦ (uid, .config sampleRate)) ++
        ((suidList.map fun uid ↦ (uid, .disable)) ++ rest), false⟩ := by
  rw [stream]
  refine Contract.wp_perform trivial fun r _ ↦ ?_
  split
  · exact wp_false
  · refine Contract.wp_then (sends_startStreaming hnb h suidList _) fun ok t ht ↦ ?_
    cases ok with
    | false => exact wp_false
    | true =>
      rw [ht rfl]
      refine Contract.wp_perform trivial fun _ _ ↦
        Contract.wp_then (sends_stopStreaming hnb h suidList rest) fun ok u hu ↦ ?_
      cases ok with
      | false => exact wp_false
      | true =>
        exact Contract.wp_perform trivial fun _ _ ↦ Contract.wp_perform trivial fun _ _ ↦
          Contract.wp_pure hu

end

theorem sends_getSession (x : Option Handle) (demands : List Demand) :
    scriptContract.wp getSession (fun r t ↦ ∀ h, r = some h → t = ⟨some h, demands, false⟩)
      ⟨x, demands, false⟩ := by
  rw [getSession]
  refine Contract.wp_perform trivial fun r _ ↦ ?_
  rcases r with e | _ | h
  · exact Contract.wp_perform trivial fun r _ ↦ r.elim
  · exact Contract.wp_pure nofun
  · exact Contract.wp_pure fun h' hh ↦ by rw [← Option.some.inj hh]; rfl

/-- A function with a session of its own. -/
theorem sends_factory {f : Handle → SessionM Bool} {x : Option Handle} {demands rest : List Demand}
    (hf : ∀ h, scriptContract.wp (f h) (Goes h rest) ⟨some h, demands, false⟩) :
    scriptContract.wp (do
      match ← getSession with
      | none => return false
      | some h => f h) (fun ok t ↦ ok = true → ∃ h, t = ⟨some h, rest, false⟩)
      ⟨x, demands, false⟩ := by
  refine Contract.wp_then (sends_getSession x demands) fun r t ht ↦ ?_
  cases r with
  | none => exact Contract.wp_pure nofun
  | some h =>
    rw [ht h rfl]
    exact Contract.wp_mono (fun ok t ht hok ↦ ⟨h, ht hok⟩) (hf h)

theorem sends_withSession {h : Handle} {body : SessionM Bool} {rest : List Demand} {s : Script}
    (hbody : scriptContract.wp body (Goes h rest) s) :
    scriptContract.wp (withSession h body) (Goes h rest) s :=
  Contract.wp_then hbody fun _ _ ht ↦ Contract.wp_perform trivial fun _ _ ↦ Contract.wp_pure ht

/-! ### The whole program -/

/-- Nothing has been done yet. -/
def Script.start (suidList : List Suid) : Script :=
  ⟨none, script suidList, false⟩

/-- A function that has returned false ends `main`. -/
theorem sends_failed (t : Script) :
    scriptContract.wp (pure (-1)) (fun r t ↦ r = 0 → t.rest = [] ∧ t.refused = false) t :=
  Contract.wp_pure fun h ↦ absurd h (by decide)

theorem sends_main {nb : NanopbWriter} (hnb : nb.FollowsWireFormat) (suidList : List Suid) :
    scriptContract.wp (main nb suidList) (fun r t ↦ r = 0 → t.rest = [] ∧ t.refused = false)
      (.start suidList) := by
  have hgetSuid : ∀ rest, scriptContract.wp (getSuid nb)
      (fun ok t ↦ ok = true → ∃ h, t = ⟨some h, rest, false⟩)
      ⟨none, (suidSensor, lookUpPurpose) :: rest, false⟩ := fun rest ↦
    sends_factory fun h ↦ sends_withSession (sends_lookUpSuids hnb h rest)
  have hgetAttributes : ∀ x rest, scriptContract.wp (getAttributes nb suidList)
      (fun ok t ↦ ok = true → ∃ h, t = ⟨some h, rest, false⟩)
      ⟨x, (suidList.map fun uid ↦ (uid, .attributes)) ++ rest, false⟩ := fun x rest ↦
    sends_factory fun h ↦ sends_withSession (sends_fetchAttributes hnb h suidList rest)
  have hgetSensorData : ∀ x, scriptContract.wp (getSensorData nb suidList)
      (fun ok t ↦ ok = true → ∃ h, t = ⟨some h, [], false⟩)
      ⟨x, (suidList.map fun uid ↦ (uid, .config sampleRate)) ++
        ((suidList.map fun uid ↦ (uid, .disable)) ++ []), false⟩ := fun x ↦
    sends_factory fun h ↦ sends_stream hnb h suidList []
  rw [main, Script.start, script, List.append_assoc, List.cons_append]
  refine Contract.wp_then (hgetSuid _) fun ok t ht ↦ ?_
  cases ok with
  | false => exact sends_failed t
  | true =>
    obtain ⟨h, rfl⟩ := ht rfl
    refine Contract.wp_then (hgetAttributes _ _) fun ok u hu ↦ ?_
    cases ok with
    | false => exact sends_failed u
    | true =>
      obtain ⟨h', rfl⟩ := hu rfl
      rw [← List.append_nil (suidList.map fun uid ↦ (uid, Purpose.disable))]
      refine Contract.wp_then (hgetSensorData _) fun ok v hv ↦ ?_
      cases ok with
      | false => exact sends_failed v
      | true =>
        obtain ⟨h'', rfl⟩ := hv rfl
        exact Contract.wp_pure fun _ ↦ ⟨rfl, rfl⟩

/-- **What the sensors are asked for**: as far as the program has got, its requests are the first
ones of the script, each on the session that has been got last and none behind one that has been
refused; if it returns 0, they are the whole script and none has been refused. -/
theorem main_sends {nb : NanopbWriter} (hnb : nb.FollowsWireFormat) (suidList : List Suid)
    {es : List (Event Op Ans)} {q : SessionM ℤ} (hsteps : Steps (main nb suidList) es q) :
    scriptContract.Respected (.start suidList) es ∧
      requests es <+: (script suidList).map some ∧
      (q = .ret 0 → requests es = (script suidList).map some ∧
        (scriptContract.after (.start suidList) es).refused = false) := by
  obtain ⟨hrespected, hwp⟩ := Contract.wp_steps (sends_main hnb suidList) hsteps
    (Contract.answered_of_forall (fun _ _ _ ↦ trivial) _ es)
  have hscript := requests_append_rest hrespected
  refine ⟨hrespected, ⟨_, hscript⟩, ?_⟩
  rintro rfl
  obtain ⟨hrest, hrefused⟩ := hwp rfl
  rw [hrest, List.map_nil, List.append_nil] at hscript
  exact ⟨hscript, hrefused⟩

theorem exists_run_refusedRun : ∃ message, demand? message = some (suidSensor, lookUpPurpose) ∧
    Run (main QshPb.protoWriter [⟨1, 2⟩]) (refusedRun message) (-1) := by
  obtain ⟨payload, hpayload, out, hout, hdemand⟩ :=
    exists_encode_lookUp QshPb.protoWriter_followsWireFormat suidSensor
  exact ⟨out.written, hdemand, run_refusedRun hpayload hout [⟨1, 2⟩]⟩

theorem main_sends_refusedRun : ∃ message, demand? message = some (suidSensor, lookUpPurpose) ∧
    scriptContract.Respected (.start [⟨1, 2⟩]) (refusedRun message) ∧
    requests (refusedRun message) <+: (script [⟨1, 2⟩]).map some := by
  obtain ⟨message, hdemand, hrun⟩ := exists_run_refusedRun
  obtain ⟨hrespected, hprefix, -⟩ :=
    main_sends QshPb.protoWriter_followsWireFormat [⟨1, 2⟩] hrun
  exact ⟨message, hdemand, hrespected, hprefix⟩

end SensingHub.Client
