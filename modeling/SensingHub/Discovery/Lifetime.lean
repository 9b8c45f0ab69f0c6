import SensingHub.Client.Flow

/-!
# The session of `suidLookUp`

The constructor gets a session, opens it and sets the callbacks; if any of this fails the object has
no session. Requests are sent if there is one, and the destructor closes it. So however the session
behaves, and whatever is requested, the session is used as its interface asks for and is closed and
deleted in the end, and what is sent on it is what the model of single requests says
(`lifetime_keeps`). `lookUp` of `locate` has such an object on its stack.
-/

namespace SensingHub.Discovery

open Client (Handle Op Ans Sessions SessionM IsRequestFor RequestMsg Tidy sessionContract
  decodeRequestMsg wp_getSession wp_open wp_setCallBacks wp_sendRequest wp_close wp_delete wp_wait)
open Client.Op
open Interaction (Steps)
open QshPb (NanopbEncoder)

/-! ### The functions -/

/-- What the constructor does with a session it has got: the member `mSession` it leaves. -/
def connect (mSession : Handle) : SessionM (Option Handle) := do
  let ret ← callOpen mSession
  if ret = 0 then
    let ret ← callSetCallBacks mSession suidSensor
    if ret ≠ 0 then
      callClose mSession
      callDelete mSession
      return none
    return some mSession
  else
    callDelete mSession
    return none

/-- The constructor. -/
def construct (hubID : ℤ) : SessionM (Option Handle) := do
  match ← if hubID = -1 then callGetSession (-1) else callGetSession hubID with
  | .error _ => return none
  | .ok none => return none
  | .ok (some mSession) => connect mSession

/-- The destructor. -/
def destruct (mSession : Option Handle) : SessionM Unit := do
  match mSession with
  | none => return ()
  | some h =>
    callClose h
    callDelete h

/-- `requestSuid` -/
def requestSuid (nb : NanopbEncoder) (mSession : Option Handle) (datatype : Bytes)
    (defaultOnly : Bool) : SessionM Unit := do
  match encodePayload nb datatype defaultOnly with
  | none => return ()
  | some payloadStream =>
    match encodeRequest nb suidSensor payloadStream with
    | none => return ()
    | some stream =>
      match mSession with
      | none => return ()
      | some h =>
        let _ ← callSendRequest h suidSensor stream.written
        return ()

/-- Requests for some data types, one after another. -/
def requestSuids (nb : NanopbEncoder) (mSession : Option Handle) :
    List (Bytes × Bool) → SessionM Unit
  | [] => return ()
  | request :: requests => do
    requestSuid nb mSession request.1 request.2
    requestSuids nb mSession requests

/-- An object from its constructor to its destructor. -/
def lifetime (nb : NanopbEncoder) (hubID : ℤ) (requests : List (Bytes × Bool)) :
    SessionM (Option Handle) := do
  let mSession ← construct hubID
  requestSuids nb mSession requests
  destruct mSession
  return mSession

/-- `lookUp` of `locate`, as far as sessions are concerned. -/
def Locate.lookUpSession (nb : NanopbEncoder) (l : Locate) (dataType : Bytes) (hubId : ℤ) :
    SessionM Unit := do
  if l.mLookupDone then return ()
  let mSession ← construct hubId
  requestSuid nb mSession dataType false
  callWait
  destruct mSession

/-! ### What they do -/

/-- The object has no session and has left none behind, or has one that is open and has callbacks,
and on which `sent` has been sent. -/
inductive HasSession (s : Sessions) (sent : List (Suid × Bytes)) : Option Handle → Sessions → Prop
  | none {t : Sessions} (h : Tidy s t) : HasSession s sent none t
  | some {h : Handle} {t : Sessions} (habsent : s.status h = .absent)
      (hother : ∀ h' ≠ h, t.status h' = s.status h') (hopened : t.status h = .opened)
      (hregistered : suidSensor ∈ t.registered h) (hsent : t.sent h = s.sent h ++ sent) :
      HasSession s sent (some h) t

/-- A session that is there no more. -/
theorem tidy_delete {s t : Sessions} {h : Handle} (habsent : s.status h = .absent)
    (hother : ∀ h' ≠ h, t.status h' = s.status h') : Tidy s (t.setStatus h (.deleted false)) := by
  intro h'
  rcases eq_or_ne h' h with rfl | hne
  · exact .inr ⟨habsent, Sessions.status_setStatus t _ _⟩
  · exact .inl ((Sessions.status_setStatus_of_ne hne _).trans (hother h' hne))

theorem wp_destruct {s t : Sessions} {sent : List (Suid × Bytes)} {mSession : Option Handle}
    (h : HasSession s sent mSession t) :
    sessionContract.wp (destruct mSession) (fun _ u ↦ Tidy s u ∧
      ∀ h, mSession = some h → u.sent h = s.sent h ++ sent) t := by
  cases h with
  | none htidy => exact Contract.wp_pure ⟨htidy, nofun⟩
  | @some h _ habsent hother hopened _ hsent =>
    refine wp_close hopened (Contract.wp_perform (f := fun r ↦ pure r) ⟨?_, ?_⟩ fun _ _ ↦ ⟨?_, ?_⟩)
    · rw [Sessions.status_setStatus]
      exact nofun
    · rw [Sessions.status_setStatus]
      exact nofun
    · show Tidy s (Sessions.setStatus _ h (.deleted (decide _)))
      rw [Sessions.status_setStatus]
      exact tidy_delete habsent fun h' hne ↦
        (Sessions.status_setStatus_of_ne hne _).trans (hother h' hne)
    · rintro _ ⟨⟩
      exact hsent

theorem wp_connect {s : Sessions} {h : Handle} (habsent : s.status h = .absent) :
    sessionContract.wp (connect h) (HasSession s []) (s.setStatus h .created) := by
  have hother : ∀ x y : Client.Status, ∀ h' ≠ h,
      ((s.setStatus h x).setStatus h y).status h' = s.status h' := fun x y h' hne ↦
    (Sessions.status_setStatus_of_ne hne y).trans (Sessions.status_setStatus_of_ne hne x)
  rw [connect]
  refine wp_open (Sessions.status_setStatus s h _) ?_ ?_
  · refine wp_setCallBacks (Sessions.status_setStatus _ h _) fun r hr ↦ ?_
    rcases hr with rfl | rfl
    · refine Contract.wp_pure (.some habsent (hother _ _)
        (Sessions.status_setStatus _ h _) ?_ (List.append_nil _).symm)
      rw [Sessions.registered_register]
      exact List.mem_cons_self
    · refine wp_close (Sessions.status_setStatus _ h _) (wp_delete ?_ ?_ ?_)
      · rw [Sessions.status_setStatus]
        exact nofun
      · rw [Sessions.status_setStatus]
        exact nofun
      · rw [Sessions.status_setStatus]
        exact Contract.wp_pure (.none (tidy_delete habsent fun h' hne ↦
          (Sessions.status_setStatus_of_ne hne _).trans (hother _ _ h' hne)))
  · refine wp_delete ?_ ?_ ?_
    · rw [Sessions.status_setStatus]
      exact nofun
    · rw [Sessions.status_setStatus]
      exact nofun
    · rw [Sessions.status_setStatus]
      exact Contract.wp_pure (.none (tidy_delete habsent (hother _ _)))

theorem wp_construct (hubID : ℤ) (s : Sessions) :
    sessionContract.wp (construct hubID) (HasSession s []) s := by
  rw [construct]
  split <;> exact wp_getSession (fun h habsent ↦ wp_connect habsent)
    (Contract.wp_pure (.none (.refl s))) fun _ ↦ Contract.wp_pure (.none (.refl s))

/-- A message of `requestSuid` is one of those of the example client, but for the technology, whose
flag is set. -/
theorem isRequestFor_requestMsgFields (suid : Suid) (payload : Bytes) :
    IsRequestFor suid (Wire.encode (requestMsgFields suid payload)) :=
  ⟨_, RequestMsg.decodeRequestMsg_encode { Client.suidRequestMsg suid payload with
    hasClientTech := true
    clientTech := SNS_TECH_SENSORS }, rfl⟩

/-- What a single request sends, on the model that has nothing but the requests. -/
def sentBy (nb : NanopbEncoder) (sent : List (Suid × Bytes)) (request : Bytes × Bool) :
    List (Suid × Bytes) :=
  (((SuidSession.opened sent).requestSuid nb request.1 request.2).mSession).getD []

section

variable {nb : NanopbEncoder} (hnb : nb.FollowsWireFormat)

include hnb in
theorem wp_requestSuid {s t : Sessions} {sent : List (Suid × Bytes)} {mSession : Option Handle}
    (h : HasSession s sent mSession t) (datatype : Bytes) (defaultOnly : Bool) :
    sessionContract.wp (requestSuid nb mSession datatype defaultOnly)
      (fun _ u ↦ HasSession s (sentBy nb sent (datatype, defaultOnly)) mSession u) t := by
  cases hpayload : encodePayload nb datatype defaultOnly with
  | none =>
    have hsame : sentBy nb sent (datatype, defaultOnly) = sent := by
      rw [sentBy, SuidSession.requestSuid, hpayload]
      rfl
    rw [requestSuid, hpayload, hsame]
    exact Contract.wp_pure h
  | some payloadStream =>
    obtain ⟨stream, hstream, hwritten⟩ := exists_encodeRequest hnb suidSensor hpayload
    have hsent : sentBy nb sent (datatype, defaultOnly) =
        sent ++ [(suidSensor, stream.written)] := by
      have hsend : encodeRequest nb (SuidSession.opened sent).mSensorUid payloadStream =
          some stream := hstream
      rw [sentBy, SuidSession.requestSuid, hpayload]
      dsimp only
      rw [hsend]
      rfl
    rw [requestSuid, hpayload, hsent]
    dsimp only
    rw [hstream]
    cases h with
    | none htidy => exact Contract.wp_pure (.none htidy)
    | @some h _ habsent hother hopened hregistered hsent =>
      have hmessage : IsRequestFor suidSensor stream.written := by
        rw [hwritten]
        exact isRequestFor_requestMsgFields suidSensor payloadStream.written
      have hafter : ∀ r, HasSession s (sent ++ [(suidSensor, stream.written)]) (some h)
          (t.send h suidSensor stream.written r) := fun r ↦
        .some habsent hother hopened hregistered (by
          rw [Sessions.sent_send, hsent, List.append_assoc])
      exact wp_sendRequest hopened hregistered hmessage (Contract.wp_pure (hafter 0))
        (Contract.wp_pure (hafter (-1)))

include hnb in
theorem wp_requestSuids {s t : Sessions} {sent : List (Suid × Bytes)} {mSession : Option Handle}
    (h : HasSession s sent mSession t) (requests : List (Bytes × Bool)) :
    sessionContract.wp (requestSuids nb mSession requests)
      (fun _ u ↦ HasSession s (requests.foldl (sentBy nb) sent) mSession u) t := by
  induction requests generalizing sent t with
  | nil => exact Contract.wp_pure h
  | cons request requests ih =>
    rw [requestSuids]
    exact Contract.wp_then (wp_requestSuid hnb h request.1 request.2) fun _ u hu ↦ ih hu

include hnb in
theorem wp_lifetime (hubID : ℤ) (requests : List (Bytes × Bool)) (s : Sessions) :
    sessionContract.wp (lifetime nb hubID requests) (fun mSession u ↦ Tidy s u ∧
      ∀ h, mSession = some h → u.sent h = s.sent h ++ requests.foldl (sentBy nb) []) s := by
  rw [lifetime]
  refine Contract.wp_then (wp_construct hubID s) fun mSession t ht ↦ ?_
  refine Contract.wp_then (wp_requestSuids hnb ht requests) fun _ u hu ↦ ?_
  exact Contract.wp_then (wp_destruct hu) fun _ v hv ↦ Contract.wp_pure hv

include hnb in
theorem wp_lookUpSession (l : Locate) (dataType : Bytes) (hubId : ℤ) (s : Sessions) :
    sessionContract.wp (l.lookUpSession nb dataType hubId) (fun _ u ↦ Tidy s u) s := by
  rw [Locate.lookUpSession]
  split
  · exact Contract.wp_pure (.refl s)
  · refine Contract.wp_then (wp_construct hubId s) fun mSession t ht ↦ ?_
    refine Contract.wp_then (wp_requestSuid hnb ht dataType false) fun _ u hu ↦ ?_
    exact wp_wait (Contract.wp_mono (fun _ _ hv ↦ hv.1) (wp_destruct hu))

end

/-- **The session of an object is used as its interface asks for**, from the constructor to the
destructor, however far this has got, whatever has been requested, and however the session and the
factory behave; in the end the session has been closed and deleted, and what has been sent on it is
what the requests ask for, in order. -/
theorem lifetime_keeps {nb : NanopbEncoder} (hnb : nb.FollowsWireFormat) (hubID : ℤ)
    (requests : List (Bytes × Bool)) {s : Sessions} {es : List (Interaction.Event Op Ans)}
    {q : SessionM (Option Handle)} (hsteps : Steps (lifetime nb hubID requests) es q)
    (hanswered : sessionContract.Answered s es) :
    sessionContract.Respected s es ∧
      (∀ op next, q = .call op next → sessionContract.allows (sessionContract.after s es) op) ∧
      ∀ mSession, q = .ret mSession → Tidy s (sessionContract.after s es) ∧
        ∀ h, mSession = some h → (sessionContract.after s es).sent h =
          s.sent h ++ requests.foldl (sentBy nb) [] := by
  obtain ⟨hrespected, hwp⟩ := Contract.wp_steps (wp_lifetime hnb hubID requests s) hsteps hanswered
  refine ⟨hrespected, ?_, ?_⟩
  · rintro op next rfl
    exact hwp.1
  · rintro mSession rfl
    exact hwp

/-- The message that asks for a data type. -/
def messageFor (request : Bytes × Bool) : Bytes :=
  Wire.encode (requestMsgFields suidSensor (Wire.encode (suidReqFields request.1 request.2)))

section

variable {nb : NanopbEncoder} (hnb : nb.FollowsWireFormat)

include hnb in
theorem exists_encode_messageFor (request : Bytes × Bool) (hlen : request.1.length ≤ 93) :
    ∃ payloadStream, encodePayload nb request.1 request.2 = some payloadStream ∧
      ∃ stream, encodeRequest nb suidSensor payloadStream = some stream ∧
        stream.written = messageFor request := by
  obtain ⟨hiff, hwritten⟩ := encodePayload_eq_some hnb request.1 request.2
  obtain ⟨payloadStream, hpayload⟩ := hiff.1 hlen
  obtain ⟨stream, hstream, hmessage⟩ := exists_encodeRequest hnb suidSensor hpayload
  rw [hwritten payloadStream hpayload] at hmessage
  exact ⟨payloadStream, hpayload, stream, hstream, hmessage⟩

include hnb in
/-- A request whose data type is too long is not sent. -/
theorem encodePayload_eq_none (request : Bytes × Bool) (hlen : 93 < request.1.length) :
    encodePayload nb request.1 request.2 = none := by
  rw [Option.eq_none_iff_forall_ne_some]
  intro payloadStream hpayload
  have hle := (encodePayload_eq_some hnb request.1 request.2).1.2 ⟨payloadStream, hpayload⟩
  omega

include hnb in
theorem requestSuid_eq_send (request : Bytes × Bool) (hlen : request.1.length ≤ 93) (h : Handle) :
    requestSuid nb (some h) request.1 request.2 = do
      let _ ← callSendRequest h suidSensor (messageFor request)
      return () := by
  obtain ⟨payloadStream, hpayload, stream, hstream, hmessage⟩ :=
    exists_encode_messageFor hnb request hlen
  rw [requestSuid, hpayload]
  dsimp only
  rw [hstream, ← hmessage]

include hnb in
theorem requestSuid_eq_pure (request : Bytes × Bool) (hlen : 93 < request.1.length)
    (mSession : Option Handle) : requestSuid nb mSession request.1 request.2 = return () := by
  rw [requestSuid, encodePayload_eq_none hnb request hlen]

include hnb in
/-- What the requests send is one message for each of them that is not too long. -/
theorem foldl_sentBy (requests : List (Bytes × Bool)) (sent : List (Suid × Bytes)) :
    requests.foldl (sentBy nb) sent = sent ++ (requests.filter fun request ↦
      decide (request.1.length ≤ 93)).map fun request ↦ (suidSensor, messageFor request) := by
  induction requests generalizing sent with
  | nil => exact (List.append_nil sent).symm
  | cons request requests ih =>
    rw [List.foldl_cons, ih]
    by_cases hlen : request.1.length ≤ 93
    · obtain ⟨payloadStream, hpayload, stream, hstream, hmessage⟩ :=
        exists_encode_messageFor hnb request hlen
      have hsend : encodeRequest nb (SuidSession.opened sent).mSensorUid payloadStream =
          some stream := hstream
      have hsent : sentBy nb sent request = sent ++ [(suidSensor, messageFor request)] := by
        rw [sentBy, SuidSession.requestSuid, hpayload]
        dsimp only
        rw [hsend, ← hmessage]
        rfl
      rw [List.filter_cons, if_pos (decide_eq_true hlen), List.map_cons, hsent, List.append_assoc,
        List.singleton_append]
    · have hsent : sentBy nb sent request = sent := by
        rw [sentBy, SuidSession.requestSuid,
          encodePayload_eq_none hnb request (Nat.lt_of_not_le hlen)]
        rfl
      rw [List.filter_cons, if_neg (mt of_decide_eq_true hlen), hsent]

end

/-- Two sensors are asked for, and a third whose data type is too long. -/
def threeRequests : List (Bytes × Bool) :=
  [(CLib.str "accel", false), (List.replicate 94 65, true), (CLib.str "gyro", true)]

/-- The second message is refused. -/
def twoMessages : List (Interaction.Event Op Ans) :=
  [⟨.getSession 3, .ok (some 0)⟩, ⟨.openSession 0, (0 : ℤ)⟩, ⟨.setCallBacks 0 suidSensor, (0 : ℤ)⟩,
    ⟨.sendRequest 0 suidSensor (messageFor (CLib.str "accel", false)), (0 : ℤ)⟩,
    ⟨.sendRequest 0 suidSensor (messageFor (CLib.str "gyro", true)), (-1 : ℤ)⟩,
    ⟨.closeSession 0, ()⟩, ⟨.deleteSession 0, ()⟩]

theorem requestSuids_threeRequests :
    requestSuids QshPb.protoEncoder (some 0) threeRequests = do
      let _ ← callSendRequest 0 suidSensor (messageFor (CLib.str "accel", false))
      let _ ← callSendRequest 0 suidSensor (messageFor (CLib.str "gyro", true))
      return () := by
  have hnb := QshPb.protoEncoder_followsWireFormat
  rw [threeRequests, requestSuids, requestSuids, requestSuids, requestSuids,
    requestSuid_eq_send hnb (CLib.str "accel", false) (by decide),
    requestSuid_eq_pure hnb (List.replicate 94 65, true) (by decide),
    requestSuid_eq_send hnb (CLib.str "gyro", true) (by decide)]
  rfl

theorem steps_twoMessages :
    Steps (lifetime QshPb.protoEncoder 3 threeRequests) twoMessages (.ret (some 0)) := by
  refine .call _ (.call _ (.call _ ?_))
  show Steps ((requestSuids QshPb.protoEncoder (some 0) threeRequests).bind fun _ ↦
    (destruct (some 0)).bind fun _ ↦ .ret (some 0)) _ _
  rw [requestSuids_threeRequests]
  exact .call _ (.call _ (.call _ (.call _ (.refl _))))

theorem lifetime_keeps_twoMessages :
    Steps (lifetime QshPb.protoEncoder 3 threeRequests) twoMessages (.ret (some 0)) ∧
      Tidy Client.noSessions (sessionContract.after Client.noSessions twoMessages) ∧
      (sessionContract.after Client.noSessions twoMessages).sent 0 =
        [(suidSensor, messageFor (CLib.str "accel", false)),
          (suidSensor, messageFor (CLib.str "gyro", true))] := by
  have hnb := QshPb.protoEncoder_followsWireFormat
  have hanswered : sessionContract.Answered Client.noSessions twoMessages :=
    ⟨fun _ ↦ Client.absent_of_answer rfl, .inl rfl, .inl rfl, .inl rfl, .inr rfl, trivial, trivial,
      trivial⟩
  obtain ⟨htidy, hsent⟩ :=
    (lifetime_keeps hnb 3 threeRequests steps_twoMessages hanswered).2.2 _ rfl
  refine ⟨steps_twoMessages, htidy, (hsent 0 rfl).trans ?_⟩
  rw [foldl_sentBy hnb]
  rfl

/-- The same for the object that `lookUp` of `locate` has. -/
theorem lookUpSession_keeps {nb : NanopbEncoder} (hnb : nb.FollowsWireFormat) (l : Locate)
    (dataType : Bytes) (hubId : ℤ) {s : Sessions} {es : List (Interaction.Event Op Ans)}
    {q : SessionM Unit}
    (hsteps : Steps (l.lookUpSession nb dataType hubId) es q)
    (hanswered : sessionContract.Answered s es) :
    sessionContract.Respected s es ∧ (q = .ret () → Tidy s (sessionContract.after s es)) := by
  obtain ⟨hrespected, hwp⟩ := Contract.wp_steps (wp_lookUpSession hnb l dataType hubId s) hsteps
    hanswered
  refine ⟨hrespected, ?_⟩
  rintro rfl
  exact hwp

end SensingHub.Discovery
