import SensingHub.Client.Session

/-!
# What the example client does with sessions

`main` looks up the sensors, asks each for its attributes and streams from all of them, each with a
session of its own. The first two sessions are held by a `unique_ptr` and are deleted on every path;
the third is a plain pointer, which is deleted at the very end only. A session that is open is
closed where a function returns true, and nowhere else.

So every call is one that the interface allows (`main_keeps`), but how the sessions are left depends
on the answers: `main_tidy` says when each of them has been closed and deleted.
-/

namespace SensingHub.Client

open Discovery (Suid suidSensor)
open Interaction (Event Steps Run)
open Op
open QshPb (NanopbWriter)

/-! ### The functions -/

/-- `factory->getSession()`. An exception is not caught. -/
def getSession : SessionM (Option Handle) := do
  match ← callGetSession (-1) with
  | .ok session => return session
  | .error _ =>
    let r ← callTerminate
    return r.elim

/-- The scope of a `unique_ptr` that holds a session. -/
def withSession (h : Handle) (body : SessionM Bool) : SessionM Bool := do
  let r ← body
  callDelete h
  return r

/-- `getSuid`, with its session. Where a message cannot be encoded it returns 1, which is true. -/
def lookUpSuids (nb : NanopbWriter) (h : Handle) : SessionM Bool := do
  let ret ← callOpen h
  if ret = -1 then return false
  let _ ← callSetCallBacks h suidSensor
  match encodeSuidReq nb with
  | none => return true
  | some payloadStream =>
    match encodeRequestMsg nb 256 (suidRequestMsg suidSensor payloadStream.written) with
    | none => return true
    | some stream =>
      let ret ← callSendRequest h suidSensor stream.written
      if ret ≠ 0 then return false
      callWait
      callClose h
      return true

/-- `getSuid` -/
def getSuid (nb : NanopbWriter) : SessionM Bool := do
  match ← getSession with
  | none => return false
  | some h => withSession h (lookUpSuids nb h)

/-- The loop of `getAttributes`. -/
def requestAttributes (nb : NanopbWriter) (h : Handle) : List Suid → SessionM Bool
  | [] => return true
  | uid :: suidList => do
    let _ ← callSetCallBacks h uid
    match encodeRequestMsg nb 256 (attrRequestMsg uid) with
    | none => return false
    | some stream =>
      let ret ← callSendRequest h uid stream.written
      if ret ≠ 0 then return false
      requestAttributes nb h suidList

/-- `getAttributes`, with its session. -/
def fetchAttributes (nb : NanopbWriter) (suidList : List Suid) (h : Handle) : SessionM Bool := do
  let ret ← callOpen h
  if ret = -1 then return false
  if !(← requestAttributes nb h suidList) then return false
  callWait
  callClose h
  return true

/-- `getAttributes` -/
def getAttributes (nb : NanopbWriter) (suidList : List Suid) : SessionM Bool := do
  match ← getSession with
  | none => return false
  | some h => withSession h (fetchAttributes nb suidList h)

/-- `startStreaming` -/
def startStreaming (nb : NanopbWriter) (h : Handle) : List Suid → SessionM Bool
  | [] => return true
  | uid :: suidList => do
    let _ ← callSetCallBacks h uid
    match encodeSensorConfig nb with
    | none => startStreaming nb h suidList
    | some subStream =>
      match encodeRequestMsg nb 100 (configRequestMsg uid subStream.written) with
      | none => return false
      | some stream =>
        let ret ← callSendRequest h uid stream.written
        if ret ≠ 0 then return false
        startStreaming nb h suidList

/-- `stopStreaming` -/
def stopStreaming (nb : NanopbWriter) (h : Handle) : List Suid → SessionM Bool
  | [] => return true
  | uid :: suidList => do
    match encodeRequestMsg nb 256 (disableRequestMsg uid) with
    | none => return false
    | some stream =>
      let ret ← callSendRequest h uid stream.written
      if ret ≠ 0 then return false
      stopStreaming nb h suidList

/-- `getSensorData`, with its session, which a plain pointer points to. -/
def stream (nb : NanopbWriter) (suidList : List Suid) (h : Handle) : SessionM Bool := do
  let ret ← callOpen h
  if ret = -1 then return false
  if !(← startStreaming nb h suidList) then return false
  callSleep
  if !(← stopStreaming nb h suidList) then return false
  callClose h
  callDelete h
  return true

/-- `getSensorData` -/
def getSensorData (nb : NanopbWriter) (suidList : List Suid) : SessionM Bool := do
  match ← getSession with
  | none => return false
  | some h => stream nb suidList h

/-- `main`. The `suidList` is what the callback of the first session leaves, which has been closed
when the list is read. -/
def main (nb : NanopbWriter) (suidList : List Suid) : SessionM ℤ := do
  if !(← getSuid nb) then return -1
  if !(← getAttributes nb suidList) then return -1
  if !(← getSensorData nb suidList) then return -1
  return 0

/-! ### Requests on an open session -/

/-- Some requests have been made on the session `h`, which is open, for sensors with callbacks; one
has been refused, unless `ok`. -/
structure Asked (h : Handle) (s : Sessions) (ok : Bool) (t : Sessions) : Prop where
  other : ∀ h' ≠ h, t.status h' = s.status h'
  opened : t.status h = .opened
  registered : ∀ uid ∈ s.registered h, uid ∈ t.registered h
  refused : t.refused = (s.refused || !ok)

theorem Asked.refl {h : Handle} {s : Sessions} (hopened : s.status h = .opened) :
    Asked h s true s where
  other _ _ := rfl
  opened := hopened
  registered _ huid := huid
  refused := (Bool.or_false _).symm

theorem Asked.trans {h : Handle} {s t u : Sessions} {ok : Bool} (hst : Asked h s true t)
    (htu : Asked h t ok u) : Asked h s ok u where
  other h' hne := (htu.other h' hne).trans (hst.other h' hne)
  opened := htu.opened
  registered uid huid := htu.registered uid (hst.registered uid huid)
  refused := by
    have hsame : t.refused = s.refused := hst.refused.trans (Bool.or_false _)
    rw [htu.refused, hsame]

theorem Asked.register {h : Handle} {s : Sessions} (hopened : s.status h = .opened) (uid : Suid) :
    Asked h s true (s.register h uid) where
  other _ _ := rfl
  opened := hopened
  registered u hu := by
    rw [Sessions.registered_register]
    exact List.mem_cons_of_mem uid hu
  refused := (Bool.or_false _).symm

theorem Asked.send {h : Handle} {s : Sessions} (hopened : s.status h = .opened) (uid : Suid)
    (message : Bytes) : Asked h s true (s.send h uid message 0) where
  other _ _ := rfl
  opened := hopened
  registered _ huid := huid
  refused := rfl

theorem Asked.refuse {h : Handle} {s : Sessions} (hopened : s.status h = .opened) (uid : Suid)
    (message : Bytes) : Asked h s false (s.send h uid message (-1)) where
  other _ _ := rfl
  opened := hopened
  registered _ huid := huid
  refused := rfl

section

variable {nb : NanopbWriter} (hnb : nb.FollowsWireFormat)

include hnb in
theorem wp_requestAttributes {h : Handle} (suidList : List Suid) {s : Sessions}
    (hopened : s.status h = .opened) :
    sessionContract.wp (requestAttributes nb h suidList) (Asked h s) s := by
  induction suidList generalizing s with
  | nil => exact Contract.wp_pure (.refl hopened)
  | cons uid suidList ih =>
    obtain ⟨out, hout, hdecode⟩ := exists_encode_attrRequestMsg hnb uid
    have hregister := Asked.register hopened uid
    rw [requestAttributes]
    refine wp_setCallBacks hopened fun r hr ↦ ?_
    rw [hout]
    refine wp_sendRequest hopened ?_ ⟨_, hdecode, rfl⟩ ?_ ?_
    · rw [Sessions.registered_register]
      exact List.mem_cons_self
    · have hsend := hregister.trans (.send hregister.opened uid out.written)
      exact Contract.wp_mono (fun ok t ht ↦ hsend.trans ht) (ih hsend.opened)
    · exact Contract.wp_pure (hregister.trans (.refuse hregister.opened _ _))

include hnb in
theorem wp_startStreaming {h : Handle} (suidList : List Suid) {s : Sessions}
    (hopened : s.status h = .opened) :
    sessionContract.wp (startStreaming nb h suidList) (fun ok t ↦ Asked h s ok t ∧
      (ok = true → ∀ uid ∈ suidList, uid ∈ t.registered h)) s := by
  induction suidList generalizing s with
  | nil => exact Contract.wp_pure ⟨.refl hopened, fun _ _ huid ↦ (List.not_mem_nil huid).elim⟩
  | cons uid suidList ih =>
    obtain ⟨sub, hsub, hlen, -⟩ := exists_encodeSensorConfig hnb
    obtain ⟨out, hout, hdecode⟩ := exists_encode_configRequestMsg hnb uid hlen
    have hregister := Asked.register hopened uid
    have hmem : uid ∈ (s.register h uid).registered h := by
      rw [Sessions.registered_register]
      exact List.mem_cons_self
    rw [startStreaming]
    refine wp_setCallBacks hopened fun r hr ↦ ?_
    rw [hsub]
    dsimp only
    rw [hout]
    refine wp_sendRequest hopened hmem ⟨_, hdecode, rfl⟩ ?_ ?_
    · have hsend := hregister.trans (.send hregister.opened uid out.written)
      refine Contract.wp_mono ?_ (ih hsend.opened)
      rintro ok t ⟨ht, hregistered⟩
      exact ⟨hsend.trans ht, fun hok ↦
        List.forall_mem_cons.2 ⟨ht.registered uid hmem, hregistered hok⟩⟩
    · exact Contract.wp_pure ⟨hregister.trans (.refuse hregister.opened _ _), nofun⟩

include hnb in
theorem wp_stopStreaming {h : Handle} (suidList : List Suid) {s : Sessions}
    (hopened : s.status h = .opened) (hregistered : ∀ uid ∈ suidList, uid ∈ s.registered h) :
    sessionContract.wp (stopStreaming nb h suidList) (Asked h s) s := by
  induction suidList generalizing s with
  | nil => exact Contract.wp_pure (.refl hopened)
  | cons uid suidList ih =>
    obtain ⟨out, hout, hdecode⟩ := exists_encode_disableRequestMsg hnb uid
    obtain ⟨huid, hrest⟩ := List.forall_mem_cons.1 hregistered
    have hsend := Asked.send hopened uid out.written
    rw [stopStreaming, hout]
    refine wp_sendRequest hopened huid ⟨_, hdecode, rfl⟩ ?_ (Contract.wp_pure (.refuse hopened _ _))
    exact Contract.wp_mono (fun ok t ht ↦ hsend.trans ht) (ih hsend.opened hrest)

end

/-! ### One session -/

/-- What has become of the session `h`, which had been created: it has been opened and closed, it
could not be opened, or it is still open, a request having been refused. -/
inductive Used (h : Handle) (s : Sessions) : Bool → Sessions → Prop
  | closed {t : Sessions} (hother : ∀ h' ≠ h, t.status h' = s.status h')
      (hstatus : t.status h = .closed) (hrefused : t.refused = s.refused) : Used h s true t
  | failed {t : Sessions} (hother : ∀ h' ≠ h, t.status h' = s.status h')
      (hstatus : t.status h = .failed) (hrefused : t.refused = s.refused) : Used h s false t
  | refused {t : Sessions} (hother : ∀ h' ≠ h, t.status h' = s.status h')
      (hstatus : t.status h = .opened) (hrefused : t.refused = true) : Used h s false t

/-- A session that could not be opened. -/
theorem Used.of_failed (h : Handle) (s : Sessions) : Used h s false (s.setStatus h .failed) :=
  .failed (fun _ hne ↦ Sessions.status_setStatus_of_ne hne _) (Sessions.status_setStatus s h _) rfl

/-- A session that was opened and used, when a request has been refused. -/
theorem Used.of_asked_false {h : Handle} {s t : Sessions}
    (hasked : Asked h (s.setStatus h .opened) false t) : Used h s false t :=
  .refused (fun h' hne ↦ (hasked.other h' hne).trans (Sessions.status_setStatus_of_ne hne _))
    hasked.opened (hasked.refused.trans (Bool.or_true _))

/-- A session that was opened, used and closed. -/
theorem Used.of_asked_true {h : Handle} {s t : Sessions}
    (hasked : Asked h (s.setStatus h .opened) true t) : Used h s true (t.setStatus h .closed) :=
  .closed (fun h' hne ↦ (Sessions.status_setStatus_of_ne hne _).trans
      ((hasked.other h' hne).trans (Sessions.status_setStatus_of_ne hne _)))
    (Sessions.status_setStatus t h _) (hasked.refused.trans (Bool.or_false _))

section

variable {nb : NanopbWriter} (hnb : nb.FollowsWireFormat) {h : Handle} {s : Sessions}
  (hcreated : s.status h = .created)

include hnb hcreated in
theorem wp_lookUpSuids : sessionContract.wp (lookUpSuids nb h) (Used h s) s := by
  obtain ⟨payload, hpayload, hlen, -⟩ := exists_encodeSuidReq hnb
  obtain ⟨out, hout, hdecode⟩ := exists_encode_suidRequestMsg hnb suidSensor hlen
  rw [lookUpSuids]
  refine wp_open hcreated ?_ (Contract.wp_pure (.of_failed h s))
  have hregister := Asked.register (Sessions.status_setStatus s h .opened) suidSensor
  refine wp_setCallBacks (Sessions.status_setStatus s h .opened) fun r hr ↦ ?_
  rw [hpayload]
  dsimp only
  rw [hout]
  refine wp_sendRequest hregister.opened ?_ ⟨_, hdecode, rfl⟩ ?_ ?_
  · rw [Sessions.registered_register]
    exact List.mem_cons_self
  · have hsend := hregister.trans (.send hregister.opened suidSensor out.written)
    exact wp_wait (wp_close hsend.opened (Contract.wp_pure (.of_asked_true hsend)))
  · exact Contract.wp_pure (.of_asked_false (hregister.trans (.refuse hregister.opened _ _)))

include hnb hcreated in
theorem wp_fetchAttributes (suidList : List Suid) :
    sessionContract.wp (fetchAttributes nb suidList h) (Used h s) s := by
  rw [fetchAttributes]
  refine wp_open hcreated ?_ (Contract.wp_pure (.of_failed h s))
  refine Contract.wp_then (wp_requestAttributes hnb suidList (Sessions.status_setStatus s h _)) ?_
  intro ok t ht
  cases ok with
  | true => exact wp_wait (wp_close ht.opened (Contract.wp_pure (.of_asked_true ht)))
  | false => exact Contract.wp_pure (.of_asked_false ht)

end

/-! ### How sessions are left -/

/-- How a function that uses one session, which there has not been before, leaves the sessions. -/
inductive Leaves (s : Sessions) : Bool → Sessions → Prop
  /-- It has got no session. -/
  | none {t : Sessions} (hstatus : t.status = s.status) (hrefused : t.refused = s.refused) :
      Leaves s false t
  /-- The session has been deleted, and was not open any more. -/
  | deleted {ok : Bool} {t : Sessions} {h : Handle} (habsent : s.status h = .absent)
      (hother : ∀ h' ≠ h, t.status h' = s.status h') (hstatus : t.status h = .deleted false)
      (hrefused : t.refused = s.refused) : Leaves s ok t
  /-- The session could not be opened, and is not deleted. -/
  | failed {t : Sessions} {h : Handle} (habsent : s.status h = .absent)
      (hother : ∀ h' ≠ h, t.status h' = s.status h') (hstatus : t.status h = .failed)
      (hrefused : t.refused = s.refused) : Leaves s false t
  /-- A request has been refused: the session has never been closed. -/
  | refused {t : Sessions} {h : Handle} (habsent : s.status h = .absent)
      (hother : ∀ h' ≠ h, t.status h' = s.status h')
      (hstatus : t.status h = .opened ∨ t.status h = .deleted true) (hrefused : t.refused = true) :
      Leaves s false t

theorem wp_factory {f : Handle → SessionM Bool} {s : Sessions}
    (hf : ∀ h, s.status h = .absent →
      sessionContract.wp (f h) (Leaves s) (s.setStatus h .created)) :
    sessionContract.wp (do
      match ← getSession with
      | none => return false
      | some h => f h) (Leaves s) s := by
  refine Contract.wp_bind.2 (wp_getSession (fun h habsent ↦ ?_) ?_ fun _ ↦ wp_terminate)
  · exact hf h habsent
  · exact Contract.wp_pure (.none rfl rfl)

/-- A session that a `unique_ptr` holds. -/
theorem wp_withSession {h : Handle} {body : SessionM Bool} {s : Sessions}
    (habsent : s.status h = .absent)
    (hbody : sessionContract.wp body (Used h (s.setStatus h .created)) (s.setStatus h .created)) :
    sessionContract.wp (withSession h body) (Leaves s) (s.setStatus h .created) := by
  refine Contract.wp_then hbody fun ok t ht ↦ ?_
  have hother : ∀ x, (∀ h' ≠ h, t.status h' = (s.setStatus h .created).status h') →
      ∀ h' ≠ h, (t.setStatus h x).status h' = s.status h' := fun x hsame h' hne ↦
    (Sessions.status_setStatus_of_ne hne x).trans
      ((hsame h' hne).trans (Sessions.status_setStatus_of_ne hne _))
  rcases ht with ⟨hsame, hstatus, hrefused⟩ | ⟨hsame, hstatus, hrefused⟩ |
    ⟨hsame, hstatus, hrefused⟩
  · refine wp_delete (by rw [hstatus]; exact nofun) (by rw [hstatus]; exact nofun) ?_
    rw [hstatus]
    exact Contract.wp_pure
      (.deleted habsent (hother _ hsame) (Sessions.status_setStatus t h _) hrefused)
  · refine wp_delete (by rw [hstatus]; exact nofun) (by rw [hstatus]; exact nofun) ?_
    rw [hstatus]
    exact Contract.wp_pure
      (.deleted habsent (hother _ hsame) (Sessions.status_setStatus t h _) hrefused)
  · refine wp_delete (by rw [hstatus]; exact nofun) (by rw [hstatus]; exact nofun) ?_
    rw [hstatus]
    exact Contract.wp_pure
      (.refused habsent (hother _ hsame) (.inr (Sessions.status_setStatus t h _)) hrefused)

section

variable {nb : NanopbWriter} (hnb : nb.FollowsWireFormat)

include hnb in
theorem wp_getSuid (s : Sessions) : sessionContract.wp (getSuid nb) (Leaves s) s :=
  wp_factory fun h habsent ↦
    wp_withSession habsent (wp_lookUpSuids hnb (Sessions.status_setStatus s h .created))

include hnb in
theorem wp_getAttributes (suidList : List Suid) (s : Sessions) :
    sessionContract.wp (getAttributes nb suidList) (Leaves s) s :=
  wp_factory fun h habsent ↦ wp_withSession habsent
    (wp_fetchAttributes hnb (Sessions.status_setStatus s h .created) suidList)

include hnb in
theorem wp_stream {h : Handle} {s : Sessions} (habsent : s.status h = .absent)
    (suidList : List Suid) :
    sessionContract.wp (stream nb suidList h) (Leaves s) (s.setStatus h .created) := by
  have hother : ∀ x y : Status, ∀ h' ≠ h,
      ((s.setStatus h x).setStatus h y).status h' = s.status h' := fun x y h' hne ↦
    (Sessions.status_setStatus_of_ne hne y).trans (Sessions.status_setStatus_of_ne hne x)
  rw [stream]
  refine wp_open (Sessions.status_setStatus s h _) ?_ (Contract.wp_pure
    (.failed habsent (hother _ _) (Sessions.status_setStatus _ h _) rfl))
  refine Contract.wp_then (wp_startStreaming hnb suidList (Sessions.status_setStatus _ h _)) ?_
  rintro ok t ⟨ht, hregistered⟩
  cases ok with
  | false =>
    exact Contract.wp_pure (.refused habsent
      (fun h' hne ↦ (ht.other h' hne).trans (hother _ _ h' hne)) (.inl ht.opened)
      (ht.refused.trans (Bool.or_true _)))
  | true =>
    refine wp_sleep (Contract.wp_then (wp_stopStreaming hnb suidList ht.opened
      (hregistered rfl)) fun ok u hu ↦ ?_)
    have hasked := ht.trans hu
    cases ok with
    | false =>
      exact Contract.wp_pure (.refused habsent
        (fun h' hne ↦ (hasked.other h' hne).trans (hother _ _ h' hne)) (.inl hasked.opened)
        (hasked.refused.trans (Bool.or_true _)))
    | true =>
      refine wp_close hasked.opened (wp_delete ?_ ?_ ?_)
      · rw [Sessions.status_setStatus]
        exact nofun
      · rw [Sessions.status_setStatus]
        exact nofun
      · rw [Sessions.status_setStatus]
        refine Contract.wp_pure (.deleted habsent (fun h' hne ↦ ?_)
          (Sessions.status_setStatus _ h _) (hasked.refused.trans (Bool.or_false _)))
        exact (Sessions.status_setStatus_of_ne hne _).trans
          ((Sessions.status_setStatus_of_ne hne _).trans
            ((hasked.other h' hne).trans (hother _ _ h' hne)))

include hnb in
theorem wp_getSensorData (suidList : List Suid) (s : Sessions) :
    sessionContract.wp (getSensorData nb suidList) (Leaves s) s :=
  wp_factory fun _ habsent ↦ wp_stream hnb habsent suidList

end

/-! ### The whole program -/

/-- Every session that there has not been before has been closed, or could not be opened, and has
been deleted then. -/
def Tidy (s t : Sessions) : Prop :=
  ∀ h, t.status h = s.status h ∨ s.status h = .absent ∧ t.status h = .deleted false

theorem Tidy.refl (s : Sessions) : Tidy s s :=
  fun _ ↦ .inl rfl

theorem Tidy.absent {s t : Sessions} (hst : Tidy s t) {h : Handle}
    (habsent : t.status h = .absent) : s.status h = .absent := by
  rcases hst h with heq | ⟨hs, -⟩
  · exact heq.symm.trans habsent
  · exact hs

theorem Tidy.trans {s t u : Sessions} (hst : Tidy s t) (htu : Tidy t u) : Tidy s u := by
  intro h
  rcases htu h with heq | ⟨habsent, hdeleted⟩
  · rw [heq]
    exact hst h
  · exact .inr ⟨hst.absent habsent, hdeleted⟩

/-- What a function leaves is tidy exactly if no request has been refused and no session is there
that could not be opened. -/
theorem Leaves.tidy_iff {s t u : Sessions} {ok : Bool} (hst : Tidy s t)
    (hrefused : t.refused = false) (h : Leaves t ok u) :
    Tidy s u ↔ u.refused = false ∧ ∀ h, u.status h = .failed → s.status h = .failed := by
  have hkeep : Tidy t u → u.refused = false → (Tidy s u ↔ u.refused = false ∧
      ∀ h, u.status h = .failed → s.status h = .failed) := by
    intro htu hu
    have htidy := hst.trans htu
    refine iff_of_true htidy ⟨hu, fun h hfailed ↦ ?_⟩
    rcases htidy h with heq | ⟨-, hdeleted⟩
    · exact heq.symm.trans hfailed
    · cases hfailed.symm.trans hdeleted
  cases h with
  | none hstatus hsame =>
    exact hkeep (fun h ↦ .inl (congrFun hstatus h)) (hsame.trans hrefused)
  | @deleted _ _ h habsent hother hstatus hsame =>
    refine hkeep (fun h' ↦ ?_) (hsame.trans hrefused)
    rcases eq_or_ne h' h with rfl | hne
    · exact .inr ⟨habsent, hstatus⟩
    · exact .inl (hother h' hne)
  | @failed _ h habsent _ hstatus _ =>
    have hs := hst.absent habsent
    refine iff_of_false (fun htidy ↦ ?_) fun hall ↦ ?_
    · rcases htidy h with heq | ⟨-, hdeleted⟩
      · cases hs.symm.trans (heq.symm.trans hstatus)
      · cases hstatus.symm.trans hdeleted
    · cases hs.symm.trans (hall.2 h hstatus)
  | @refused _ h habsent _ hstatus hrefused' =>
    have hs := hst.absent habsent
    refine iff_of_false (fun htidy ↦ ?_) fun hall ↦ ?_
    · rcases htidy h with heq | ⟨-, hdeleted⟩
      · rw [heq, hs] at hstatus
        rcases hstatus with hstatus | hstatus <;> cases hstatus
      · rw [hdeleted] at hstatus
        rcases hstatus with hstatus | hstatus <;> cases hstatus
    · cases hrefused'.symm.trans hall.1

theorem Leaves.of_true {t u : Sessions} (h : Leaves t true u) :
    Tidy t u ∧ u.refused = t.refused := by
  cases h with
  | @deleted _ _ h habsent hother hstatus hsame =>
    refine ⟨fun h' ↦ ?_, hsame⟩
    rcases eq_or_ne h' h with rfl | hne
    · exact .inr ⟨habsent, hstatus⟩
    · exact .inl (hother h' hne)

/-- What `main` leaves. -/
structure MainLeaves (s : Sessions) (r : ℤ) (t : Sessions) : Prop where
  result : r = 0 ∨ r = -1
  success : r = 0 → Tidy s t ∧ t.refused = s.refused
  tidy_iff : s.refused = false →
    (Tidy s t ↔ t.refused = false ∧ ∀ h, t.status h = .failed → s.status h = .failed)

/-- A function that has returned false ends `main`. -/
theorem MainLeaves.of_false {s t u : Sessions} (hst : Tidy s t) (hsame : t.refused = s.refused)
    (h : Leaves t false u) : MainLeaves s (-1) u where
  result := .inr rfl
  success := nofun
  tidy_iff hrefused := h.tidy_iff hst (hsame.trans hrefused)

theorem wp_main {nb : NanopbWriter} (hnb : nb.FollowsWireFormat) (suidList : List Suid)
    (s : Sessions) : sessionContract.wp (main nb suidList) (MainLeaves s) s := by
  rw [main]
  refine Contract.wp_then (wp_getSuid hnb s) fun ok t ht ↦ ?_
  cases ok with
  | false => exact Contract.wp_pure (.of_false (.refl s) rfl ht)
  | true =>
    obtain ⟨htidy, hrefused⟩ := ht.of_true
    refine Contract.wp_then (wp_getAttributes hnb suidList t) fun ok u hu ↦ ?_
    cases ok with
    | false => exact Contract.wp_pure (.of_false htidy hrefused hu)
    | true =>
      obtain ⟨htidy', hrefused'⟩ := hu.of_true
      refine Contract.wp_then (wp_getSensorData hnb suidList u) fun ok v hv ↦ ?_
      cases ok with
      | false =>
        exact Contract.wp_pure (.of_false (htidy.trans htidy') (hrefused'.trans hrefused) hv)
      | true =>
        obtain ⟨htidy'', hrefused''⟩ := hv.of_true
        have hall := htidy.trans (htidy'.trans htidy'')
        have hsame := hrefused''.trans (hrefused'.trans hrefused)
        exact Contract.wp_pure ⟨.inl rfl, fun _ ↦ ⟨hall, hsame⟩, fun h ↦
          hv.tidy_iff (htidy.trans htidy') (hrefused'.trans (hrefused.trans h))⟩

/-- There is no session yet. -/
def noSessions : Sessions :=
  ⟨fun _ ↦ .absent, fun _ ↦ [], fun _ ↦ [], false⟩

/-- A run for one sensor, with the requests that it sends. -/
def wholeRun (uid : Suid) (lookUp attributes config disable : Bytes) : List (Event Op Ans) :=
  [⟨.getSession (-1), .ok (some 0)⟩, ⟨.openSession 0, (0 : ℤ)⟩,
    ⟨.setCallBacks 0 suidSensor, (0 : ℤ)⟩, ⟨.sendRequest 0 suidSensor lookUp, (0 : ℤ)⟩,
    ⟨.wait, ()⟩, ⟨.closeSession 0, ()⟩, ⟨.deleteSession 0, ()⟩,
    ⟨.getSession (-1), .ok (some 1)⟩, ⟨.openSession 1, (0 : ℤ)⟩,
    ⟨.setCallBacks 1 uid, (0 : ℤ)⟩, ⟨.sendRequest 1 uid attributes, (0 : ℤ)⟩,
    ⟨.wait, ()⟩, ⟨.closeSession 1, ()⟩, ⟨.deleteSession 1, ()⟩,
    ⟨.getSession (-1), .ok (some 2)⟩, ⟨.openSession 2, (0 : ℤ)⟩,
    ⟨.setCallBacks 2 uid, (0 : ℤ)⟩, ⟨.sendRequest 2 uid config, (0 : ℤ)⟩, ⟨.sleep, ()⟩,
    ⟨.sendRequest 2 uid disable, (0 : ℤ)⟩, ⟨.closeSession 2, ()⟩, ⟨.deleteSession 2, ()⟩]

/-- A run that ends as soon as the first request has been refused. -/
def refusedRun (lookUp : Bytes) : List (Event Op Ans) :=
  [⟨.getSession (-1), .ok (some 0)⟩, ⟨.openSession 0, (0 : ℤ)⟩,
    ⟨.setCallBacks 0 suidSensor, (0 : ℤ)⟩, ⟨.sendRequest 0 suidSensor lookUp, (-1 : ℤ)⟩,
    ⟨.deleteSession 0, ()⟩]

theorem absent_of_answer {h h' : Handle} {t : Sessions} (ht : t.status h = .absent)
    (hanswer : Except.ok (ε := Unit) (some h) = .ok (some h')) : t.status h' = .absent := by
  obtain rfl : h = h' := Option.some.inj (Except.ok.inj hanswer)
  exact ht

theorem answered_wholeRun (uid : Suid) (lookUp attributes config disable : Bytes) :
    sessionContract.Answered noSessions (wholeRun uid lookUp attributes config disable) :=
  ⟨fun _ ↦ absent_of_answer rfl, .inl rfl, .inl rfl, .inl rfl, trivial, trivial, trivial,
    fun _ ↦ absent_of_answer rfl, .inl rfl, .inl rfl, .inl rfl, trivial, trivial, trivial,
    fun _ ↦ absent_of_answer rfl, .inl rfl, .inl rfl, .inl rfl, trivial, .inl rfl, trivial, trivial,
    trivial⟩

theorem answered_refusedRun (lookUp : Bytes) :
    sessionContract.Answered noSessions (refusedRun lookUp) :=
  ⟨fun _ ↦ absent_of_answer rfl, .inl rfl, .inl rfl, .inr rfl, trivial, trivial⟩

theorem exists_run_wholeRun {nb : NanopbWriter} (hnb : nb.FollowsWireFormat) (uid : Suid) :
    ∃ lookUp attributes config disable,
      Run (main nb [uid]) (wholeRun uid lookUp attributes config disable) 0 := by
  obtain ⟨payload, hpayload, hlen, -⟩ := exists_encodeSuidReq hnb
  obtain ⟨lookUp, hlookUp, -⟩ := exists_encode_suidRequestMsg hnb suidSensor hlen
  obtain ⟨attributes, hattributes, -⟩ := exists_encode_attrRequestMsg hnb uid
  obtain ⟨sub, hsub, hsublen, -⟩ := exists_encodeSensorConfig hnb
  obtain ⟨config, hconfig, -⟩ := exists_encode_configRequestMsg hnb uid hsublen
  obtain ⟨disable, hdisable, -⟩ := exists_encode_disableRequestMsg hnb uid
  refine ⟨lookUp.written, attributes.written, config.written, disable.written,
    .call _ (.call _ (.call _ ?_))⟩
  dsimp only
  rw [hpayload]
  dsimp only
  rw [hlookUp]
  refine .call _ (.call _ (.call _ (.call _ (.call _ (.call _ (.call _ ?_))))))
  dsimp only
  rw [hattributes]
  refine .call _ (.call _ (.call _ (.call _ (.call _ (.call _ (.call _ ?_))))))
  dsimp only
  rw [hsub]
  dsimp only
  rw [hconfig]
  refine .call _ (.call _ ?_)
  rw [stopStreaming, hdisable]
  exact .call _ (.call _ (.call _ (.refl _)))

theorem run_refusedRun {nb : NanopbWriter} {payload lookUp : Output}
    (hpayload : encodeSuidReq nb = some payload)
    (hlookUp : encodeRequestMsg nb 256 (suidRequestMsg suidSensor payload.written) = some lookUp)
    (suidList : List Suid) : Run (main nb suidList) (refusedRun lookUp.written) (-1) := by
  refine .call _ (.call _ (.call _ ?_))
  dsimp only
  rw [hpayload]
  dsimp only
  rw [hlookUp]
  exact .call _ (.call _ (.refl _))

/-- **Every call is allowed where it is made**, however far the program has got: sessions are opened
once, callbacks are set and requests sent on open sessions only, and a request is for a sensor whose
callbacks have been set. -/
theorem main_keeps {nb : NanopbWriter} (hnb : nb.FollowsWireFormat) (suidList : List Suid)
    {s : Sessions} {es : List (Event Op Ans)} {q : SessionM ℤ}
    (hsteps : Steps (main nb suidList) es q) (hanswered : sessionContract.Answered s es) :
    sessionContract.Respected s es ∧
      ∀ op next, q = .call op next → sessionContract.allows (sessionContract.after s es) op := by
  obtain ⟨hrespected, hwp⟩ := Contract.wp_steps (wp_main hnb suidList s) hsteps hanswered
  refine ⟨hrespected, ?_⟩
  rintro op next rfl
  exact hwp.1

theorem main_keeps_wholeRun :
    ∃ lookUp attributes config disable,
      Run (main QshPb.protoWriter [⟨1, 2⟩]) (wholeRun ⟨1, 2⟩ lookUp attributes config disable) 0 ∧
      sessionContract.Respected noSessions
        (wholeRun ⟨1, 2⟩ lookUp attributes config disable) := by
  have hnb := QshPb.protoWriter_followsWireFormat
  obtain ⟨lookUp, attributes, config, disable, hrun⟩ := exists_run_wholeRun hnb ⟨1, 2⟩
  exact ⟨lookUp, attributes, config, disable, hrun,
    (main_keeps hnb [⟨1, 2⟩] hrun (answered_wholeRun _ _ _ _ _)).1⟩

/-- **How the sessions are left**: if `main` returns 0 all of them have been closed and deleted, and
else exactly if no request has been refused and the last session could be opened. -/
theorem main_tidy {nb : NanopbWriter} (hnb : nb.FollowsWireFormat) (suidList : List Suid)
    {s : Sessions} (hs : s.refused = false) {es : List (Event Op Ans)} {r : ℤ}
    (hrun : Run (main nb suidList) es r) (hanswered : sessionContract.Answered s es) :
    (r = 0 ∨ r = -1) ∧ (r = 0 → Tidy s (sessionContract.after s es)) ∧
      (Tidy s (sessionContract.after s es) ↔ (sessionContract.after s es).refused = false ∧
        ∀ h, (sessionContract.after s es).status h = .failed → s.status h = .failed) := by
  obtain ⟨-, hleaves⟩ := Contract.wp_run (wp_main hnb suidList s) hrun hanswered
  exact ⟨hleaves.result, fun hr ↦ (hleaves.success hr).1, hleaves.tidy_iff hs⟩

/-- What has been opened is closed and deleted in the end, but not where a request is refused. -/
theorem main_tidy_wholeRun_refusedRun :
    (∃ lookUp attributes config disable,
      Run (main QshPb.protoWriter [⟨1, 2⟩]) (wholeRun ⟨1, 2⟩ lookUp attributes config disable) 0 ∧
      Tidy noSessions (sessionContract.after noSessions
        (wholeRun ⟨1, 2⟩ lookUp attributes config disable))) ∧
    ∃ lookUp, Run (main QshPb.protoWriter [⟨1, 2⟩]) (refusedRun lookUp) (-1) ∧
      ¬ Tidy noSessions (sessionContract.after noSessions (refusedRun lookUp)) := by
  have hnb := QshPb.protoWriter_followsWireFormat
  constructor
  · obtain ⟨lookUp, attributes, config, disable, hrun⟩ := exists_run_wholeRun hnb ⟨1, 2⟩
    exact ⟨lookUp, attributes, config, disable, hrun,
      (main_tidy hnb [⟨1, 2⟩] rfl hrun (answered_wholeRun _ _ _ _ _)).2.1 rfl⟩
  · obtain ⟨payload, hpayload, hlen, -⟩ := exists_encodeSuidReq hnb
    obtain ⟨lookUp, hlookUp, -⟩ := exists_encode_suidRequestMsg hnb suidSensor hlen
    have hrun := run_refusedRun hpayload hlookUp [⟨1, 2⟩]
    refine ⟨lookUp.written, hrun, fun htidy ↦ ?_⟩
    have hrefused := ((main_tidy hnb [⟨1, 2⟩] rfl hrun (answered_refusedRun _)).2.2.1 htidy).1
    exact Bool.false_ne_true (hrefused.symm.trans rfl)

end SensingHub.Client
