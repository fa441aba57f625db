import Evse.Ocpp.Moves

/-!
# What the calls leave alone

The machine's actions, one lemma each on what they make of the connector proper, and the authorization calls: the calls that occupy and release a connector, and the response to an `Authorize.req`, work on the session and on the registered callback. They reach neither the machine nor the checkpoint nor the charger's queue, and the only request they send is an `Authorize.req`.
-/

namespace Evse.Ocpp

/-! ### The actions of the machine -/

def Payload.stopped : Payload → Option Int
  | .stopTransaction _ _ _ transactionId _ => some transactionId
  | _ => none

/-- The transaction ids of the `StopTransaction.req`s requested, oldest first. -/
def stops (w : World) : List Int := w.requests.filterMap Payload.stopped

/-- The status a request notifies of, with its error code. -/
def Payload.notice : Payload → Option (OcppState × OcppError)
  | .statusNotification _ status errorCode _ _ => some (status, errorCode)
  | _ => none

/-- The `StatusNotification.req`s sent, oldest first. -/
def notices (w : World) : List (OcppState × OcppError) := w.requests.filterMap Payload.notice

section Actions

variable (env : Env) (state : OcppState) (w : World)

theorem setSessionCurrentExpiry_eq (expiry : Int) :
    setSessionCurrentExpiry w expiry =
      { w with session.expiry := if expiry ≠ 0 then expiry else w.session.expiry } := by
  unfold setSessionCurrentExpiry
  split <;> rfl

theorem raiseEvent_eq (event : ConnectorEvent) :
    raiseEvent env w event = { w with evtq := if env.evtqRoom then w.evtq ++ [event] else w.evtq } := by
  unfold raiseEvent
  split <;> rfl

/-- Metering changes nothing but the metering of the session and the requests. -/
theorem sendMetering_frame {β : Type} {f : World → β}
    (hmetering : ∀ (w : World) v, f { w with session.metering := v } = f w)
    (hrequest : ∀ w payload, payload.stopped = none → f (csmsRequest w payload) = f w) :
    f (sendMetering env w) = f w := by
  have hvalues : ∀ w updated measurands, f (sendMeterValues w updated measurands) = f w := by
    intro w updated measurands
    cases updated with
    | none => rfl
    | some v =>
        simp only [sendMeterValues]
        split
        · exact (hrequest _ _ rfl).trans (hmetering w v)
        · exact hmetering w v
  simp only [sendMetering]
  rw [hvalues, hvalues]

theorem doCharging_frame {β : Type} {f : World → β}
    (hpower : ∀ (w : World) iec61851, f { w with base.iec61851 := iec61851 } = f w)
    (hmetering : ∀ (w : World) v, f { w with session.metering := v } = f w)
    (hrequest : ∀ w payload, payload.stopped = none → f (csmsRequest w payload) = f w) :
    f (doCharging env state w) = f w := by
  simp only [doCharging]
  split_ifs
  · exact sendMetering_frame env w hmetering hrequest
  · rw [sendMetering_frame env _ hmetering hrequest]
    exact (hrequest _ _ rfl).trans (hpower w _)
  · exact hpower w _
  · exact sendMetering_frame env w hmetering hrequest

@[simp] theorem sendMetering_base : (sendMetering env w).base = w.base :=
  sendMetering_frame (f := (·.base)) env w (fun _ _ => rfl) fun _ _ _ => rfl

@[simp] theorem doMissingTransaction_base : (doMissingTransaction env state w).base = w.base := by
  simp only [doMissingTransaction]
  split_ifs <;> rfl

@[simp] theorem doMissingTransaction_evtq : (doMissingTransaction env state w).evtq = w.evtq := by
  simp only [doMissingTransaction]
  split_ifs <;> rfl

@[simp] theorem doUnavailable_base : (doUnavailable env state w).base = w.base := by
  rw [doUnavailable, doMissingTransaction_base]
  rfl

@[simp] theorem doAvailable_base : (doAvailable env state w).base = { w.base with occupied := false } := by
  simp only [doAvailable]
  rw [doMissingTransaction_base, raiseEvent_eq]
  split <;> rfl

@[simp] theorem doPreparing_base : (doPreparing env state w).base = { w.base with occupied := true } := by
  simp only [doPreparing]
  rw [doMissingTransaction_base]
  split <;> rfl

@[simp] theorem doRequestTid_base : (doRequestTid env state w).base = w.base := by
  simp only [doRequestTid]
  rw [setSessionCurrentExpiry_eq]
  rfl

@[simp] theorem doFaulted_base : (doFaulted env state w).base = w.base := rfl

@[simp] theorem doReserved_base : (doReserved state w).base = w.base := rfl

@[simp] theorem doBoot_base : (doBoot state w).base = w.base.stopDuty := rfl

@[simp] theorem doCharging_preparing_base : (doCharging env .preparing w).base = w.base.startDuty := rfl

theorem doCharging_charging_base :
    (doCharging env .charging w).base =
      if w.base.isSupplyingPower then w.base else w.base.enablePowerSupply := by
  simp only [doCharging, if_true, sendMetering_base]
  split <;> rfl

@[simp] theorem doCharging_suspendedEV_base : (doCharging env .suspendedEV w).base = w.base := by
  simp only [doCharging, reduceCtorEq, if_false, sendMetering_base]

@[simp] theorem doSuspendedEV_charging_base :
    (doSuspendedEV .charging w).base = w.base.disablePowerSupply := rfl

@[simp] theorem doFinishing_charging_base :
    (doFinishing env .charging w).base = w.base.disablePowerSupply.stopDuty := rfl

@[simp] theorem doFinishing_suspendedEV_base :
    (doFinishing env .suspendedEV w).base = w.base.stopDuty := rfl

@[simp] theorem doCharging_fsm : (doCharging env state w).base.fsm = w.base.fsm :=
  doCharging_frame (f := (·.base.fsm)) env state w (fun _ _ => rfl) (fun _ _ => rfl) fun _ _ _ => rfl

@[simp] theorem doSuspendedEV_fsm : (doSuspendedEV state w).base.fsm = w.base.fsm := by
  simp only [doSuspendedEV]
  split_ifs <;> rfl

@[simp] theorem doFinishing_fsm : (doFinishing env state w).base.fsm = w.base.fsm := by
  simp only [doFinishing]
  split_ifs <;> rfl

/-- What the machine reads but never sets. -/
def wiring (w : World) : Bool × Bool := (w.base.enabled, w.base.eventCb)

theorem wiring_moves {env : Env} {w w' : World} (hmove : Moves env w w') : wiring w' = wiring w := by
  cases hmove with
  | finish hfsm =>
      obtain hfsm | hfsm := hfsm <;> rw [hfsm] <;> rfl
  | keepCharging hfsm =>
      rw [wiring, doCharging_charging_base]
      split <;> rfl
  | _ => simp [wiring, enter, Connector.stopDuty, Connector.startDuty, Connector.disablePowerSupply]

theorem wiring_core (w : World) : wiring (core w) = wiring w := rfl

theorem wiring_process : wiring (process env w) = wiring w := by
  obtain ⟨w', hmove, hcore⟩ := process_moves env w
  calc wiring (process env w)
      = wiring (core (process env w)) := (wiring_core _).symm
    _ = wiring (core w') := by rw [hcore]
    _ = wiring w' := wiring_core w'
    _ = wiring (stampNow env w) := wiring_moves hmove

end Actions

/-! ### What no action reaches -/

/-- A part of the world that is neither the connector proper nor its session nor its requests. -/
structure Untouched {β : Type} (f : World → β) : Prop where
  base : ∀ w base, f { w with base := base } = f w
  session : ∀ w session cleared, f { w with session := session, cleared := cleared } = f w
  now : ∀ w now, f { w with now := now } = f w
  evtq : ∀ w evtq, f { w with evtq := evtq } = f w
  request : ∀ w payload, f (csmsRequest w payload) = f w

namespace Untouched

variable {β : Type} {f : World → β} (h : Untouched f) (env : Env) (state : OcppState) (w : World)

include h

theorem clearSession : f (clearSession w) = f w := h.session w _ _

theorem sendConnectorStatus (info : Option String) : f (sendConnectorStatus w info) = f w := h.request w _

theorem doMissingTransaction : f (doMissingTransaction env state w) = f w := by
  simp only [Ocpp.doMissingTransaction]
  split_ifs
  · rfl
  · calc f (Ocpp.clearSession (csmsRequest (readStopEnergy env (setTid w w.checkpoint.transactionId)) _))
        = f (readStopEnergy env (setTid w w.checkpoint.transactionId)) := by rw [h.clearSession, h.request]
      _ = f w := h.session w _ w.cleared
  · rfl

theorem doUnavailable : f (doUnavailable env state w) = f w := by
  rw [Ocpp.doUnavailable, h.doMissingTransaction, h.clearSession, h.sendConnectorStatus]

theorem doAvailable : f (doAvailable env state w) = f w := by
  simp only [Ocpp.doAvailable]
  rw [h.base, h.doMissingTransaction, h.clearSession, h.sendConnectorStatus]
  split
  · rw [raiseEvent_eq]
    exact h.evtq w _
  · rfl

theorem doPreparing : f (doPreparing env state w) = f w := by
  simp only [Ocpp.doPreparing]
  rw [h.base, h.doMissingTransaction]
  split
  · exact h.sendConnectorStatus w none
  · rfl

theorem doRequestTid : f (doRequestTid env state w) = f w := by
  simp only [Ocpp.doRequestTid, setSessionCurrentExpiry_eq]
  calc f _ = f (csmsRequest (readStartEnergy env w) (doStarttransaction (readStartEnergy env w))) := h.session _ _ _
    _ = f (readStartEnergy env w) := h.request _ _
    _ = f w := h.session w _ w.cleared

theorem doCharging : f (doCharging env state w) = f w :=
  doCharging_frame env state w (fun w _ => h.base w _) (fun w _ => h.session w _ w.cleared) fun w payload _ =>
    h.request w payload

theorem doSuspendedEV : f (doSuspendedEV state w) = f w := by
  simp only [Ocpp.doSuspendedEV]
  rw [h.sendConnectorStatus]
  split
  · exact h.base w _
  · rfl

theorem doFinishing : f (doFinishing env state w) = f w := by
  simp only [Ocpp.doFinishing]
  rw [h.clearSession, h.sendConnectorStatus, h.base]
  split
  · rw [h.request]
    split
    · exact (h.session _ _ _).trans (h.base w _)
    · exact h.session w _ w.cleared
  · rfl

variable {env w}

theorem moves {w' : World} (hmove : Moves env w w') : f w' = f w := by
  have henter : ∀ state, f (enter state w) = f w := fun state => h.base w _
  cases hmove with
  | stay => rfl
  | boot => exact (h.base _ _).trans (henter _)
  | unavailable => exact (h.doUnavailable env _ _).trans (henter _)
  | available => exact (h.doAvailable env _ _).trans (henter _)
  | preparing => exact (h.doPreparing env _ _).trans (henter _)
  | faulted => exact ((h.clearSession _).trans (h.sendConnectorStatus _ _)).trans (henter _)
  | reserved => exact (h.sendConnectorStatus _ none).trans (henter _)
  | requestTid => exact (h.doRequestTid env _ _).trans (henter _)
  | startCharging => exact (h.doCharging env _ _).trans (henter _)
  | suspend => exact (h.doSuspendedEV _ _).trans (henter _)
  | finish => exact (h.doFinishing env _ _).trans (henter _)
  | keepCharging => exact (h.doCharging env _ _).trans (henter _)
  | resume => exact (h.doCharging env _ _).trans (henter _)
  | keepSuspended => exact (h.doCharging env _ _).trans (henter _)

variable (env w)

theorem process : f (process env w) = f w := by
  have hcore : ∀ w, f (core w) = f w := fun w => (h.base { w with evtq := [] } _).trans (h.evtq w [])
  obtain ⟨w', hmove, heq⟩ := process_moves env w
  calc f (Ocpp.process env w)
      = f (core w') := by rw [← heq, hcore]
    _ = f (stampNow env w) := (hcore w').trans (h.moves hmove)
    _ = f w := h.now w env.now

end Untouched

/-! ### The authorization calls -/

structure AuthFrame (w w' : World) : Prop where
  base : w'.base = w.base
  checkpoint : w'.checkpoint = w.checkpoint
  evtq : w'.evtq = w.evtq
  msgq : w'.msgq = w.msgq
  started : w'.started = w.started
  remoteReset : w'.remoteResetRequested = w.remoteResetRequested
  notices : notices w' = notices w

namespace AuthFrame

theorem refl (w : World) : AuthFrame w w := ⟨rfl, rfl, rfl, rfl, rfl, rfl, rfl⟩

theorem trans {w₁ w₂ w₃ : World} (h : AuthFrame w₁ w₂) (h' : AuthFrame w₂ w₃) : AuthFrame w₁ w₃ :=
  ⟨h'.base.trans h.base, h'.checkpoint.trans h.checkpoint, h'.evtq.trans h.evtq, h'.msgq.trans h.msgq,
    h'.started.trans h.started, h'.remoteReset.trans h.remoteReset, h'.notices.trans h.notices⟩

/-- A world with another session, callback, cache and record of these is in the frame. -/
theorem of_eq {w w' : World} (hbase : w'.base = w.base) (hcheckpoint : w'.checkpoint = w.checkpoint)
    (hevtq : w'.evtq = w.evtq) (hmsgq : w'.msgq = w.msgq) (hstarted : w'.started = w.started)
    (hreset : w'.remoteResetRequested = w.remoteResetRequested) (hrequests : w'.requests = w.requests) :
    AuthFrame w w' :=
  ⟨hbase, hcheckpoint, hevtq, hmsgq, hstarted, hreset, by rw [Ocpp.notices, hrequests]; rfl⟩

end AuthFrame

section Calls

variable (env : Env) (w : World)

/-- `ocpp_connector_occupy` moves the trial id to the current one, whatever it is. -/
theorem occupy_eq :
    occupy env w =
      { w with
        session := { w.session with
          current.uid := w.session.trial.uid
          trial := {}
          expiry :=
            if env.occupyTime + env.config.connectionTimeOut ≠ 0 then
              env.occupyTime + env.config.connectionTimeOut
            else w.session.expiry }
        occupations := w.occupations ++ [w.session.trial.uid] } := by
  simp only [occupy, setSessionCurrentExpiry_eq, setSessionUid, clearSessionPending]

theorem authFrame_occupy : AuthFrame w (occupy env w) := by
  rw [occupy_eq]
  exact .of_eq rfl rfl rfl rfl rfl rfl rfl

theorem authFrame_release (remote : Bool) : AuthFrame w (release env w remote) := by
  simp only [release]
  split_ifs <;> exact .of_eq rfl rfl rfl rfl rfl rfl rfl

theorem authFrame_run (cb : ResultCb) (result : SessionResult) : AuthFrame w (cb.run env w result) := by
  cases cb <;> unfold ResultCb.run <;> dsimp only <;> split_ifs
  · exact authFrame_occupy env w
  · exact .refl w
  · exact (authFrame_release env w false).trans (.of_eq rfl rfl rfl rfl rfl rfl rfl)
  · exact .refl w
  · exact authFrame_occupy env w
  · exact .refl w

theorem authFrame_dispatchAuthResult (result : SessionResult) : AuthFrame w (dispatchAuthResult env w result) := by
  unfold dispatchAuthResult
  split
  · exact .refl w
  · exact (authFrame_run env w _ result).trans (.of_eq rfl rfl rfl rfl rfl rfl rfl)

theorem authFrame_request_authorize : AuthFrame w (csmsRequest w (doAuthorize w)) := by
  refine ⟨rfl, rfl, rfl, rfl, rfl, rfl, ?_⟩
  simp [notices, csmsRequest, doAuthorize, Payload.notice]

theorem authFrame_releasePendingRequestIfTimedout : AuthFrame w (releasePendingRequestIfTimedout env w) := by
  simp only [releasePendingRequestIfTimedout]
  split_ifs
  · exact (authFrame_dispatchAuthResult env w .timeout).trans (.of_eq rfl rfl rfl rfl rfl rfl rfl)
  · exact .refl w
  · exact .refl w

theorem authFrame_setAuthResultCb (cb : ResultCb) (id : IdToken) : AuthFrame w (setAuthResultCb w cb id) :=
  .of_eq rfl rfl rfl rfl rfl rfl rfl

theorem authFrame_setSessionPending (id : IdToken) : AuthFrame w (setSessionPending env w id) :=
  .of_eq rfl rfl rfl rfl rfl rfl rfl

theorem authFrame_occupyOnline (id : IdToken) (remote : Bool) (cb : ResultCb) :
    AuthFrame w (occupyOnline env w id remote cb).1 := by
  have hlocal : AuthFrame w (if isPreAuthorized env w id remote then dispatchAuthResult env w .ok else w) := by
    split
    · exact authFrame_dispatchAuthResult env w .ok
    · exact .refl w
  exact (hlocal.trans (authFrame_setAuthResultCb _ cb id)).trans (authFrame_request_authorize _)

theorem authFrame_occupyOffline (id : IdToken) : AuthFrame w (occupyOffline env w id).1 := by
  have hclear : AuthFrame w (clearSessionPending w) := .of_eq rfl rfl rfl rfl rfl rfl rfl
  unfold occupyOffline
  split_ifs
  · exact hclear.trans (authFrame_dispatchAuthResult env _ .notSupported)
  · exact hclear.trans (authFrame_dispatchAuthResult env _ .rejected)
  · exact authFrame_dispatchAuthResult env w .ok

theorem authFrame_tryOccupy (id : IdToken) (remote : Bool) (cb : ResultCb) :
    AuthFrame w (tryOccupy env w id remote cb).1 := by
  have hasked := (authFrame_releasePendingRequestIfTimedout env w).trans (authFrame_setAuthResultCb _ cb id)
  have htrial := hasked.trans (authFrame_setSessionPending env _ id)
  simp only [tryOccupy]
  split_ifs
  · exact hasked.trans (authFrame_dispatchAuthResult env _ .alreadyOccupied)
  · exact htrial.trans (authFrame_dispatchAuthResult env _ .ok)
  · exact htrial.trans (authFrame_occupyOnline env _ id remote cb)
  · exact htrial.trans (authFrame_occupyOffline env _ id)

theorem authFrame_tryRelease (id : IdToken) (cb : ResultCb) : AuthFrame w (tryRelease env w id cb).1 := by
  have hasked := (authFrame_releasePendingRequestIfTimedout env w).trans (authFrame_setAuthResultCb _ cb id)
  have htrial := hasked.trans (authFrame_setSessionPending env _ id)
  simp only [tryRelease]
  split_ifs
  · exact hasked.trans (authFrame_dispatchAuthResult env _ .pending)
  · exact htrial.trans (authFrame_dispatchAuthResult env _ .ok)
  · exact htrial.trans (authFrame_request_authorize _)
  · exact hasked.trans (authFrame_dispatchAuthResult env _ .notMatched)

theorem authFrame_recordAuthorization (info : IdTagInfo) : AuthFrame w (recordAuthorization w info) := by
  simp only [recordAuthorization]
  split_ifs
  · exact .of_eq rfl rfl rfl rfl rfl rfl rfl
  · exact .of_eq rfl rfl rfl rfl rfl rfl rfl
  · exact .refl w

theorem authFrame_doAuth (info : IdTagInfo) : AuthFrame w (doAuth env w info) :=
  (authFrame_recordAuthorization w info).trans (authFrame_dispatchAuthResult env _ _)

end Calls

/-! ### The machine moves only with the connector's own calls -/

theorem doStartTransaction_accepted (env : Env) (w : World) (req : Request) {info : IdTagInfo}
    (h : info.status = .accepted) (transactionId : Int) :
    doStartTransaction env w req info transactionId =
      { w with
        session := { w.session with
          transactionId := transactionId
          current.pid := if info.parentIdTag ≠ .empty then info.parentIdTag else w.session.current.pid
          expiry := if info.expiryDate ≠ 0 then info.expiryDate else w.session.expiry }
        msgq := if env.msgqRoom then w.msgq ++ [.billingStarted transactionId] else w.msgq
        started := w.started ++ [(req, transactionId)] } := by
  rw [doStartTransaction, if_neg (not_not.mpr h)]
  simp only [setSessionCurrentExpiry_eq, setSessionPid, setTid, mqSend]
  split_ifs <;> rfl

theorem doStartTransaction_rejected (env : Env) (w : World) (req : Request) {info : IdTagInfo}
    (h : info.status ≠ .accepted) (transactionId : Int) :
    doStartTransaction env w req info transactionId = clearSession w := if_pos h

theorem doStartTransaction_base (env : Env) (w : World) (req : Request) (info : IdTagInfo) (transactionId : Int) :
    (doStartTransaction env w req info transactionId).base = w.base := by
  by_cases h : info.status = .accepted
  · rw [doStartTransaction_accepted env w req h]
  · rw [doStartTransaction_rejected env w req h]
    rfl

theorem receive_base (env : Env) (w : World) (id : Nat) (response : Response) :
    (receive env w id response).base = w.base := by
  unfold receive
  split
  · rfl
  · unfold handlerProcess
    split
    · exact (authFrame_doAuth env _ _).base
    · exact doStartTransaction_base env _ _ _ _
    · unfold doStopTransaction mqSend
      split <;> rfl
    · rfl

theorem mqSend_base (env : Env) (w : World) (msg : ChargerMsg) : (mqSend env w msg).base = w.base := by
  unfold mqSend
  split <;> rfl

theorem mqRecv_base (env : Env) (w : World) : (mqRecv env w).base = w.base := by
  unfold mqRecv
  split
  · rfl
  · unfold msgHandler procStartTransaction procStopTransaction raiseEvent
    split <;> first | rfl | (split <;> rfl)

/-- Calls of the connector itself; every other event leaves the machine, the pilot and the relay alone. -/
def Event.ofConnector : Event → Bool
  | .process _ | .enable _ | .disable | .setReserved _ => true
  | _ => false

theorem step_base {w : World} {e : Event} (h : e.ofConnector = false) : (step w e).base = w.base := by
  cases e with
  | process env => simp [Event.ofConnector] at h
  | enable env => simp [Event.ofConnector] at h
  | disable => simp [Event.ofConnector] at h
  | setReserved reserved => simp [Event.ofConnector] at h
  | tryOccupy env id remote => exact (authFrame_tryOccupy env w id remote _).base
  | tryRelease env id => exact (authFrame_tryRelease env w id _).base
  | occupy env => exact (authFrame_occupy env w).base
  | release env remote => exact (authFrame_release env w remote).base
  | receive env id response => exact receive_base env w id response
  | drop id => rfl
  | mqRecv env => exact mqRecv_base env w
  | bootAccepted env => exact mqSend_base env w _
  | changeAvailability env available => exact mqSend_base env _ _
  | changeConfiguration env => exact mqSend_base env w _
  | clearCache => rfl
  | reset env forced => exact mqSend_base env w _

theorem doStartTransaction_notices (env : Env) (w : World) (req : Request) (info : IdTagInfo) (transactionId : Int) :
    notices (doStartTransaction env w req info transactionId) = notices w := by
  by_cases h : info.status = .accepted
  · rw [doStartTransaction_accepted env w req h]
    rfl
  · rw [doStartTransaction_rejected env w req h]
    rfl

theorem receive_notices (env : Env) (w : World) (id : Nat) (response : Response) :
    notices (receive env w id response) = notices w := by
  unfold receive
  split
  · rfl
  · unfold handlerProcess
    split
    · exact (authFrame_doAuth env _ _).notices
    · exact doStartTransaction_notices env _ _ _ _
    · unfold doStopTransaction mqSend
      split <;> rfl
    · rfl

theorem mqSend_notices (env : Env) (w : World) (msg : ChargerMsg) : notices (mqSend env w msg) = notices w := by
  unfold mqSend
  split <;> rfl

theorem mqRecv_notices (env : Env) (w : World) : notices (mqRecv env w) = notices w := by
  unfold mqRecv
  split
  · rfl
  · unfold msgHandler procStartTransaction procStopTransaction raiseEvent
    split <;> first | rfl | (split <;> rfl)

/-- Only the machine notifies of the connector's status. -/
theorem step_notices {w : World} {e : Event} (h : ∀ env, e ≠ .process env) : notices (step w e) = notices w := by
  cases e with
  | process env => exact absurd rfl (h env)
  | enable env => rfl
  | disable => rfl
  | setReserved reserved => rfl
  | tryOccupy env id remote => exact (authFrame_tryOccupy env w id remote _).notices
  | tryRelease env id => exact (authFrame_tryRelease env w id _).notices
  | occupy env => exact (authFrame_occupy env w).notices
  | release env remote => exact (authFrame_release env w remote).notices
  | receive env id response => exact receive_notices env w id response
  | drop id => rfl
  | mqRecv env => exact mqRecv_notices env w
  | bootAccepted env => exact mqSend_notices env w _
  | changeAvailability env available => exact mqSend_notices env _ _
  | changeConfiguration env => exact mqSend_notices env w _
  | clearCache => rfl
  | reset env forced => exact mqSend_notices env w _

end Evse.Ocpp
