import Evse.Lib.Ledger
import Evse.Ocpp.Calls
import Mathlib.Algebra.Ring.Int.Defs

/-!
# Transactions

A transaction id lives in the session, in the checkpoint and in the requests to stop it. The ledger of a connector holds these and the ids of the transactions that were started, and every event amounts to one operation on it: `ledger_step`. What becomes of a transaction along a run is then a matter of the ledger alone, and the number of stop requests one of counting operations.
-/

namespace Evse.Ocpp

open RowTable StepRun

def ledger (w : World) : Ledger Int :=
  ⟨w.session.transactionId, w.checkpoint.transactionId, stops w, w.started.map (·.2)⟩

section Actions

variable (env : Env) (state : OcppState) (w : World)

theorem stops_csmsRequest (payload : Payload) :
    stops (csmsRequest w payload) = stops w ++ payload.stopped.toList := by
  simp only [stops, csmsRequest, List.filterMap_append, List.filterMap_cons, List.filterMap_nil]
  cases payload.stopped <;> rfl

/-- A request other than `StopTransaction.req` leaves the ledger alone. -/
theorem ledger_csmsRequest {payload : Payload} (h : payload.stopped = none) :
    ledger (csmsRequest w payload) = ledger w := by
  have hstops := stops_csmsRequest w payload
  rw [h, Option.toList_none, List.append_nil] at hstops
  simp only [ledger, hstops]
  rfl

@[simp] theorem ledger_sendConnectorStatus (info : Option String) :
    ledger (sendConnectorStatus w info) = ledger w := ledger_csmsRequest w rfl

@[simp] theorem ledger_clearSession : ledger (clearSession w) = (ledger w).apply .clear := rfl

@[simp] theorem ledger_enter : ledger (enter state w) = ledger w := rfl

@[simp] theorem enter_checkpoint : (enter state w).checkpoint = w.checkpoint := rfl

@[simp] theorem ledger_doBoot : ledger (doBoot state w) = ledger w := rfl

/-- On leaving Booting a transaction left in the checkpoint is stopped; its id passes through the session. -/
@[simp] theorem ledger_doMissingTransaction :
    ledger (doMissingTransaction env state w) =
      (ledger w).apply (if state = .booting ∧ w.checkpoint.transactionId ≠ 0 then .recover else .keep) := by
  unfold doMissingTransaction hasMissingTransaction
  dsimp only
  by_cases hboot : state = .booting
  · by_cases hmissing : w.checkpoint.transactionId = 0
    · simp [hboot, hmissing, Ledger.apply]
    · rw [if_neg (by simp [hboot]), if_pos (by simpa using hmissing), if_pos ⟨hboot, hmissing⟩,
        ledger_clearSession]
      simp only [ledger, Ledger.apply, stops_csmsRequest, doStoptransaction, Payload.stopped, setTid,
        readStopEnergy, Option.toList_some]
      rfl
  · rw [if_pos hboot, if_neg fun h => hboot h.1]
    rfl

@[simp] theorem ledger_doUnavailable :
    ledger (doUnavailable env state w) =
      (ledger w).apply (if state = .booting ∧ w.checkpoint.transactionId ≠ 0 then .recover else .clear) := by
  rw [doUnavailable, ledger_doMissingTransaction, ledger_clearSession, ledger_sendConnectorStatus]
  have hcheckpoint : (clearSession (sendConnectorStatus w none)).checkpoint = w.checkpoint := rfl
  rw [hcheckpoint]
  split <;> rfl

@[simp] theorem ledger_doAvailable :
    ledger (doAvailable env state w) =
      (ledger w).apply (if state = .booting ∧ w.checkpoint.transactionId ≠ 0 then .recover else .clear) := by
  -- past the event it may raise, the action is `do_unavailable` and a flag
  obtain ⟨w₀, hledger, hcheckpoint, heq⟩ : ∃ w₀ : World, ledger w₀ = ledger w ∧ w₀.checkpoint = w.checkpoint ∧
      ledger (doAvailable env state w) = ledger (doUnavailable env state w₀) := by
    refine ⟨if state = .preparing ∧ isSessionEstablished w = false then raiseEvent env w .unplugged else w,
      ?_, ?_, rfl⟩
    · rw [raiseEvent_eq]
      split <;> rfl
    · rw [raiseEvent_eq]
      split <;> rfl
  rw [heq, ledger_doUnavailable, hledger, hcheckpoint]

@[simp] theorem ledger_doPreparing :
    ledger (doPreparing env state w) =
      (ledger w).apply (if state = .booting ∧ w.checkpoint.transactionId ≠ 0 then .recover else .keep) := by
  have hoccupied : ∀ w : World, ledger { w with base.occupied := true } = ledger w := fun _ => rfl
  simp only [doPreparing]
  rw [hoccupied, ledger_doMissingTransaction]
  by_cases hfinishing : state = .finishing
  · simp [hfinishing]
  · rw [if_pos hfinishing, ledger_sendConnectorStatus]
    rfl

@[simp] theorem ledger_doFaulted : ledger (doFaulted env state w) = (ledger w).apply .clear := by
  rw [doFaulted, ledger_clearSession, ledger_sendConnectorStatus]

@[simp] theorem ledger_doReserved : ledger (doReserved state w) = ledger w := ledger_sendConnectorStatus w none

@[simp] theorem ledger_doRequestTid : ledger (doRequestTid env state w) = ledger w := by
  have hexpiry : ∀ w : World, ∀ expiry, ledger (setSessionCurrentExpiry w expiry) = ledger w := by
    intro w expiry
    rw [setSessionCurrentExpiry_eq]
    rfl
  simp only [doRequestTid]
  rw [hexpiry, ledger_csmsRequest _ rfl]
  rfl

@[simp] theorem ledger_doCharging : ledger (doCharging env state w) = ledger w :=
  doCharging_frame env state w (fun _ _ => rfl) (fun _ _ => rfl) fun w _ => ledger_csmsRequest w

@[simp] theorem ledger_doSuspendedEV : ledger (doSuspendedEV state w) = ledger w := by
  simp only [doSuspendedEV]
  rw [ledger_sendConnectorStatus]
  split <;> rfl

theorem ledger_doFinishing (h : state = .charging ∨ state = .suspendedEV) :
    ledger (doFinishing env state w) = (ledger w).apply .stop := by
  have hduty : ∀ w : World, ledger { w with base := w.base.stopDuty } = ledger w := fun _ => rfl
  simp only [doFinishing, if_pos h]
  rw [ledger_clearSession, ledger_sendConnectorStatus, hduty]
  simp only [ledger, Ledger.apply, stops_csmsRequest, doStoptransaction, Payload.stopped, readStopEnergy,
    Option.toList_some]
  split_ifs <;> rfl

end Actions

/-! ### The operation an event amounts to -/

section Ops

variable (env : Env) (w : World)

/-- What a step of the machine does to the ledger, by the guards of the state it is in. -/
def processOp : Ledger.Op Int :=
  match w.base.fsm with
  | .booting =>
      if isBooting env .booting w then .keep
      else if isUnavailable env .booting w || isAvailable env .booting w then
        if hasMissingTransaction w then .recover else .clear
      else if isPreparing env .booting w then
        if hasMissingTransaction w then .recover else .keep
      else .keep
  | .available => if isFaulted env .available w || isUnavailable env .available w then .clear else .keep
  | .preparing | .finishing | .reserved =>
      if isFaulted env w.base.fsm w || isUnavailable env w.base.fsm w || isAvailable env w.base.fsm w then .clear
      else .keep
  | .unavailable =>
      if isUnavailable env .unavailable w then .keep
      else if isFaulted env .unavailable w || isAvailable env .unavailable w then .clear
      else .keep
  | .faulted =>
      if isFaulted env .faulted w then .keep
      else if isUnavailable env .faulted w || isAvailable env .faulted w then .clear
      else .keep
  | .charging =>
      if isSuspendedEV env .charging w then .keep
      else if isFinishing env .charging w then .stop
      else .keep
  | .suspendedEV =>
      if isCharging env .suspendedEV w then .keep
      else if isFinishing env .suspendedEV w then .stop
      else .keep
  | .suspendedEVSE => .keep

theorem ledger_move :
    ledger ((machine env).move w.base.fsm w (transitions env)) = (ledger w).apply (processOp env w) := by
  cases h : w.base.fsm with
  | booting =>
      simp only [move_booting, processOp, h]
      split_ifs <;> simp_all [hasMissingTransaction]
  | available =>
      simp only [move_available, processOp, h]
      split_ifs <;> simp_all
  | preparing =>
      simp only [move_preparing, processOp, h, isFinishing_preparing, Bool.false_eq_true, if_false]
      split_ifs <;> simp_all
  | charging =>
      simp only [move_charging, processOp, h]
      split_ifs <;> simp [ledger_doFinishing]
  | suspendedEV =>
      simp only [move_suspendedEV, processOp, h]
      split_ifs <;> simp [ledger_doFinishing]
  | suspendedEVSE =>
      simp only [move_suspendedEVSE, processOp, h, Ledger.apply_keep]
  | finishing =>
      simp only [move_finishing, processOp, h]
      split_ifs <;> simp_all
  | reserved =>
      simp only [move_reserved, processOp, h]
      split_ifs <;> simp_all
  | unavailable =>
      simp only [move_unavailable, processOp, h]
      split_ifs <;> simp_all
  | faulted =>
      simp only [move_faulted, processOp, h]
      split_ifs <;> simp_all

theorem ledger_process : ledger (process env w) = (ledger w).apply (processOp env (stampNow env w)) := by
  rw [process_eq_move (f := ledger) (fun _ => rfl)]
  exact ledger_move env (stampNow env w)

/-- The states of a charging session. -/
def inSession (state : OcppState) : Bool := state = .charging || state = .suspendedEV

/-- Delivering the result releases the connector outside a charging session. -/
def releasesOn (result : SessionResult) : Bool :=
  match w.auth with
  | none => false
  | some k => k.cb = .onReleaseResult && result = .ok && canUserRelease w && !inSession w.base.fsm

def receiveOp (id : Nat) (response : Response) : Ledger.Op Int :=
  match getMessageById w id with
  | none => .keep
  | some req =>
      match req.payload, response with
      | .authorize _, .authorize info =>
          if releasesOn (recordAuthorization w info) info.status.toSessionResult then .clear else .keep
      | .startTransaction .., .startTransaction info transactionId =>
          if info.status = .accepted then .start transactionId else .clear
      | _, _ => .keep

/-- The operation on the ledger that an event amounts to. -/
def txOp : Event → Ledger.Op Int
  | .process env => if w.base.enabled then processOp env (stampNow env w) else .keep
  | .tryRelease _ id => if isSessionUidEqual w id && !inSession w.base.fsm then .clear else .keep
  | .release _ _ => if inSession w.base.fsm then .keep else .clear
  | .receive _ id response => receiveOp w id response
  | .mqRecv _ =>
      match w.msgq with
      | .billingStarted _ :: _ => .save
      | .billingEnded :: _ => .forget
      | _ => .keep
  | _ => .keep

end Ops

/-! ### Every event is one operation -/

section Calls

variable (env : Env) (w : World)

theorem ledger_occupy : ledger (occupy env w) = ledger w := by
  rw [occupy_eq]
  rfl

theorem ledger_release (remote : Bool) :
    ledger (release env w remote) = (ledger w).apply (if inSession w.base.fsm then .keep else .clear) := by
  by_cases h : w.base.fsm = .charging ∨ w.base.fsm = .suspendedEV
  · have hin : inSession w.base.fsm = true := by simpa [inSession] using h
    rw [release, if_pos h, if_pos hin]
    dsimp only
    split <;> rfl
  · have hin : ¬ inSession w.base.fsm = true := by simpa [inSession] using h
    rw [release, if_neg h, if_neg hin]
    rfl

theorem ledger_dispatchAuthResult (result : SessionResult) :
    ledger (dispatchAuthResult env w result) =
      (ledger w).apply (if releasesOn w result then .clear else .keep) := by
  have hdelivers := delivers env w result
  generalize dispatchAuthResult env w result = w' at hdelivers
  cases hdelivers with
  | unregistered hauth => simp [releasesOn, hauth]
  | ignored k hauth hno =>
      have hstays : releasesOn w result = false := by
        rcases hno with hne | ⟨-, hcan⟩
        · simp [releasesOn, hauth, hne]
        · simp [releasesOn, hauth, hcan]
      rw [hstays]
      rfl
  | occupied k hauth hok hcb =>
      have hstays : releasesOn w result = false := by simp [releasesOn, hauth, hcb]
      rw [hstays]
      exact ledger_occupy env w
  | released k hauth hok hcb hcan =>
      have hleaves : releasesOn w result = !inSession w.base.fsm := by simp [releasesOn, hauth, hok, hcb, hcan]
      rw [hleaves]
      refine Eq.trans (ledger_release env w false) ?_
      cases inSession w.base.fsm <;> rfl

theorem ledger_releasePendingRequestIfTimedout : ledger (releasePendingRequestIfTimedout env w) = ledger w :=
  releasePendingRequestIfTimedout_frame env w fun _ => rfl

theorem ledger_tryOccupy (id : IdToken) (remote : Bool) :
    ledger (tryOccupy env w id remote (occupyCb remote)).1 = ledger w := by
  have hoccupies := occupies env w id remote (occupyCb_ne_release remote)
  rw [← ledger_releasePendingRequestIfTimedout env w]
  generalize (tryOccupy env w id remote (occupyCb remote)).1 = w' at hoccupies
  cases hoccupies with
  | refused => rfl
  | granted => rfl
  | denied => rfl
  | asked => exact ledger_csmsRequest _ rfl
  | preAuthorized => exact ledger_csmsRequest _ rfl

theorem ledger_tryRelease (id : IdToken) :
    ledger (tryRelease env w id .onReleaseResult).1 =
      (ledger w).apply (if isSessionUidEqual w id && !inSession w.base.fsm then .clear else .keep) := by
  have hreleases := releases env w id
  have hequal : isSessionUidEqual (releasePendingRequestIfTimedout env w) id = isSessionUidEqual w id :=
    releasePendingRequestIfTimedout_frame (f := (isSessionUidEqual · id)) env w fun _ => rfl
  have hbase : (releasePendingRequestIfTimedout env w).base = w.base :=
    (authFrame_releasePendingRequestIfTimedout env w).base
  rw [← ledger_releasePendingRequestIfTimedout env w, ← hequal, ← hbase]
  generalize (tryRelease env w id .onReleaseResult).1 = w' at hreleases
  generalize releasePendingRequestIfTimedout env w = w₁ at hreleases
  cases hreleases with
  | refused result hno hother =>
      rw [hother]
      rfl
  | released hown =>
      rw [hown]
      refine Eq.trans (ledger_release env (onTrial env w₁ id .onReleaseResult) false) ?_
      have htrial : (onTrial env w₁ id .onReleaseResult).base = w₁.base := rfl
      rw [htrial]
      cases inSession w₁.base.fsm <;> rfl
  | asked hestablished hother =>
      rw [hother]
      exact ledger_csmsRequest _ rfl

theorem ledger_doAuth (info : IdTagInfo) :
    ledger (doAuth env w info) =
      (ledger w).apply
        (if releasesOn (recordAuthorization w info) info.status.toSessionResult then .clear else .keep) := by
  have hrecord : ledger (recordAuthorization w info) = ledger w := by
    simp only [recordAuthorization]
    split_ifs <;> rfl
  rw [doAuth, ledger_dispatchAuthResult, hrecord]

theorem ledger_mqSend (msg : ChargerMsg) : ledger (mqSend env w msg) = ledger w := by
  unfold mqSend
  split <;> rfl

theorem ledger_doStartTransaction (req : Request) (info : IdTagInfo) (transactionId : Int) :
    ledger (doStartTransaction env w req info transactionId) =
      (ledger w).apply (if info.status = .accepted then .start transactionId else .clear) := by
  by_cases h : info.status = .accepted
  · rw [doStartTransaction_accepted env w req h, if_pos h]
    simp [ledger, Ledger.apply, stops]
  · rw [doStartTransaction_rejected env w req h, if_neg h]
    rfl

/-- The outstanding requests do not matter for the delivery of a result. -/
theorem releasesOn_dropRequest (id : Nat) (info : IdTagInfo) (result : SessionResult) :
    releasesOn (recordAuthorization (dropRequest w id) info) result =
      releasesOn (recordAuthorization w info) result := by
  have hpending : isSessionPending (dropRequest w id) = isSessionPending w := rfl
  simp only [recordAuthorization, hpending]
  split_ifs <;> rfl

theorem ledger_receive (id : Nat) (response : Response) :
    ledger (receive env w id response) = (ledger w).apply (receiveOp w id response) := by
  unfold receive receiveOp
  cases hmsg : getMessageById w id with
  | none => rfl
  | some req =>
      simp only [handlerProcess]
      cases req.payload with
      | authorize idTag =>
          cases response with
          | authorize info =>
              simp only [ledger_doAuth, releasesOn_dropRequest]
              rfl
          | _ => rfl
      | startTransaction connectorId idTag meterStart timestamp reservationId =>
          cases response with
          | startTransaction info transactionId =>
              exact ledger_doStartTransaction env (dropRequest w id) req info transactionId
          | _ => rfl
      | stopTransaction idTag meterStop timestamp transactionId reason =>
          cases response with
          | stopTransaction => exact ledger_mqSend env (dropRequest w id) .billingEnded
          | _ => rfl
      | _ => rfl

theorem ledger_mqRecv : ledger (mqRecv env w) = (ledger w).apply (txOp w (.mqRecv env)) := by
  unfold mqRecv txOp
  cases hmsgq : w.msgq with
  | nil => rfl
  | cons msg msgs =>
      cases msg <;> simp only [msgHandler, procStartTransaction, procStopTransaction, raiseEvent_eq] <;> rfl

end Calls

/-- Every event is one operation on the ledger. -/
theorem ledger_step (w : World) (e : Event) : ledger (step w e) = (ledger w).apply (txOp w e) := by
  cases e with
  | process env =>
      simp only [step, txOp]
      split
      · exact ledger_process env w
      · rfl
  | enable env => rfl
  | disable => rfl
  | setReserved reserved => rfl
  | tryOccupy env id remote => exact ledger_tryOccupy env w id remote
  | tryRelease env id => exact ledger_tryRelease env w id
  | occupy env => exact ledger_occupy env w
  | release env remote => exact ledger_release env w remote
  | receive env id response => exact ledger_receive env w id response
  | drop id => rfl
  | mqRecv env => exact ledger_mqRecv env w
  | bootAccepted env => exact ledger_mqSend env w _
  | changeAvailability env available => exact ledger_mqSend env _ _
  | changeConfiguration env => exact ledger_mqSend env w _
  | clearCache => rfl
  | reset env forced => exact ledger_mqSend env w _

/-! ### No transaction is lost -/

/-- Every transaction the CSMS has started for the connector is being stopped or still known to it. -/
def Kept (w : World) : Prop :=
  ∀ p ∈ w.started, p.2 ≠ 0 →
    p.2 ∈ stops w ∨ w.session.transactionId = p.2 ∨ w.checkpoint.transactionId = p.2 ∨
      ChargerMsg.billingStarted p.2 ∈ w.msgq ∧ w.session.transactionId = p.2

instance (w : World) : Decidable (Kept w) :=
  inferInstanceAs (Decidable (∀ p ∈ w.started, p.2 ≠ 0 →
    p.2 ∈ stops w ∨ w.session.transactionId = p.2 ∨ w.checkpoint.transactionId = p.2 ∨
      ChargerMsg.billingStarted p.2 ∈ w.msgq ∧ w.session.transactionId = p.2))

theorem kept_iff (w : World) : Kept w ↔ (ledger w).Kept := by
  constructor
  · intro h entry hmem hne
    obtain ⟨p, hp, rfl⟩ := List.mem_map.mp hmem
    rcases h p hp hne with hs | hs | hs | hs
    · exact .inl hs
    · exact .inr (.inl hs)
    · exact .inr (.inr hs)
    · exact .inr (.inl hs.2)
  · intro h p hp hne
    rcases h p.2 (List.mem_map_of_mem hp) hne with hs | hs | hs
    · exact .inl hs
    · exact .inr (.inl hs)
    · exact .inr (.inr (.inl hs))

/-- Along a run every transaction is kept exactly when every event is a safe operation on the ledger: it does not clear or replace a transaction id of the session that only the session holds, and does not overwrite one that only the checkpoint holds. -/
theorem transactions_kept_iff (boot : Boot) (evs : List Event) :
    EveryState step Kept boot.start evs ↔
      EveryStep step (fun w e => (ledger w).Safe (txOp w e)) boot.start evs := by
  refine everyState_iff_everyStep (I := fun _ => True) (fun _ _ _ => trivial) ?_ trivial ?_ evs
  · intro w e _ hkept
    rw [kept_iff, ledger_step]
    exact Ledger.kept_apply_iff ((kept_iff w).mp hkept) (txOp w e)
  · intro p hp
    exact absurd hp List.not_mem_nil

/-- The car is unplugged between the start of transaction 7 and the first step of charging: the session is cleared, and no request to stop the transaction is ever made. -/
theorem transaction_lost :
    ¬ EveryState step Kept freshBoot.start
        (bootEvents ++ startEvents ++ [.process { pilot := ⟨.a, 100⟩, now := 13 }]) := by
  decide +kernel

end Evse.Ocpp
