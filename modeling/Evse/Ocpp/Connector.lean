import Evse.Ocpp.Session

/-!
# The OCPP connector

`ocpp_connector_internal.c` and the state machine of `ocpp_connector.c`. The machine acts on a `World`: the connector itself together with what its actions reach, the requests to the CSMS and the charger's message queue. The last fields of a `World` are read by nothing: they record what happened, for the properties to speak about.
-/

namespace Evse.Ocpp

open RowTable StepRun

/-- The callbacks that are registered for the result of an authorization. -/
inductive ResultCb where
  | onOccupyResult | onReleaseResult | onRemoteStartResult
  deriving DecidableEq, Repr

/-- The registered callback, and the id presented in the call that registered it. -/
structure AuthCallback where
  cb : ResultCb
  presented : IdToken
  deriving DecidableEq

/-- `struct ocpp_connector`. -/
structure OcppConnector where
  base : Connector OcppState
  checkpoint : Checkpoint
  evtq : List ConnectorEvent
  session : Session
  auth : Option AuthCallback
  now : Int
  csmsUp : Bool
  remoteResetRequested : Bool
  remoteResetForced : Bool

structure World extends OcppConnector where
  cache : UidStore
  localList : UidStore
  msgq : List ChargerMsg
  outstanding : List Request
  nextId : Nat
  /-- How often the session was cleared. -/
  cleared : Nat
  /-- Every request handed to `csms_request`, oldest first. -/
  requests : List Payload
  /-- The results delivered, each with the id presented in the call that asked for it. -/
  delivered : List (IdToken × SessionResult)
  /-- The uid each `ocpp_connector_occupy` left in the session. -/
  occupations : List IdToken
  /-- The trial ids on whose behalf `on_release_result` released. -/
  releases : List IdToken
  cacheWrites : List (IdToken × UidEntry)
  /-- The accepted `StartTransaction.conf`s: the request answered and the transaction id. -/
  started : List (Request × Int)

/-! ### The session -/

section Internal

variable (env : Env) (w : World)

def isTimeExpired : Bool := w.session.expiry ≠ 0 && w.session.expiry ≤ w.now

def isUnavailableSet : Bool := w.checkpoint.unavailable

def isSessionEstablished : Bool := w.session.current.uid ≠ .empty

def isSessionActive : Bool := isSessionEstablished w && !isTimeExpired w

def isTransactionStarted : Bool := w.session.transactionId ≠ 0

def isSessionPending : Bool := w.session.trial.uid ≠ .empty

def hasMissingTransaction : Bool := w.checkpoint.transactionId ≠ 0

def clearSession : World := { w with session := {}, cleared := w.cleared + 1 }

def setSessionCurrentExpiry (expiry : Int) : World :=
  if expiry ≠ 0 then { w with session.expiry := expiry } else w

def setTid (transactionId : Int) : World := { w with session.transactionId := transactionId }

/-- A parent id that starts with NUL is no parent id. -/
def setSessionPid (pid : IdToken) : World :=
  if pid ≠ .empty then { w with session.current.pid := pid } else w

def setSessionUid (uid : IdToken) : World := { w with session.current.uid := uid }

def setSessionPending (uid : IdToken) : World :=
  { w with session.trial.uid := uid, session.authTimestamp := env.trialTime }

def clearSessionPending : World := { w with session.trial := {} }

def raiseEvent (event : ConnectorEvent) : World :=
  if env.evtqRoom then { w with evtq := w.evtq ++ [event] } else w

def getStopReason (state : OcppState) : StopReason :=
  if state ≠ .charging ∧ state ≠ .suspendedEV then .powerLoss
  else if w.base.isStateX env.toReadings .a then .evDisconnected
  else if !isSessionEstablished w then
    if w.session.remoteStop then .remote else .localStop
  else if isEmergencyStop env.safety then .emergencyStop
  else if w.remoteResetRequested then
    if w.remoteResetForced then .hardReset else .softReset
  else .other

end Internal

/-! ### Requests -/

section Requests

variable (env : Env) (w : World)

/-- `csms_request` for this connector. A request that cannot be queued is one that is dropped at once. -/
def csmsRequest (payload : Payload) : World :=
  { w with
    outstanding := w.outstanding ++ [⟨w.nextId, payload, w.cleared⟩]
    nextId := w.nextId + 1
    requests := w.requests ++ [payload] }

/-- `ocpp_count_pending_requests`. -/
def countPendingRequests : Nat := w.outstanding.length + env.pendingOthers

/-- `do_authorize`: the idTag is the trial id. -/
def doAuthorize : Payload := .authorize w.session.trial.uid

def doStarttransaction : Payload :=
  .startTransaction w.base.id w.session.current.uid w.session.metering.startWh w.now w.session.reservationId

def doStoptransaction (reason : StopReason) : Payload :=
  .stopTransaction (if isSessionPending w then w.session.trial.uid else w.session.current.uid)
    w.session.metering.stopWh w.now w.session.transactionId reason

def doStatusnotification (info : Option String) : Payload :=
  .statusNotification w.base.id w.base.fsm (mapErrorToOcpp w.base.error) w.now info

def doMetervalue (measurands : Nat) : Payload :=
  .meterValues w.base.id w.session.transactionId w.now measurands w.session.metering

def sendConnectorStatus (info : Option String) : World := csmsRequest w (doStatusnotification w info)

/-- The reads of `update_metering_core`. -/
def SessionMetering.read (v : SessionMetering) (meter : Meter) : SessionMetering :=
  { v with
    wh := meter.energy.getD v.wh
    watt := meter.power.getD v.watt
    milliamp := meter.current.getD v.milliamp
    millivolt := meter.voltage.getD v.millivolt
    pfCenti := meter.powerFactor.getD v.pfCenti
    centiHertz := meter.frequency.getD v.centiHertz }

/-- `update_metering_core`, over the session's metering; `timestamp` is the field the pointer is to. -/
def updateMeteringCore (timestamp : Int) (setTimestamp : Int → SessionMetering) (interval : Nat)
    (context : ReadingContext) : Option SessionMetering :=
  if interval = 0 ∨ w.now < timestamp + interval then none
  else some (SessionMetering.read { setTimestamp w.now with context := context } env.meter)

/-- `ocpp_connector_update_metering`: the metering to keep and the measurands to send, if any. -/
def updateMetering : Option SessionMetering :=
  let v := w.session.metering
  updateMeteringCore env w v.timeSamplePeriodic (fun t => { v with timeSamplePeriodic := t })
    env.config.meterValueSampleInterval .samplePeriodic

def updateMeteringClockAligned : Option SessionMetering :=
  let v := w.session.metering
  if env.config.clockAlignedDataInterval = 0 ∨ w.now.tmod env.config.clockAlignedDataInterval ≠ 0 then none
  else
    updateMeteringCore env w v.timeClockPeriodic (fun t => { v with timeClockPeriodic := t })
      env.config.clockAlignedDataInterval .sampleClock

/-- One half of `send_metering`: keep the metering and send it unless there is nothing to send. -/
def sendMeterValues (updated : Option SessionMetering) (measurands : Nat) : World :=
  match updated with
  | none => w
  | some v =>
      let w := { w with session.metering := v }
      if measurands ≠ 0 then csmsRequest w (doMetervalue w measurands) else w

def sendMetering : World :=
  let w := sendMeterValues w (updateMetering env w) env.config.meterValuesSampledData
  sendMeterValues w (updateMeteringClockAligned env w) env.config.meterValuesAlignedData

end Requests

/-! ### Guards -/

section Guards

variable (env : Env)

def idleDuty : Nat := 100

def isBooting (_ : OcppState) (w : World) : Bool :=
  Connector.getActualDuty env.toReadings ≠ idleDuty || w.base.getTargetDuty ≠ idleDuty

def isAvailable (_ : OcppState) (w : World) : Bool :=
  w.csmsUp && w.base.isStateX env.toReadings .a && !isSessionActive w

def isPreparing (_ : OcppState) (w : World) : Bool :=
  w.csmsUp && (w.base.isStateX env.toReadings .b || (w.base.isStateX env.toReadings .a && isSessionActive w))

def isCharging (state : OcppState) (w : World) : Bool :=
  if state = .preparing then
    w.base.isStateX env.toReadings .b && isSessionEstablished w && isTransactionStarted w
  else if state = .suspendedEV then
    w.base.isStateX2 env.toReadings .c || w.base.isStateX2 env.toReadings .d
  else
    w.base.isStateX2 env.toReadings .c || w.base.isStateX2 env.toReadings .d ||
      (isSessionEstablished w && isTransactionStarted w)

def isChargingRdy (state : OcppState) (w : World) : Bool :=
  if state ≠ .preparing then false
  else
    w.base.isStateX env.toReadings .b && isSessionActive w && !isTransactionStarted w &&
      countPendingRequests env w = 0

def isSuspendedEV (state : OcppState) (w : World) : Bool :=
  if state ≠ .charging ∧ state ≠ .suspendedEV then false else w.base.isStateX env.toReadings .b

def isFinishing (state : OcppState) (w : World) : Bool :=
  if state ≠ .suspendedEV ∧ state ≠ .charging then false
  else
    w.remoteResetRequested || w.base.isStateX env.toReadings .a || w.base.isStateX env.toReadings .e ||
      w.base.isStateX env.toReadings .f || !isSessionEstablished w

def isReserved (_ : OcppState) (w : World) : Bool := w.base.reserved

def isUnavailable (_ : OcppState) (w : World) : Bool :=
  w.csmsUp && !w.base.isStateX env.toReadings .f && isUnavailableSet w

def isFaulted (state : OcppState) (w : World) : Bool := w.base.isEvseError env.toReadings (mapStateToCommon state)

end Guards

/-! ### Actions -/

section Actions

variable (env : Env)

/-- `metering_get_energy` into the session's `start_wh`. -/
def readStartEnergy (w : World) : World :=
  { w with session.metering.startWh := env.meter.energy.getD w.session.metering.startWh }

def readStopEnergy (w : World) : World :=
  { w with session.metering.stopWh := env.meter.energy.getD w.session.metering.stopWh }

def doBoot (_ : OcppState) (w : World) : World := { w with base := w.base.stopDuty }

/-- Closes the transaction that the checkpoint remembers from before a power loss. -/
def doMissingTransaction (state : OcppState) (w : World) : World :=
  if state ≠ .booting then w
  else if hasMissingTransaction w then
    let reason := getStopReason env w state
    let w := readStopEnergy env (setTid w w.checkpoint.transactionId)
    clearSession (csmsRequest w (doStoptransaction w reason))
  else w

def doAvailable (state : OcppState) (w : World) : World :=
  let w := if state = .preparing ∧ isSessionEstablished w = false then raiseEvent env w .unplugged else w
  let w := clearSession (sendConnectorStatus w none)
  let w := doMissingTransaction env state w
  { w with base.occupied := false }

def doPreparing (state : OcppState) (w : World) : World :=
  let w := if state ≠ .finishing then sendConnectorStatus w none else w
  let w := doMissingTransaction env state w
  { w with base.occupied := true }

def doRequestTid (_ : OcppState) (w : World) : World :=
  let w := readStartEnergy env w
  let w := csmsRequest w (doStarttransaction w)
  setSessionCurrentExpiry w w.now

def doCharging (state : OcppState) (w : World) : World :=
  if state = .charging then
    let w :=
      if w.base.isSupplyingPower then w
      else sendConnectorStatus { w with base := w.base.enablePowerSupply } none
    sendMetering env w
  else if state = .preparing then { w with base := w.base.startDuty }
  else sendMetering env w

def doSuspendedEV (state : OcppState) (w : World) : World :=
  let w := if state = .charging then { w with base := w.base.disablePowerSupply } else w
  sendConnectorStatus w none

def doFinishing (state : OcppState) (w : World) : World :=
  let w :=
    if state = .charging ∨ state = .suspendedEV then
      let reason := getStopReason env w state
      let w := if state = .charging then { w with base := w.base.disablePowerSupply } else w
      let w := readStopEnergy env w
      csmsRequest w (doStoptransaction w reason)
    else w
  let w := { w with base := w.base.stopDuty }
  clearSession (sendConnectorStatus w none)

def doReserved (_ : OcppState) (w : World) : World := sendConnectorStatus w none

def doUnavailable (state : OcppState) (w : World) : World :=
  doMissingTransaction env state (clearSession (sendConnectorStatus w none))

def doFaulted (_ : OcppState) (w : World) : World :=
  clearSession (sendConnectorStatus w (if isEmergencyStop env.safety then some "EmergencyStop" else none))

end Actions

/-! ### The machine -/

/-- `FSM_ITEM`: no guard and no action looks at the next state. -/
abbrev item (present : OcppState) (guard : OcppState → World → Bool) (action : OcppState → World → World)
    (next : OcppState) : Row OcppState World :=
  ⟨present, fun state _ => guard state, some fun state _ => action state, next⟩

def transitions (env : Env) : List (Row OcppState World) := [
  item .booting (isBooting env) doBoot .booting,
  item .booting (isUnavailable env) (doUnavailable env) .unavailable,
  item .booting (isAvailable env) (doAvailable env) .available,
  item .booting (isPreparing env) (doPreparing env) .preparing,
  item .available (isFaulted env) (doFaulted env) .faulted,
  item .available (isUnavailable env) (doUnavailable env) .unavailable,
  item .available (isPreparing env) (doPreparing env) .preparing,
  item .available isReserved doReserved .reserved,
  item .preparing (isFaulted env) (doFaulted env) .faulted,
  item .preparing (isUnavailable env) (doUnavailable env) .unavailable,
  item .preparing (isAvailable env) (doAvailable env) .available,
  item .preparing (isChargingRdy env) (doRequestTid env) .preparing,
  item .preparing (isCharging env) (doCharging env) .charging,
  item .preparing (isFinishing env) (doFinishing env) .finishing,
  item .charging (isSuspendedEV env) doSuspendedEV .suspendedEV,
  item .charging (isFinishing env) (doFinishing env) .finishing,
  item .charging (isCharging env) (doCharging env) .charging,
  item .suspendedEV (isCharging env) (doCharging env) .charging,
  item .suspendedEV (isFinishing env) (doFinishing env) .finishing,
  item .suspendedEV (isSuspendedEV env) (doCharging env) .suspendedEV,
  item .finishing (isFaulted env) (doFaulted env) .faulted,
  item .finishing (isUnavailable env) (doUnavailable env) .unavailable,
  item .finishing (isAvailable env) (doAvailable env) .available,
  item .finishing (isPreparing env) (doPreparing env) .preparing,
  item .reserved (isFaulted env) (doFaulted env) .faulted,
  item .reserved (isUnavailable env) (doUnavailable env) .unavailable,
  item .reserved (isAvailable env) (doAvailable env) .available,
  item .reserved (isPreparing env) (doPreparing env) .preparing,
  ⟨.unavailable, fun state _ => isUnavailable env state, none, .unavailable⟩,
  item .unavailable (isFaulted env) (doFaulted env) .faulted,
  item .unavailable (isAvailable env) (doAvailable env) .available,
  item .unavailable (isPreparing env) (doPreparing env) .preparing,
  ⟨.faulted, fun state _ => isFaulted env state, none, .faulted⟩,
  item .faulted (isUnavailable env) (doUnavailable env) .unavailable,
  item .faulted (isAvailable env) (doAvailable env) .available,
  item .faulted (isPreparing env) (doPreparing env) .preparing]

/-- From, to, whether the connector is plugged, and the events. -/
def eventTable : List (OcppState × OcppState × Bool × ConnectorEvent) := [
  (.available, .preparing, true, .plugged ||| .occupied),
  (.available, .preparing, false, .occupied),
  (.available, .reserved, false, .reserved),
  (.available, .faulted, false, .error),
  (.preparing, .available, false, .unoccupied),
  (.preparing, .charging, true, .chargingStarted),
  (.preparing, .suspendedEV, true, .chargingSuspended),
  (.preparing, .faulted, true, .error),
  (.charging, .finishing, false, .chargingEnded),
  (.charging, .finishing, true, .chargingEnded),
  (.charging, .suspendedEV, true, .chargingSuspended),
  (.suspendedEV, .charging, true, .chargingStarted),
  (.suspendedEV, .finishing, true, .chargingEnded),
  (.suspendedEV, .finishing, false, .chargingEnded),
  (.finishing, .available, false, .unplugged ||| .unoccupied),
  (.finishing, .faulted, false, .error ||| .unplugged ||| .unoccupied),
  (.finishing, .faulted, true, .error),
  (.reserved, .available, false, .unoccupied),
  (.reserved, .preparing, true, .plugged),
  (.faulted, .available, false, .errorRecovery),
  (.faulted, .preparing, true, .errorRecovery)]

def getEventFromStateChange (newState prevState : OcppState) (plugged : Bool) : ConnectorEvent :=
  match eventTable.find? fun row => row.1 = prevState && row.2.1 = newState && row.2.2.1 = plugged with
  | some row => row.2.2.2
  | none => .none

/-- The event set is the given one together with all the events queued. -/
def dispatchEvent (event : ConnectorEvent) (w : World) : World :=
  let events := w.evtq.foldl (· ||| ·) event
  let w := { w with evtq := [] }
  if events ≠ 0 then { w with base := w.base.callback events } else w

def onStateChange (env : Env) (newState prevState : OcppState) (w : World) : World :=
  let cpState := w.base.state env.toReadings
  let w := { w with base.timeLastStateChange := env.changeTime }
  dispatchEvent (getEventFromStateChange newState prevState (Connector.isOccupiedState cpState)) w

def machine (env : Env) : Machine OcppState World where
  rows := transitions env
  state w := w.base.fsm
  setState state w := { w with base.fsm := state }
  stateChanged := onStateChange env

def stampNow (env : Env) (w : World) : World := { w with now := env.now }

/-- `process`, up to the metering it drives. -/
def process (env : Env) (w : World) : World :=
  dispatchEvent .none ((machine env).step (stampNow env w))

/-- `ocpp_connector_create` after the charger has attached it and linked its checkpoint. -/
def create (id : Nat) (param : ConnectorParam) (checkpoint : Checkpoint) (cache localList : UidStore) : World where
  base := { Connector.create param .booting with id := id }
  checkpoint := checkpoint
  evtq := []
  session := {}
  auth := none
  now := 0
  csmsUp := false
  remoteResetRequested := false
  remoteResetForced := false
  cache := cache
  localList := localList
  msgq := []
  outstanding := []
  nextId := 0
  cleared := 0
  requests := []
  delivered := []
  occupations := []
  releases := []
  cacheWrites := []
  started := []

end Evse.Ocpp
