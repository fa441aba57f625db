import Evse.Ocpp.System
import Evse.Updater.Process
import Mathlib.Algebra.Ring.Nat

/-!
# The charger and its connectors

`charger.c`, `ocpp_charger.c`, `extension_ocpp.c` and the handlers of `handler.c` that concern the charger. An iteration of `charger_process` lets the OCPP library handle one incoming message, takes one message from the charger's queue, steps every enabled connector in the order of their attachment, and then sees to a pending reboot.

The connectors are worlds of their own. What they share is shared here: the count of pending requests, the cache, and the charger's queue, into which a handler's message goes instead of the one the world has for a connector alone.
-/

namespace Evse.Ocpp

open StepRun

/-- `ocpp_charger_reboot_t`. -/
inductive Reboot where
  | none | required | requiredRemotely | forced
  deriving DecidableEq, Repr

/-- `ocpp_charger_event_t`. -/
inductive ChargerEvent where
  | rebootRequired | configurationChanged | checkpointChanged
  deriving DecidableEq, Repr

/-- `ocpp_availability_status_t`. -/
inductive AvailabilityStatus where
  | accepted | rejected | scheduled
  deriving DecidableEq, Repr

/-- The `value` of a message in the queue, where it points to something: `CONNECTOR_0`, or the connector at that place. -/
inductive MsgValue where
  | null | connector0 | connector (place : Nat)
  deriving DecidableEq, Repr

/-- `struct ocpp_charger_msg`. -/
structure QueuedMsg where
  msg : ChargerMsg
  value : MsgValue := .null
  deriving DecidableEq, Repr

/-- `MAX_MESSAGES`. -/
def maxMessages : Nat := 4

/-- `CSMS_REBOOT_TRIGGER_DOWNTIME_SEC`. -/
def csmsRebootTriggerDowntimeSec : Nat := 60 * 60 * 24

/-- `struct ocpp_charger`. Requests that are sent for no connector are only counted. -/
structure Charger where
  connectors : List World
  msgq : List QueuedMsg
  unavailable : Bool
  rebootRequired : Reboot
  pendingOwn : Nat
  /-- The events dispatched, oldest first. -/
  events : List ChargerEvent

/-- A message that `ocpp_step` hands to `handler_process`. -/
inductive Incoming where
  | response (place : Nat) (env : Env) (id : Nat) (response : Response)
  | bootNotificationConf (accepted : Bool)
  | otherConf
  | changeAvailability (connectorId : Int) (inoperative : Bool)
  | changeConfiguration (stored : Bool)
  | clearCache
  | remoteStart (env : Env) (readings : Nat → Readings) (connectorId : Int) (idTag : IdToken)
  | remoteStop (env : Env) (transactionId : Int)
  | reset (hard : Bool)
  | otherCall

/-- The readings of a connector, with that many requests pending besides its own. -/
def Env.amid (env : Env) (pendingOthers : Nat) : Env := { env with pendingOthers := pendingOthers }

namespace Charger

variable (c : Charger)

/-- `ext_init` requests the boot notification. -/
def create (boots : List Boot) : Charger :=
  { connectors := boots.map Boot.start, msgq := [], unavailable := false, rebootRequired := .none, pendingOwn := 1,
    events := [] }

def getPendingRebootType : Reboot := c.rebootRequired

def requestReboot (type : Reboot) : Charger := { c with rebootRequired := type }

def dispatchEvent (event : ChargerEvent) : Charger := { c with events := c.events ++ [event] }

/-- A `csms_request` without a connector. -/
def csmsRequest : Charger := { c with pendingOwn := c.pendingOwn + 1 }

/-- `ocpp_count_pending_requests`. -/
def countPendingRequests : Nat := c.pendingOwn + (c.connectors.map (·.outstanding.length)).sum

def mqRoom : Bool := c.msgq.length < maxMessages

def mqSend (msg : QueuedMsg) : Charger := if c.mqRoom then { c with msgq := c.msgq ++ [msg] } else c

/-! ### Connectors -/

def connectorById (id : Int) : Option Nat := c.connectors.findIdx? (·.base.id = id)

/-- Each connector has readings of its own. -/
def connectorAvailable (readings : Nat → Readings) : Option Nat :=
  c.connectors.zipIdx.findIdx? fun p => p.1.base.enabled && !p.1.base.isOccupied (readings p.2)

def hasTransaction (w : World) (transactionId : Int) : Bool :=
  w.session.transactionId = transactionId || w.checkpoint.transactionId = transactionId

/-- The iteration goes through all connectors, so the last one that has the transaction is found. -/
def connectorByTid (transactionId : Int) : Option Nat :=
  c.connectors.zipIdx.foldl (fun found p => if hasTransaction p.1 transactionId then some p.2 else found) none

/-- The connector at a place after a call that gave it this world: its message goes to the charger's queue, and the others see the cache it left. -/
def put (place : Nat) (w : World) : Charger :=
  { c with
    connectors := (c.connectors.set place { w with msgq := [] }).map fun other => { other with cache := w.cache }
    msgq := c.msgq ++ w.msgq.map fun msg => ⟨msg, .connector place⟩ }

/-- A call on the connector at a place, if there is one. -/
def on (place : Nat) (call : World → World) : Charger :=
  match c.connectors[place]? with
  | none => c
  | some w => c.put place (call w)

def iterateConnectors (cb : World → World) : Charger := { c with connectors := c.connectors.map cb }

/-! ### Incoming messages -/

def setAvailability (available : Bool) (w : World) : World := { w with checkpoint.unavailable := !available }

def doChangeAvailability (connectorId : Int) (unavailable : Bool) : Charger × AvailabilityStatus :=
  if connectorId = 0 then
    let charging := c.connectors.any fun w => w.base.fsm = .charging || w.base.fsm = .suspendedEV
    let status := if unavailable && charging then .scheduled else .accepted
    let c := c.iterateConnectors (setAvailability !unavailable)
    (mqSend { c with unavailable := unavailable } ⟨.availabilityChanged, .connector0⟩, status)
  else if c.unavailable then (c, .rejected)
  else
    match c.connectorById connectorId with
    | none => (c, .accepted)
    | some place =>
        if c.connectors[place]?.any fun w => isUnavailableSet w ≠ unavailable then
          ((c.on place (setAvailability !unavailable)).mqSend ⟨.availabilityChanged, .null⟩, .accepted)
        else (c, .accepted)

def doRemoteStart (env : Env) (readings : Nat → Readings) (connectorId : Int) (idTag : IdToken) : Charger × Bool :=
  match if connectorId = 0 then c.connectorAvailable readings else c.connectorById connectorId with
  | none => (c, false)
  | some place =>
      match c.connectors[place]? with
      | none => (c, false)
      | some w =>
          let result := tryOccupy env w idTag true .onRemoteStartResult
          (c.put place result.1, result.2 = .ok)

def doRemoteStop (env : Env) (transactionId : Int) : Charger × Bool :=
  match c.connectorByTid transactionId with
  | none => (c, false)
  | some place => (c.on place fun w => release env w true, true)

def doReset (hard : Bool) : Charger :=
  (c.requestReboot (if hard then .forced else .requiredRemotely)).mqSend ⟨.remoteReset hard, .null⟩

/-- The cache of the connector with id 1, which all share. -/
def doClearCache : Charger :=
  match c.connectorById 1 with
  | none => c
  | some place => c.on place fun w => { w with cache := fun _ => none }

/-- The answer to a request that was sent for no connector. -/
def answered : Charger := { c with pendingOwn := c.pendingOwn - 1 }

/-- A boot notification that is not accepted is requested again. -/
def doBootnoti (accepted : Bool) : Charger :=
  if accepted then c.answered.mqSend ⟨.csmsUp, .null⟩ else c.answered.csmsRequest

def handlerProcess (incoming : Incoming) : Charger :=
  match incoming with
  | .response place env id response => c.on place fun w => receive { env with msgqRoom := c.mqRoom } w id response
  | .bootNotificationConf accepted => c.doBootnoti accepted
  | .otherConf => c.answered
  | .changeAvailability connectorId inoperative => (c.doChangeAvailability connectorId inoperative).1
  | .changeConfiguration stored => if stored then c.mqSend ⟨.configurationChanged, .null⟩ else c
  | .clearCache => c.doClearCache
  | .remoteStart env readings connectorId idTag => (c.doRemoteStart env readings connectorId idTag).1
  | .remoteStop env transactionId => (c.doRemoteStop env transactionId).1
  | .reset hard => c.doReset hard
  | .otherCall => c

/-- `ocpp_step`: at most one incoming message, and the library's own heartbeat. -/
def ocppStep (incoming : Option Incoming) (heartbeat : Bool) : Charger :=
  let c := incoming.elim c c.handlerProcess
  if heartbeat then c.csmsRequest else c

/-! ### The queue -/

def procAvailability (value : MsgValue) : Charger :=
  let c := if value = .connector0 then c.csmsRequest else c
  c.dispatchEvent .checkpointChanged

/-- The `msg_handlers`; what they do to a connector is `msgHandler`. -/
def procMsg (env : Env) (queued : QueuedMsg) : Charger :=
  match queued.msg, queued.value with
  | .availabilityChanged, value => c.procAvailability value
  | .configurationChanged, _ => c.dispatchEvent .configurationChanged
  | .billingStarted transactionId, .connector place => c.on place (msgHandler env · (.billingStarted transactionId))
  | .billingEnded, .connector place => c.on place (msgHandler env · .billingEnded)
  | .csmsUp, _ => (c.iterateConnectors (msgHandler env · .csmsUp)).csmsRequest
  | .remoteReset forced, _ => c.iterateConnectors (msgHandler env · (.remoteReset forced))
  | .billingStarted _, _ | .billingEnded, _ => c

def mqRecv (env : Env) : Charger :=
  match c.msgq with
  | [] => c
  | queued :: msgs => procMsg { c with msgq := msgs } env queued

/-! ### An iteration -/

/-- `connector_process`, which a connector that is not enabled refuses. -/
def connectorProcess (env : Env) (w : World) : World := Ocpp.step w (.process env)

/-- `connector_process` of each connector in turn. `pending` counts the requests besides those of the connectors still to come. -/
def processConnectors (envs : Nat → Env) (pending : Nat) : List World → List World
  | [] => []
  | w :: ws =>
      let w := connectorProcess ((envs 0).amid (pending + (ws.map (·.outstanding.length)).sum)) w
      w :: processConnectors (fun n => envs (n + 1)) (pending + w.outstanding.length) ws

/-- The state check of `ext_post_process`. -/
def isCharging : Bool :=
  c.connectors.any fun w => w.base.fsm = .charging || w.base.fsm = .suspendedEV || w.base.fsm = .suspendedEVSE

def postProcess (downtime : Nat) : Charger :=
  if c.getPendingRebootType = .none then
    if downtime > csmsRebootTriggerDowntimeSec then c.requestReboot .required else c
  else if c.countPendingRequests = 0 then
    if c.getPendingRebootType = .required ∧ c.isCharging = true then c else c.dispatchEvent .rebootRequired
  else c

/-- What one call of `charger_process` meets: the message that has come in, the readings of each connector, the time the CSMS has been down. -/
structure Iteration where
  incoming : Option Incoming := none
  heartbeat : Bool := false
  queueEnv : Env := {}
  envs : Nat → Env := fun _ => {}
  downtime : Nat := 0

def preProcess (it : Iteration) : Charger := (c.ocppStep it.incoming it.heartbeat).mqRecv it.queueEnv

def process (it : Iteration) : Charger :=
  let c := c.preProcess it
  let c := { c with connectors := processConnectors it.envs c.pendingOwn c.connectors }
  c.postProcess it.downtime

/-- `on_updater_event`: the states of `evtbl` that are not idle are notified. -/
def onUpdaterEvent (event : UpdaterEvent) : Charger :=
  match event with
  | .errorPreparing | .errorDownloading | .errorWriting | .startDownloading | .downloaded | .startInstalling
  | .errorInstalling | .installed => c.csmsRequest
  | .rebootRequired => c.requestReboot .required
  | .none | .downloading | .errorTimeout | .error => c

end Charger

/-- The calls that reach a connector past the charger. -/
inductive LocalCall where
  | enable (env : Env)
  | disable
  | setReserved (reserved : Bool)
  | tryOccupy (env : Env) (id : IdToken)
  | tryRelease (env : Env) (id : IdToken)
  | release (env : Env)

def LocalCall.event : LocalCall → Event
  | .enable env => .enable env
  | .disable => .disable
  | .setReserved reserved => .setReserved reserved
  | .tryOccupy env id => .tryOccupy env id false
  | .tryRelease env id => .tryRelease env id
  | .release env => .release env false

/-- What can happen to a charger: an iteration, an event of the updater, a call on a connector. -/
inductive ChargerOp where
  | process (it : Charger.Iteration)
  | updaterEvent (event : UpdaterEvent)
  | connector (place : Nat) (call : LocalCall)

def Charger.step (c : Charger) : ChargerOp → Charger
  | .process it => c.process it
  | .updaterEvent event => c.onUpdaterEvent event
  | .connector place call => c.on place fun w => Ocpp.step w call.event

end Evse.Ocpp
