import Evse.Ocpp.Authorize

/-!
# The connector in its charger

`handler.c` for the responses of the CSMS, `extension_ocpp.c` for the charger's message queue, and everything that can happen to a connector as one event: a call of `connector_process` or of the calls above, a response, a message of the queue, a request of the CSMS. A run is any list of events.
-/

namespace Evse.Ocpp

open StepRun

/-- A `CALLRESULT` of the CSMS, as far as a handler reads it. -/
inductive Response where
  | authorize (idTagInfo : IdTagInfo)
  | startTransaction (idTagInfo : IdTagInfo) (transactionId : Int)
  | stopTransaction
  | other
  deriving DecidableEq

section Handlers

variable (env : Env) (w : World)

/-- `ocpp_get_message_by_id`. -/
def getMessageById (id : Nat) : Option Request := w.outstanding.find? (·.id = id)

/-- `ocpp_charger_mq_send`. -/
def mqSend (msg : ChargerMsg) : World :=
  if env.msgqRoom then { w with msgq := w.msgq ++ [msg] } else w

/-- The first half of `do_auth`: the id the response is taken to be about is the one in the trial slot. -/
def recordAuthorization (info : IdTagInfo) : World :=
  if isSessionPending w then
    let uid := w.session.trial.uid
    let w :=
      { w with
        cache := uidUpdate w.cache uid info.parentIdTag info.status.toUidStatus info.expiryDate
        cacheWrites := w.cacheWrites ++ [(uid, ⟨info.parentIdTag, info.status.toUidStatus, info.expiryDate⟩)] }
    if info.status ≠ .accepted then clearSessionPending w else w
  else w

def doAuth (info : IdTagInfo) : World :=
  dispatchAuthResult env (recordAuthorization w info) info.status.toSessionResult

def doStartTransaction (req : Request) (info : IdTagInfo) (transactionId : Int) : World :=
  if info.status ≠ .accepted then clearSession w
  else
    let w := setSessionCurrentExpiry w info.expiryDate
    let w := setSessionPid w info.parentIdTag
    let w := setTid w transactionId
    let w := mqSend env w (.billingStarted transactionId)
    { w with started := w.started ++ [(req, transactionId)] }

def doStopTransaction : World := mqSend env w .billingEnded

/-- `handler_process`; the decoder takes the type of a response from the request it answers. -/
def handlerProcess (req : Request) (response : Response) : World :=
  match req.payload, response with
  | .authorize _, .authorize info => doAuth env w info
  | .startTransaction .., .startTransaction info transactionId => doStartTransaction env w req info transactionId
  | .stopTransaction .., .stopTransaction => doStopTransaction env w
  | _, _ => w

/-- The request leaves the outstanding ones once it is answered or given up. -/
def dropRequest (id : Nat) : World :=
  { w with outstanding := w.outstanding.filter (·.id ≠ id) }

def receive (id : Nat) (response : Response) : World :=
  match getMessageById w id with
  | none => w
  | some req => handlerProcess env (dropRequest w id) req response

end Handlers

section Queue

variable (env : Env) (w : World)

def procStartTransaction : World :=
  raiseEvent env { w with checkpoint.transactionId := w.session.transactionId } .billingStarted

def procStopTransaction : World :=
  raiseEvent env { w with checkpoint.transactionId := 0 } .billingEnded

/-- The `msg_handlers` of `ext_pre_process`, for one connector. -/
def msgHandler (msg : ChargerMsg) : World :=
  match msg with
  | .availabilityChanged => w
  | .configurationChanged => w
  | .billingStarted _ => procStartTransaction env w
  | .billingEnded => procStopTransaction env w
  | .csmsUp => { w with csmsUp := true }
  | .remoteReset forced => { w with remoteResetRequested := true, remoteResetForced := forced }

/-- `ext_pre_process` takes one message a time. -/
def mqRecv : World :=
  match w.msgq with
  | [] => w
  | msg :: msgs => msgHandler env { w with msgq := msgs } msg

end Queue

/-- What can happen to an OCPP connector. -/
inductive Event where
  | process (env : Env)
  | enable (env : Env)
  | disable
  | setReserved (reserved : Bool)
  | tryOccupy (env : Env) (id : IdToken) (remote : Bool)
  | tryRelease (env : Env) (id : IdToken)
  | occupy (env : Env)
  | release (env : Env) (remote : Bool)
  | receive (env : Env) (id : Nat) (response : Response)
  | drop (id : Nat)
  | mqRecv (env : Env)
  | bootAccepted (env : Env)
  | changeAvailability (env : Env) (available : Bool)
  | changeConfiguration (env : Env)
  | clearCache
  | reset (env : Env) (forced : Bool)
  deriving DecidableEq

/-- The callback of the callers of `ocpp_connector_try_occupy`. -/
def occupyCb (remote : Bool) : ResultCb := if remote then .onRemoteStartResult else .onOccupyResult

def step (w : World) : Event → World
  | .process env => if w.base.enabled then process env w else w
  | .enable env => { w with base := w.base.enable env.toReadings }
  | .disable => { w with base := w.base.disable }
  | .setReserved reserved => { w with base.reserved := reserved }
  | .tryOccupy env id remote => (tryOccupy env w id remote (occupyCb remote)).1
  | .tryRelease env id => (tryRelease env w id .onReleaseResult).1
  | .occupy env => occupy env w
  | .release env remote => release env w remote
  | .receive env id response => receive env w id response
  | .drop id => dropRequest w id
  | .mqRecv env => mqRecv env w
  | .bootAccepted env => mqSend env w .csmsUp
  | .changeAvailability env available =>
      mqSend env { w with checkpoint.unavailable := !available } .availabilityChanged
  | .changeConfiguration env => mqSend env w .configurationChanged
  | .clearCache => { w with cache := fun _ => none }
  | .reset env forced => mqSend env w (.remoteReset forced)

/-- A charger that has just booted: the checkpoint and the stores are what the flash held. `do_auth`, which alone writes the cache, never writes an entry for the all-zero id. -/
structure Boot where
  id : Nat
  param : ConnectorParam
  checkpoint : Checkpoint
  cache : UidStore
  localList : UidStore
  cache_empty : cache .empty = none

def Boot.start (boot : Boot) : World :=
  create boot.id boot.param boot.checkpoint boot.cache boot.localList

/-! ### A session from boot to charging -/

def cardA : IdToken := ⟨[65], by decide, by decide⟩

def cardB : IdToken := ⟨[66], by decide, by decide⟩

/-- A charger out of the box, connected to a CSMS. -/
def freshBoot : Boot :=
  { id := 1, param := ⟨32000, 6000, by decide⟩, checkpoint := {}, cache := fun _ => none,
    localList := fun _ => none, cache_empty := rfl }

/-- The machine comes up and reaches Available. -/
def bootEvents : List Event := [
  .enable {}, .bootAccepted {}, .mqRecv {},
  .process { pilot := ⟨.a, 100⟩, now := 10 }, .process { pilot := ⟨.a, 100⟩, now := 10 }, .drop 0]

/-- Card A is authorized, the car is plugged in and transaction 7 starts. -/
def startEvents : List Event := [
  .tryOccupy { now := 10, trialTime := 10 } cardA false,
  .receive { occupyTime := 10 } 1 (.authorize { status := .accepted }),
  .process { pilot := ⟨.b, 100⟩, now := 11 }, .drop 2,
  .process { pilot := ⟨.b, 100⟩, now := 12 },
  .receive {} 3 (.startTransaction { status := .accepted } 7)]

/-- The car draws power. -/
def chargeEvents : List Event := [
  .process { pilot := ⟨.b, 100⟩, now := 13 },
  .process { pilot := ⟨.c, 53⟩, now := 14 }]

end Evse.Ocpp
