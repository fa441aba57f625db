import Evse.Lib.RowTable
import Evse.Lib.Run

/-!
# The network manager

`netmgr.c` brings a network interface up and keeps it up. Interrupts put the interface's events into a queue; the manager's thread takes them out and then makes one step of the interface's machine, over and over, while other threads turn the manager on and off. The last event taken out stays in the entry, where the guards read it.

The retry bookkeeping is a library of its own, a parameter here. What the machine asks of the interface's driver, the clock and the tasks is answered by the surroundings of the step. The history records what the thread did, for what is said about its order.
-/

namespace Evse.Net

open RowTable StepRun

inductive State where
  | s0 | s1 | s2 | s3 | s4 | s5 | s6
  deriving DecidableEq, Repr

/-- The value of the enumeration. -/
def State.index : State → Nat
  | s0 => 0
  | s1 => 1
  | s2 => 2
  | s3 => 3
  | s4 => 4
  | s5 => 5
  | s6 => 6

/-- `netif_event_t`. -/
inductive NetifEvent where
  | unknown | connected | disconnected | ipAcquired | scanResult | scanDone | started | stopped | any
  deriving DecidableEq, Repr

/-- `netmgr_state_t`, which the manager also dispatches as events. -/
inductive NetmgrState where
  | off | exhausted | initialized | disabled | enabled | disconnected | connected
  deriving DecidableEq, Repr

def NetmgrState.code : NetmgrState → UInt8
  | off => 0x01
  | exhausted => 0x02
  | initialized => 0x04
  | disabled => 0x08
  | enabled => 0x10
  | disconnected => 0x20
  | connected => 0x40

def maskAllEvents : UInt8 := 0xFF
def maxMessages : Nat := 8
def defaultConnectTimeoutMs : UInt32 := 10000
def defaultReenableDelayMs : UInt32 := 1000
def defaultMaxRetry : Nat := 200

/-- The operations of `libmcu/retry.h`. -/
structure RetryApi (ρ : Type) where
  new : ρ
  exhausted : ρ → Bool
  first : ρ → Bool
  getBackoff : ρ → UInt32
  backoff : ρ → UInt16 → ρ
  reset : ρ → ρ

/-- `netmgr_entry`. -/
structure Entry (ρ : Type) where
  priority : Int
  fsm : State
  event : NetifEvent
  retry : ρ
  connTimeoutMs : UInt32
  ts : UInt32
  tsStateChanged : UInt32
  externalState : NetmgrState
  restart : Bool
  errorCount : Nat
  /-- The interface calls `on_netif_event`. -/
  listening : Bool

/-- What the thread did that a run is judged by. -/
inductive Happening where
  | doConnect
  | processed (event : NetifEvent)
  deriving DecidableEq, Repr

/-- Where the thread is: before taking the queued events, or before its step. -/
inductive Phase where
  | waiting | popped
  deriving DecidableEq, Repr

structure Netmgr (ρ : Type) where
  /-- As registered; the picked entry lives on in `current`, and the list is not read again. -/
  netifList : List (Entry ρ) := []
  current : Option (Entry ρ) := none
  msgq : List NetifEvent := []
  taskList : List Nat := []
  healthchkIntervalMs : Nat
  unrecoverableCb : Bool := false
  enabled : Bool := false
  selftestPingRequested : Bool := false
  phase : Phase := .waiting
  history : List Happening := []
  /-- The events given to `dispatch_event`, in order. -/
  dispatched : List NetmgrState := []
  unrecoverableCalls : Nat := 0

/-- What one step of the machine meets: the clock, the answers of the driver's calls, the ping, a random number, and which tasks ask to be run again. -/
structure Surroundings where
  now : UInt32 := 0
  initOk : Bool := true
  enableOk : Bool := true
  disableOk : Bool := true
  connectOk : Bool := true
  disconnectOk : Bool := true
  pingMs : Int := 0
  random : UInt16 := 0
  taskRepeats : Nat → Bool := fun _ => false

/-- What a guard or an action reaches: the manager and the entry being stepped. -/
structure Ctx (ρ : Type) where
  mgr : Netmgr ρ
  entry : Entry ρ

variable {ρ : Type} (api : RetryApi ρ) (env : Surroundings)

/-! ### Events for subscribers -/

def stateEvent : State → NetmgrState
  | .s0 | .s1 => .off
  | .s2 | .s3 => .initialized
  | .s4 | .s5 => .enabled
  | .s6 => .connected

def getEventFromState (entry : Entry ρ) (next prev : State) : NetmgrState :=
  if next = .s0 ∧ api.exhausted entry.retry = true then .exhausted
  else if next = .s2 ∧ prev.index > State.s2.index then .disabled
  else if next = .s4 ∧ prev.index > State.s4.index then .disconnected
  else stateEvent next

def dispatchEvent (m : Netmgr ρ) (event : NetmgrState) : Netmgr ρ :=
  { m with dispatched := m.dispatched ++ [event] }

/-- What the callback registered for a mask is called with. -/
def delivered (mask : UInt8) (dispatched : List NetmgrState) : List NetmgrState :=
  dispatched.filter fun event => mask &&& event.code ≠ 0

def onStateChange (newState prevState : State) (c : Ctx ρ) : Ctx ρ :=
  let event := getEventFromState api c.entry newState prevState
  let entry := { c.entry with tsStateChanged := c.entry.ts }
  if event ≠ entry.externalState then
    let m :=
      if newState.index < prevState.index then
        let m := if prevState.index ≥ State.s6.index then dispatchEvent c.mgr .disconnected else c.mgr
        if prevState.index ≥ State.s4.index then dispatchEvent m .disabled else m
      else c.mgr
    { mgr := dispatchEvent m event, entry := { entry with externalState := event } }
  else { c with entry := entry }

/-! ### Guards -/

section Guards

variable (state : State) (c : Ctx ρ)

def elapsed : UInt32 := c.entry.ts - c.entry.tsStateChanged

def timeout : Bool := elapsed c ≥ c.entry.connTimeoutMs

def isError : Bool :=
  c.mgr.enabled && (api.exhausted c.entry.retry || c.entry.errorCount ≥ defaultMaxRetry)

def isStateS0 : Bool :=
  !c.mgr.enabled || c.entry.restart || api.exhausted c.entry.retry || (state = .s1 && timeout c)

def isStateS1 : Bool := c.mgr.enabled && !isError api c

def isStateS2 : Bool :=
  if state = .s1 then true
  else if state = .s3 ∧ timeout c = true then true
  else c.entry.errorCount ≠ 0

def isStateS3 : Bool := elapsed c ≥ defaultReenableDelayMs

def isStateS4 : Bool :=
  match state with
  | .s3 => true
  | .s5 => timeout c || c.entry.event = .disconnected
  | .s6 => c.entry.event ≠ .ipAcquired
  | _ => false

def isStateS5 : Bool := api.first c.entry.retry || elapsed c ≥ api.getBackoff c.entry.retry

def isStateS6 : Bool := c.entry.event = .ipAcquired

def isPingReq : Bool := c.mgr.selftestPingRequested

def isTaskReq : Bool := !c.mgr.taskList.isEmpty

end Guards

/-! ### Actions -/

section Actions

variable (state : State) (c : Ctx ρ)

def countError : Ctx ρ := { c with entry.errorCount := c.entry.errorCount + 1 }

def doPing : Ctx ρ :=
  let c := { c with mgr.selftestPingRequested := false }
  if env.pingMs < 0 then countError c else c

/-- One-time tasks are run and taken off the list. -/
def doTask : Ctx ρ := { c with mgr.taskList := c.mgr.taskList.filter env.taskRepeats }

def doConnected : Ctx ρ := { c with entry.retry := api.reset c.entry.retry }

def doDisconnect : Ctx ρ := if env.disconnectOk then c else countError c

def doConnect : Ctx ρ :=
  let c := { c with
    entry.retry := api.backoff c.entry.retry env.random
    mgr.history := c.mgr.history ++ [.doConnect] }
  if env.connectOk then c else countError c

def doEnabled : Ctx ρ := c

/-- A driver that fails to disable is only logged. -/
def doDisable : Ctx ρ := if state.index ≥ State.s5.index then doDisconnect env c else c

def doEnable : Ctx ρ :=
  if env.enableOk then { c with entry.errorCount := 0 }
  else countError { c with entry.restart := true }

def doInitialized : Ctx ρ := c

def doOff : Ctx ρ :=
  let c := if state.index ≥ State.s3.index then doDisable env state c else c
  { c with entry.listening := false, entry.restart := false }

def doOn : Ctx ρ :=
  let c := { c with entry.listening := true }
  if env.initOk then c else countError { c with entry.restart := true }

def doReset : Ctx ρ :=
  if c.mgr.unrecoverableCb then { c with mgr.unrecoverableCalls := c.mgr.unrecoverableCalls + 1 } else c

end Actions

def fsmItem (present : State) (guard : State → Ctx ρ → Bool) (action : State → Ctx ρ → Ctx ρ) (next : State) :
    Row State (Ctx ρ) :=
  { present := present, guard := fun s _ c => guard s c, action := some fun s _ c => action s c, next := next }

def transitions : List (Row State (Ctx ρ)) :=
  [ fsmItem .s0 (fun _ => isStateS1 api) (fun _ => doOn env) .s1,
    fsmItem .s0 (fun _ => isError api) (fun _ => doReset) .s0,
    -- Initializing
    fsmItem .s1 (isStateS0 api) (doOff env) .s0,
    fsmItem .s1 isStateS2 (fun _ => doInitialized) .s2,
    -- Initialized or Disabled
    fsmItem .s2 (isStateS0 api) (doOff env) .s0,
    fsmItem .s2 (fun _ => isStateS3) (fun _ => doEnable env) .s3,
    -- Enabling
    fsmItem .s3 (isStateS0 api) (doOff env) .s0,
    fsmItem .s3 isStateS2 (doDisable env) .s2,
    fsmItem .s3 isStateS4 (fun _ => doEnabled) .s4,
    -- Enabled
    fsmItem .s4 (isStateS0 api) (doOff env) .s0,
    fsmItem .s4 isStateS2 (doDisable env) .s2,
    fsmItem .s4 (fun _ => isStateS5 api) (fun _ => doConnect api env) .s5,
    -- Connecting
    fsmItem .s5 (isStateS0 api) (doOff env) .s0,
    fsmItem .s5 isStateS2 (doDisable env) .s2,
    fsmItem .s5 isStateS4 (fun _ => doDisconnect env) .s4,
    fsmItem .s5 (fun _ => isStateS6) (fun _ => doConnected api) .s6,
    -- Connected
    fsmItem .s6 (isStateS0 api) (doOff env) .s0,
    fsmItem .s6 isStateS2 (doDisable env) .s2,
    fsmItem .s6 isStateS4 (fun _ => doDisconnect env) .s4,
    fsmItem .s6 (fun _ => isPingReq) (fun _ => doPing env) .s6,
    fsmItem .s6 (fun _ => isTaskReq) (fun _ => doTask env) .s6 ]

def machine : Machine State (Ctx ρ) where
  rows := transitions api env
  state c := c.entry.fsm
  setState state c := { c with entry.fsm := state }
  stateChanged := onStateChange api

/-! ### The thread and the calls of other threads -/

section Calls

variable (m : Netmgr ρ)

/-- Behind the entries of the same priority. -/
def addNetif (entry : Entry ρ) : List (Entry ρ) → List (Entry ρ)
  | [] => [entry]
  | t :: rest => if entry.priority > t.priority then entry :: t :: rest else t :: addNetif entry rest

def netmgrRegisterIface (priority : Int) : Netmgr ρ :=
  let entry : Entry ρ :=
    { priority := priority, fsm := .s0, event := .unknown, retry := api.new,
      connTimeoutMs := defaultConnectTimeoutMs, ts := 0, tsStateChanged := 0, externalState := .off,
      restart := false, errorCount := 0, listening := false }
  { m with netifList := addNetif entry m.netifList }

def pickNetif : Option (Entry ρ) :=
  match m.current with
  | none => m.netifList.head?
  | some current => some current

/-- An interface that is not listened to raises nothing, and a full queue takes nothing. -/
def onNetifEvent (event : NetifEvent) : Netmgr ρ :=
  match m.current with
  | some entry => if entry.listening ∧ m.msgq.length < maxMessages then { m with msgq := m.msgq ++ [event] } else m
  | none => m

def onPeriodicTimer : Netmgr ρ :=
  if m.healthchkIntervalMs ≠ 0 then { m with selftestPingRequested := true } else m

def processNetifEvent (entry : Entry ρ) (event : NetifEvent) : Entry ρ :=
  let entry :=
    match event with
    | .started | .stopped | .connected | .disconnected | .ipAcquired => entry
    | .unknown | .scanResult | .scanDone | .any => { entry with restart := true }
  { entry with event := event }

/-- The queue is emptied into the entry, if there is one. -/
def processEvent : Netmgr ρ :=
  match m.current with
  | none => m
  | some entry =>
      { m with
        current := some (m.msgq.foldl processNetifEvent entry)
        msgq := []
        history := m.history ++ m.msgq.map .processed }

def process : Netmgr ρ :=
  match pickNetif m with
  | none => m
  | some entry =>
      let c := (machine api env).step { mgr := m, entry := { entry with ts := env.now } }
      { c.mgr with current := some c.entry }

def netmgrConnected : Bool :=
  match m.current with
  | none => false
  | some entry => entry.event = .ipAcquired

def netmgrEnable : Netmgr ρ :=
  { m with
    current := m.current.map fun entry => { entry with retry := api.reset entry.retry, errorCount := 0 }
    enabled := true }

def netmgrDisable : Netmgr ρ := { m with enabled := false }

def netmgrRegisterTask (task : Nat) : Netmgr ρ := { m with taskList := m.taskList ++ [task] }

def netmgrRegisterUnrecoverableCb : Netmgr ρ := { m with unrecoverableCb := true }

end Calls

/-- What can happen to the manager. -/
inductive Op where
  | registerIface (priority : Int)
  | registerTask (task : Nat)
  | registerUnrecoverableCb
  | enable
  | disable
  | netifEvent (event : NetifEvent)
  | timer
  | processEvent
  | process (env : Surroundings)

/-- The thread takes the queue and steps in turn; everything else may come in between. -/
def step (m : Netmgr ρ) : Op → Netmgr ρ
  | .registerIface priority => netmgrRegisterIface api m priority
  | .registerTask task => netmgrRegisterTask m task
  | .registerUnrecoverableCb => netmgrRegisterUnrecoverableCb m
  | .enable => netmgrEnable api m
  | .disable => netmgrDisable m
  | .netifEvent event => onNetifEvent m event
  | .timer => onPeriodicTimer m
  | .processEvent =>
      match m.phase with
      | .waiting => { Net.processEvent m with phase := .popped }
      | .popped => m
  | .process env =>
      match m.phase with
      | .waiting => m
      | .popped => { Net.process api env m with phase := .waiting }

def netmgrInit (healthchkIntervalMs : Nat) : Netmgr ρ := { healthchkIntervalMs := healthchkIntervalMs }

/-! ### A run up to the first connection -/

/-- Retries that are counted, as the library counts them, with a constant delay. -/
def countingRetry : RetryApi Nat where
  new := 0
  exhausted attempts := attempts ≥ defaultMaxRetry
  first attempts := attempts = 0
  getBackoff _ := defaultConnectTimeoutMs
  backoff attempts _ := attempts + 1
  reset _ := 0

/-- One turn of the thread. -/
def turn (now : UInt32) : List Op := [.processEvent, .process { now := now }]

/-- From off to connecting. -/
def turnOn (now : UInt32) : List Op :=
  [.enable] ++ turn now ++ turn now ++ turn (now + defaultReenableDelayMs) ++ turn (now + defaultReenableDelayMs) ++
    turn (now + defaultReenableDelayMs)

/-- An interface is registered, turned on and given an address. -/
def bringUp : List Op := [.registerIface 1] ++ turnOn 0 ++ [.netifEvent .connected, .netifEvent .ipAcquired] ++ turn 1500

end Evse.Net
