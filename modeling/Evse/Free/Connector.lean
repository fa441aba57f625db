import Evse.Connector
import Evse.Lib.Run
import Evse.Lib.RowTable
import Mathlib.Algebra.Ring.Int.Defs

/-!
# The free connector

`free_connector.c`: a connector that charges whoever plugs in. Its machine follows the pilot; the table below has the rows of the source in the order of the source, and the order is what decides between a row the pilot enables and the row for an EVSE error.
-/

namespace Evse.Free

open RowTable StepRun

/-- The free connector's machine has the connector's own states. -/
abbrev FreeConnector := Connector ConnectorState

section Guards

variable (r : Readings) (state : ConnectorState) (c : FreeConnector)

def isInitial : Bool := state = .e && c.getTargetDuty = 0 && Connector.getActualDuty r = 0

def isStateA : Bool := c.isStateX r .a
def isStateB : Bool := c.isStateX r .b
def isStateC : Bool := c.isStateX r .c
def isStateC2 : Bool := c.isStateX2 r .c
def isStateD2 : Bool := c.isStateX2 r .d
def isStateD : Bool := c.isStateX r .d
def isStateE : Bool := c.isStateX r .e
def isStateF : Bool := c.isEvseError r state

/-- `is_recovered`; the elapsed time is cut to 32 bits. -/
def isRecovered : Bool :=
  if !isInputPowerOk r.safety || isEmergencyStop r.safety then false
  else Connector.isEvResponseTimeout ((r.guardTime - c.timeLastStateChange) % 2 ^ 32).toNat

end Guards

section Actions

variable (r : Readings) (c : FreeConnector)

def doError : FreeConnector :=
  let stopped := if c.isSupplyingPower then c.disablePowerSupply else c
  stopped.goFault

def doStopPwm : FreeConnector := c.stopDuty

def doStartPwm : FreeConnector := c.startDuty

def doSupplyPower : FreeConnector := if c.isSupplyingPower then c else c.enablePowerSupply

def doStopPower : FreeConnector := if c.isSupplyingPower then c.disablePowerSupply else c

def doStopAll : FreeConnector := (doStopPower c).stopDuty

def doUnexpected : FreeConnector := { c.goFault with error := .evseSide }

def doEvseError : FreeConnector :=
  { doError c with error := if isEmergencyStop r.safety then .emergencyStop else .evseSide }

def doEvError : FreeConnector := { doError c with error := .evSide }

end Actions

/-- `FSM_ITEM` for a guard and an action that do not look at the states. -/
abbrev item (present : ConnectorState) (guard : FreeConnector → Bool)
    (action : FreeConnector → FreeConnector) (next : ConnectorState) : Row ConnectorState FreeConnector :=
  ⟨present, fun _ _ => guard, some fun _ _ => action, next⟩

def transitions (r : Readings) : List (Row ConnectorState FreeConnector) := [
  ⟨.e, fun state _ => isInitial r state, some fun _ _ => doStopPwm, .a⟩,

  item .a (isStateB r) doStartPwm .b,
  item .a (isStateC r) doUnexpected .f,
  item .a (isStateD r) doUnexpected .f,
  item .a (isStateE r) doUnexpected .f,
  ⟨.a, fun state _ => isStateF r state, some fun _ _ => doEvseError r, .f⟩,

  item .b (isStateA r) doStopPwm .a,
  item .b (isStateC2 r) doSupplyPower .c,
  item .b (isStateD2 r) doSupplyPower .d,
  item .b (isStateE r) doEvError .f,
  ⟨.b, fun state _ => isStateF r state, some fun _ _ => doEvseError r, .f⟩,

  item .c (isStateA r) doStopAll .a,
  item .c (isStateB r) doStopPower .b,
  ⟨.c, fun _ _ => isStateD r, none, .d⟩,
  item .c (isStateE r) doEvError .f,
  ⟨.c, fun state _ => isStateF r state, some fun _ _ => doEvseError r, .f⟩,

  item .d (isStateA r) doStopAll .a,
  item .d (isStateB r) doStopPower .b,
  ⟨.d, fun _ _ => isStateC r, none, .c⟩,
  item .d (isStateE r) doEvError .f,
  ⟨.d, fun state _ => isStateF r state, some fun _ _ => doEvseError r, .f⟩,

  item .f (isStateA r) doUnexpected .f,
  item .f (isStateB r) doUnexpected .f,
  item .f (isStateC r) doUnexpected .f,
  item .f (isStateD r) doUnexpected .f,
  item .f (isStateE r) doUnexpected .f,
  item .f (isRecovered r) doStopPwm .a]

def eventTable : List (ConnectorState × ConnectorState × ConnectorEvent) := [
  (.a, .b, .plugged),
  (.a, .f, .error),
  (.b, .a, .unplugged),
  (.b, .c, .chargingStarted),
  (.b, .d, .chargingStarted),
  (.b, .f, .error),
  (.c, .a, .chargingEnded ||| .unplugged),
  (.c, .b, .chargingEnded),
  (.c, .d, .none),
  (.c, .e, .chargingEnded ||| .error),
  (.c, .f, .chargingEnded ||| .error),
  (.d, .a, .chargingEnded ||| .unplugged),
  (.d, .b, .chargingEnded),
  (.d, .c, .none),
  (.d, .e, .chargingEnded ||| .error),
  (.d, .f, .chargingEnded ||| .error),
  (.e, .f, .error),
  (.f, .a, .errorRecovery),
  (.f, .b, .errorRecovery ||| .plugged)]

def getEventFromStateChange (newState oldState : ConnectorState) : ConnectorEvent :=
  match eventTable.find? fun row => row.1 = oldState && row.2.1 = newState with
  | some row => row.2.2
  | none => .none

def onStateChange (r : Readings) (newState prevState : ConnectorState) (c : FreeConnector) : FreeConnector :=
  let c := { c with timeLastStateChange := r.changeTime }
  let events := getEventFromStateChange newState prevState
  if events ≠ 0 then c.callback events else c

def machine (r : Readings) : Machine ConnectorState FreeConnector where
  rows := transitions r
  state := Connector.fsm
  setState state c := { c with fsm := state }
  stateChanged := onStateChange r

/-- `process`, up to the metering it drives. -/
def process (r : Readings) (c : FreeConnector) : FreeConnector := (machine r).step c

/-- What can happen to a free connector. -/
inductive Event where
  | process (r : Readings)
  | enable (r : Readings)
  | disable
  deriving DecidableEq

/-- `connector_process`, `connector_enable` and `connector_disable`. -/
def step (c : FreeConnector) : Event → FreeConnector
  | .process r => if c.enabled then process r c else c
  | .enable r => c.enable r
  | .disable => c.disable

/-- `free_connector_create`: the machine in E, the pilot at 0%, the relay off. -/
def create (param : ConnectorParam) : FreeConnector := .create param .e

end Evse.Free
