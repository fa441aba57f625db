import Evse.Iec61851
import Evse.Safety

/-!
# The connector both implementations share

`connector.c`: the part of a connector that the free and the OCPP implementation have in common. The state of the implementation's machine is a parameter `σ`; the connector's own notion of state, `ConnectorState`, is what the pilot says.

Everything a step reads from outside is in `Readings`. The clock is read at up to three places in a step, so it has three fields; the pilot and the safety entries answer the same thing throughout a step.
-/

namespace Evse

/-- `connector_state_t`, in the order of the source: the machine of a free connector starts in `e`. -/
inductive ConnectorState where
  | e | a | b | c | d | f
  deriving DecidableEq, Repr

/-- `connector_event_t`: a set of events, one bit each. -/
abbrev ConnectorEvent := BitVec 32

namespace ConnectorEvent

def none : ConnectorEvent := 0x0000
def plugged : ConnectorEvent := 0x0001
def unplugged : ConnectorEvent := 0x0002
def chargingStarted : ConnectorEvent := 0x0004
def chargingSuspended : ConnectorEvent := 0x0008
def chargingEnded : ConnectorEvent := 0x0010
def error : ConnectorEvent := 0x0020
def errorRecovery : ConnectorEvent := 0x0040
def billingStarted : ConnectorEvent := 0x0080
def billingEnded : ConnectorEvent := 0x0200
def occupied : ConnectorEvent := 0x0400
def unoccupied : ConnectorEvent := 0x0800
def reserved : ConnectorEvent := 0x2000
def enabled : ConnectorEvent := 0x4000

/-- The event set has the event. -/
def has (events event : ConnectorEvent) : Bool := events &&& event ≠ 0

theorem has_or (a b event : ConnectorEvent) : has (a ||| b) event = (has a event || has b event) := by
  simp only [has, BitVec.and_or_distrib_right]
  rw [Bool.eq_iff_iff]
  simp only [ne_eq, decide_eq_true_eq, Bool.or_eq_true]
  rw [← not_and_or, not_iff_not]
  exact BitVec.or_eq_zero_iff

end ConnectorEvent

/-- `connector_error_t`. -/
inductive ConnectorError where
  | none | evSide | evseSide | emergencyStop
  deriving DecidableEq, Repr

/-- The parameters `connector_validate_param` lets through. -/
structure ConnectorParam where
  maxOutputCurrent : Nat
  minOutputCurrent : Nat
  valid : minOutputCurrent ≤ maxOutputCurrent
  deriving DecidableEq

/-- What one call reads from the world. -/
structure Readings where
  pilot : PilotReading := ⟨.a, 100⟩
  safety : Option (List SafetyEntry) := some []
  uptime : Int := 0
  /-- `time(NULL)` where a call begins. -/
  now : Int := 0
  /-- `time(NULL)` in the guards of a machine. -/
  guardTime : Int := 0
  /-- `time(NULL)` in the state change callback. -/
  changeTime : Int := 0
  deriving DecidableEq

structure Connector (σ : Type) where
  id : Nat
  param : ConnectorParam
  fsm : σ
  iec61851 : Iec61851
  timeLastStateChange : Int
  error : ConnectorError
  enabled : Bool
  reserved : Bool
  occupied : Bool
  /-- Whether an event callback is registered. -/
  eventCb : Bool
  /-- The event sets the callback was called with, oldest first. -/
  dispatched : List ConnectorEvent
  deriving DecidableEq

namespace Connector

/-- `INITIAL_STABILIZATION_SEC`. -/
def initialStabilizationSec : Int := 2

/-- `IEC61851_EV_RESPONSE_TIMEOUT_SEC`. -/
def evResponseTimeoutSec : Nat := 6

def getStateFromIec61851 : Iec61851State → ConnectorState
  | .a => .a
  | .b => .b
  | .c => .c
  | .d => .d
  | .e => .e
  | .f => .f

def isOccupiedState (state : ConnectorState) : Bool :=
  Iec61851.isStateOccupied <|
    match state with
    | .a => .a
    | .b => .b
    | .c => .c
    | .d => .d
    | .e => .e
    | .f => .f

def isCharging (state : ConnectorState) : Bool := state = .c || state = .d

variable {σ : Type} (r : Readings) (self : Connector σ)

/-- `connector_state`: the state the pilot shows. -/
def state : ConnectorState := getStateFromIec61851 (self.iec61851.state r.pilot)

def getTargetDuty : Nat := self.iec61851.pilotDutyPct

def getActualDuty : Nat := r.pilot.duty

def calcOutputCurrent : Nat := self.param.maxOutputCurrent

def startDuty : Connector σ :=
  { self with iec61851 := self.iec61851.setCurrent self.calcOutputCurrent }

def stopDuty : Connector σ := { self with iec61851 := self.iec61851.setCurrent 0 }

def goFault : Connector σ := { self with iec61851 := self.iec61851.setStateF }

def enablePowerSupply : Connector σ := { self with iec61851 := self.iec61851.startPowerSupply }

def disablePowerSupply : Connector σ := { self with iec61851 := self.iec61851.stopPowerSupply }

def isSupplyingPower : Bool := self.iec61851.isSupplyingPower

def isStateX (state : ConnectorState) : Bool := self.state r = state

/-- `connector_is_occupied`. -/
def isOccupied : Bool := self.occupied || self.reserved || self.state r ≠ .a

def isStateX2 (state : ConnectorState) : Bool :=
  self.state r = state && self.getTargetDuty > 0 && self.getTargetDuty < 100

/-- `connector_is_evse_error`; `state` is the machine's state in the connector's terms. -/
def isEvseError (state : ConnectorState) : Bool :=
  if self.getTargetDuty = 0 || (!isInputPowerOk r.safety && r.uptime > initialStabilizationSec) ||
      isEmergencyStop r.safety then true
  else if isCharging state && !isOutputPowerOk r.safety &&
      r.guardTime - self.timeLastStateChange > initialStabilizationSec then true
  else self.state r = .f || self.state r = .e

def isEvResponseTimeout (elapsedSec : Nat) : Bool := elapsedSec ≥ evResponseTimeoutSec

/-- Call the event callback, if there is one. -/
def callback (events : ConnectorEvent) : Connector σ :=
  if self.eventCb then { self with dispatched := self.dispatched ++ [events] } else self

/-- `connector_enable`: both implementations' `enable` succeeds and does nothing. -/
def enable : Connector σ :=
  { self.callback .enabled with timeLastStateChange := r.now, enabled := true }

/-- `connector_disable`: both implementations' `disable` does nothing. -/
def disable : Connector σ := { self with enabled := false }

/-- A connector as its implementation creates it, with the event callback registered. -/
def create (param : ConnectorParam) (initial : σ) : Connector σ where
  id := 0
  param := param
  fsm := initial
  iec61851 := .create
  timeLastStateChange := 0
  error := .none
  enabled := false
  reserved := false
  occupied := false
  eventCb := true
  dispatched := []

/-! ### Readings of the pilot -/

@[simp] theorem startDuty_iec61851 :
    self.startDuty.iec61851 = self.iec61851.setCurrent self.param.maxOutputCurrent := rfl

@[simp] theorem stopDuty_iec61851 : self.stopDuty.iec61851 = self.iec61851.setCurrent 0 := rfl

@[simp] theorem enablePowerSupply_iec61851 :
    self.enablePowerSupply.iec61851 = self.iec61851.startPowerSupply := rfl

@[simp] theorem disablePowerSupply_iec61851 :
    self.disablePowerSupply.iec61851 = self.iec61851.stopPowerSupply := rfl

@[simp] theorem startDuty_fsm : self.startDuty.fsm = self.fsm := rfl

@[simp] theorem stopDuty_fsm : self.stopDuty.fsm = self.fsm := rfl

@[simp] theorem enablePowerSupply_fsm : self.enablePowerSupply.fsm = self.fsm := rfl

@[simp] theorem disablePowerSupply_fsm : self.disablePowerSupply.fsm = self.fsm := rfl

@[simp] theorem enable_iec61851 : (self.enable r).iec61851 = self.iec61851 := by
  unfold enable callback
  split <;> rfl

@[simp] theorem enable_fsm : (self.enable r).fsm = self.fsm := by
  unfold enable callback
  split <;> rfl

/-- With the pilot set to 0% the connector reads as F. -/
theorem state_eq_f_of_duty_zero (h : self.iec61851.pilotDutyPct = 0) : self.state r = .f := by
  have hduty : self.iec61851.pilot.dutyPct = 0 := self.iec61851.duty_agrees.trans h
  simp only [state, Iec61851.state, hduty, if_true, getStateFromIec61851]

/-- A connector reads as C or D only with the pilot at that level. -/
theorem pilot_of_state (h : self.state r = .c ∨ self.state r = .d) :
    r.pilot.status = .c ∨ r.pilot.status = .d := by
  unfold state Iec61851.state at h
  split at h
  · simp [getStateFromIec61851] at h
  · cases hpilot : r.pilot.status <;> simp_all [getStateFromIec61851]

end Connector

end Evse
