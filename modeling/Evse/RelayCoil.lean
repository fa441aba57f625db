import Evse.Lib.Run

/-!
# The coil of the relay

`relay.c`: a turn-on drives the coil with the pickup duty and starts a one-shot timer, whose expiry lowers the duty to the one that holds the contact. The calls to the PWM driver are recorded, and the duty of the coil is read off the record.

The expiry reads the hold duty from the relay, and a turn-on does not store the one it is given there.
-/

namespace Evse.RelayCoil

open StepRun

/-- `PICKUP_MIN_PCT`. -/
def pickupMinPct : UInt8 := 75

/-- `PICKUP_DEFAULT_PCT`. -/
def pickupDefaultPct : UInt8 := pickupMinPct + 10

/-- `PICKUP_MIN_DELAY_MS`. -/
def pickupMinDelayMs : UInt16 := 20

/-- `PICKUP_DEFAULT_DELAY_MS`. -/
def pickupDefaultDelayMs : UInt16 := 100

/-- `HOLD_MIN_PCT`. -/
def holdMinPct : UInt8 := 42

/-- `HOLD_DEFAULT_PCT`. -/
def holdDefaultPct : UInt8 := holdMinPct + 10

/-- `PWM_FREQ`. -/
def pwmFreq : Nat := 100000

/-- A call to the PWM driver, with the duty in percent. -/
inductive PwmCall where
  | start (freq : Nat) (dutyPct : UInt8)
  | updateDuty (dutyPct : UInt8)
  | stop
  deriving DecidableEq, Repr

/-- The duty a driver has after one more call, or none while it is stopped. -/
def PwmCall.duty (before : Option UInt8) : PwmCall → Option UInt8
  | .start _ dutyPct => some dutyPct
  | .updateDuty dutyPct => before.map fun _ => dutyPct
  | .stop => none

/-- `struct relay`: the calls made on its PWM channel, oldest first, the delay its timer runs with, and the duty to hold the contact with. -/
structure Relay where
  calls : List PwmCall
  timer : Option UInt16
  holdDutyPct : UInt8
  deriving DecidableEq

namespace Relay

variable (self : Relay)

/-- The duty of the coil. -/
def duty : Option UInt8 := self.calls.foldl PwmCall.duty none

def pwm (call : PwmCall) : Relay := { self with calls := self.calls ++ [call] }

/-- `relay_create` takes an all-zero entry of the pool. -/
def create : Relay := ⟨[], none, 0⟩

def onTimeout : Relay := self.pwm (.updateDuty (max self.holdDutyPct holdMinPct))

def turnOnDuty (dutyPct : UInt8) : Relay := self.pwm (.start pwmFreq dutyPct)

/-- `turn_on_ext`, which leaves the hold duty unused. -/
def turnOnExt (pickupPct : UInt8) (pickupDelayMs : UInt16) (_holdPct : UInt8) : Relay :=
  { self.turnOnDuty (max pickupPct pickupMinPct) with timer := some (max pickupDelayMs pickupMinDelayMs) }

def turnOn : Relay := self.turnOnExt pickupDefaultPct pickupDefaultDelayMs holdDefaultPct

def turnOff : Relay := pwm { self with timer := none } .stop

end Relay

/-- What can happen to a relay. -/
inductive Op where
  | turnOn
  | turnOnExt (pickupPct : UInt8) (pickupDelayMs : UInt16) (holdPct : UInt8)
  | turnOff
  | expire
  deriving DecidableEq, Repr

/-- Only a timer that runs expires, and it does not run on afterwards. -/
def Relay.step (self : Relay) : Op → Relay
  | .turnOn => self.turnOn
  | .turnOnExt pickupPct pickupDelayMs holdPct => self.turnOnExt pickupPct pickupDelayMs holdPct
  | .turnOff => self.turnOff
  | .expire => if self.timer.isSome then Relay.onTimeout { self with timer := none } else self

/-! ### What the drive is for -/

/-- The phases of a drive, with what the turn-on asked for. -/
inductive Drive where
  | off
  | pickup (pickupPct holdPct : UInt8)
  | hold (holdPct : UInt8)
  deriving DecidableEq, Repr

def Drive.next (drive : Drive) : Op → Drive
  | .turnOn => .pickup pickupDefaultPct holdDefaultPct
  | .turnOnExt pickupPct _ holdPct => .pickup pickupPct holdPct
  | .turnOff => .off
  | .expire =>
      match drive with
      | .pickup _ holdPct => .hold holdPct
      | other => other

/-- The duty the coil should have in each phase. -/
def Drive.duty : Drive → Option UInt8
  | .off => none
  | .pickup pickupPct _ => some (max pickupPct pickupMinPct)
  | .hold holdPct => some (max holdPct holdMinPct)

/-- A relay and the drive it was asked for. -/
structure Driven where
  relay : Relay
  drive : Drive
  deriving DecidableEq

def Driven.create : Driven := ⟨.create, .off⟩

def Driven.step (s : Driven) (op : Op) : Driven := ⟨s.relay.step op, s.drive.next op⟩

/-- The coil has the duty it should have. -/
def Driven.Right (s : Driven) : Prop := s.relay.duty = s.drive.duty

def Op.IsTurnOn : Op → Prop
  | .turnOn | .turnOnExt .. => True
  | .turnOff | .expire => False

/-- While the drive is off, only a turn-on starts the PWM or updates its duty. -/
def Driven.Quiet (s : Driven) (op : Op) : Prop :=
  s.drive = .off → ¬ op.IsTurnOn → (s.step op).relay.calls = s.relay.calls ++ if op = .turnOff then [.stop] else []

/-- The timer does not expire on a turn-on that asked for more than the least hold duty. -/
def Driven.HoldsLeast (s : Driven) (op : Op) : Prop :=
  op = .expire → ∀ pickupPct holdPct, s.drive = .pickup pickupPct holdPct → holdPct ≤ holdMinPct

/-! ### One step -/

/-- Nothing stores a hold duty, and the timer runs exactly during a pickup. -/
structure Driven.Inv (s : Driven) : Prop where
  unset : s.relay.holdDutyPct = 0
  timed : s.relay.timer.isSome = true ↔ ∃ pickupPct holdPct, s.drive = .pickup pickupPct holdPct

theorem max_eq_right_iff_le {a b : UInt8} : max a b = b ↔ a ≤ b := by
  have hmax : max a b = if a ≤ b then b else a := rfl
  rw [hmax]
  split
  next hle => exact iff_of_true rfl hle
  next hgt => exact iff_of_false (fun heq => hgt (heq ▸ UInt8.le_refl a)) hgt

theorem duty_pwm (self : Relay) (call : PwmCall) : (self.pwm call).duty = call.duty self.duty := by
  simp only [Relay.duty, Relay.pwm, List.foldl_append, List.foldl_cons, List.foldl_nil]

section Steps

variable {s : Driven}

theorem step_expire_of_running (h : s.relay.timer.isSome = true) :
    s.relay.step .expire = Relay.onTimeout { s.relay with timer := none } := if_pos h

theorem step_expire_of_stopped (h : ¬ s.relay.timer.isSome = true) : s.relay.step .expire = s.relay := if_neg h

/-- Outside a pickup an expiry has nothing to do. -/
theorem next_expire_of_not_pickup (h : ¬ ∃ pickupPct holdPct, s.drive = .pickup pickupPct holdPct) :
    s.drive.next .expire = s.drive := by
  cases hdrive : s.drive with
  | off => rfl
  | pickup pickupPct holdPct => exact absurd ⟨pickupPct, holdPct, hdrive⟩ h
  | hold holdPct => rfl

theorem inv_step (s : Driven) (op : Op) (h : s.Inv) : (s.step op).Inv := by
  cases op with
  | turnOn => exact ⟨h.unset, iff_of_true rfl ⟨_, _, rfl⟩⟩
  | turnOnExt pickupPct pickupDelayMs holdPct => exact ⟨h.unset, iff_of_true rfl ⟨_, _, rfl⟩⟩
  | turnOff => exact ⟨h.unset, iff_of_false Bool.false_ne_true (by simp [Driven.step, Drive.next])⟩
  | expire =>
      by_cases hrunning : s.relay.timer.isSome = true
      · obtain ⟨pickupPct, holdPct, hdrive⟩ := h.timed.1 hrunning
        have hnext : (s.step .expire).drive = .hold holdPct := by rw [Driven.step, hdrive, Drive.next]
        have hrelay : (s.step .expire).relay = Relay.onTimeout { s.relay with timer := none } :=
          step_expire_of_running hrunning
        refine ⟨?_, ?_⟩
        · rw [hrelay]
          exact h.unset
        · rw [hrelay, hnext]
          exact iff_of_false (by simp [Relay.onTimeout, Relay.pwm]) (by simp)
      · have hsame : s.step .expire = s := by
          rw [Driven.step, step_expire_of_stopped hrunning, next_expire_of_not_pickup (mt h.timed.2 hrunning)]
        rw [hsame]
        exact h

/-- A step that finds the coil right leaves it right unless a timer expires on too high a hold duty. -/
theorem right_step_iff (s : Driven) (op : Op) (h : s.Inv) (hright : s.Right) :
    (s.step op).Right ↔ s.HoldsLeast op := by
  cases op with
  | turnOn => exact iff_of_true (duty_pwm _ _) nofun
  | turnOnExt pickupPct pickupDelayMs holdPct => exact iff_of_true (duty_pwm _ _) nofun
  | turnOff => exact iff_of_true (duty_pwm _ _) nofun
  | expire =>
      by_cases hrunning : s.relay.timer.isSome = true
      · obtain ⟨pickupPct, holdPct, hdrive⟩ := h.timed.1 hrunning
        have hbefore : s.relay.duty = some (max pickupPct pickupMinPct) := by rw [hright, hdrive, Drive.duty]
        have hafter : (s.step .expire).relay.duty = some holdMinPct := by
          have hunset : max s.relay.holdDutyPct holdMinPct = holdMinPct := by
            rw [h.unset]
            decide
          show (s.relay.step .expire).duty = _
          rw [step_expire_of_running hrunning, Relay.onTimeout, duty_pwm, hunset]
          show Option.map _ s.relay.duty = _
          rw [hbefore]
          rfl
        have hdesired : (s.step .expire).drive.duty = some (max holdPct holdMinPct) := by
          rw [Driven.step, hdrive, Drive.next, Drive.duty]
        rw [Driven.Right, hafter, hdesired, Option.some.injEq, eq_comm, max_eq_right_iff_le]
        constructor
        · rintro hleast - pickup hold hsame
          rw [hdrive, Drive.pickup.injEq] at hsame
          exact hsame.2 ▸ hleast
        · exact fun hleast => hleast rfl pickupPct holdPct hdrive
      · have hpickup := mt h.timed.2 hrunning
        have hsame : s.step .expire = s := by
          rw [Driven.step, step_expire_of_stopped hrunning, next_expire_of_not_pickup hpickup]
        rw [hsame]
        exact iff_of_true hright fun _ pickupPct holdPct hdrive => absurd ⟨pickupPct, holdPct, hdrive⟩ hpickup

theorem quiet (s : Driven) (op : Op) (h : s.Inv) : s.Quiet op := by
  intro hoff hop
  cases op with
  | turnOn => exact absurd trivial hop
  | turnOnExt pickupPct pickupDelayMs holdPct => exact absurd trivial hop
  | turnOff => rfl
  | expire =>
      have hstopped : ¬ s.relay.timer.isSome = true := by
        rw [h.timed, hoff]
        simp
      show (s.relay.step .expire).calls = _
      rw [step_expire_of_stopped hstopped]
      exact (List.append_nil _).symm

end Steps

theorem inv_create : Driven.create.Inv := ⟨rfl, iff_of_false (by decide) (by simp [Driven.create])⟩

/-! ### Whole runs -/

/-- Along a run the coil has the duties asked for, and none after a turn-off, exactly when no timer expires on a turn-on that asked for more than the least hold duty. -/
theorem driven_right_iff (ops : List Op) :
    EveryState Driven.step Driven.Right Driven.create ops ∧ EveryStep Driven.step Driven.Quiet Driven.create ops ↔
      EveryStep Driven.step Driven.HoldsLeast Driven.create ops := by
  have hright := everyState_iff_everyStep (P := Driven.Right) inv_step right_step_iff inv_create rfl ops
  have hquiet := everyStep_of_invariant (P := Driven.Quiet) inv_step quiet inv_create ops
  rw [hright]
  exact and_iff_left hquiet

/-- A plain turn-on should hold with the default duty and ends up with the least one. -/
theorem default_hold_duty_lost :
    (run Driven.step Driven.create [.turnOn, .expire]).relay.duty = some 42 ∧
      (run Driven.step Driven.create [.turnOn, .expire]).drive.duty = some 52 ∧
        ¬ EveryState Driven.step Driven.Right Driven.create [.turnOn, .expire] := by
  have hduty : (run Driven.step Driven.create [.turnOn, .expire]).relay.duty = some 42 := by decide
  have hdesired : (run Driven.step Driven.create [.turnOn, .expire]).drive.duty = some 52 := by decide
  refine ⟨hduty, hdesired, fun h => ?_⟩
  have hlast : Driven.Right (run Driven.step Driven.create [.turnOn, .expire]) := h.last
  rw [Driven.Right, hduty, hdesired] at hlast
  exact absurd hlast (by decide)

end Evse.RelayCoil
