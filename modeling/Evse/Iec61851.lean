import Mathlib.Tactic.Common

/-!
# The IEC 61851 layer

`iec61851.c` drives the control pilot and the power relay and remembers what it last asked of each. The two copies of the duty, one in the pilot and one here, and the two records of the relay are only ever written together, so the structure carries their agreement.

What the pilot measures is an input, read once a step: a `PilotReading`.
-/

namespace Evse

/-- `pilot_status_t`: the level the pilot's waveform was last classified as. -/
inductive PilotStatus where
  | a | b | c | d | e | f | unknown
  deriving DecidableEq, Repr

/-- `pilot_status` and `pilot_duty`, the measured duty in percent. -/
structure PilotReading where
  status : PilotStatus
  duty : Nat
  deriving DecidableEq, Repr

/-- `iec61851_state_t`. -/
inductive Iec61851State where
  | a | b | c | d | e | f
  deriving DecidableEq, Repr

/-- The pilot's side of the duty: what `pilot_set_duty` stored, `pilot_get_duty_set`. -/
structure Pilot where
  dutyPct : Nat
  deriving DecidableEq, Repr

structure Relay where
  on : Bool
  deriving DecidableEq, Repr

structure Iec61851 where
  pilot : Pilot
  relay : Relay
  pilotDutyPct : Nat
  isSupplyingPower : Bool
  duty_agrees : pilot.dutyPct = pilotDutyPct
  relay_agrees : relay.on = isSupplyingPower
  deriving DecidableEq

namespace Iec61851

def isStateOccupied (state : Iec61851State) : Bool :=
  state = .b || state = .c || state = .d

/-- `iec61851_milliampere_to_duty`. No product exceeds 32 bits in the branch that computes it, and no quotient 8 bits. -/
def milliampereToDuty (milliampere : Nat) : Nat :=
  if milliampere > 80 * 1000 then 96
  else if milliampere ≥ 55 * 1000 then milliampere * 10 / 1000 / 25 + 64
  else if milliampere ≥ 6 * 1000 then milliampere * 10 / 6 / 1000
  else 100

/-- `iec61851_duty_to_milliampere`, the current a vehicle reads from a duty. -/
def dutyToMilliampere (duty : Nat) : Nat :=
  if duty > 97 then 0
  else if duty > 96 then 80 * 1000
  else if duty > 85 then (duty - 64) * 25 * 1000 / 10
  else if duty ≥ 10 then duty * 6 * 1000 / 10
  else if duty ≥ 8 then 6 * 1000
  else 0

variable (self : Iec61851)

def setPilot (pct : Nat) : Iec61851 :=
  { self with pilot := ⟨pct⟩, pilotDutyPct := pct, duty_agrees := rfl }

/-- `iec61851_state`: with the pilot set to 0% the state is F whatever is measured. -/
def state (reading : PilotReading) : Iec61851State :=
  if self.pilot.dutyPct = 0 then .f
  else
    match reading.status with
    | .a => .a
    | .b => .b
    | .c => .c
    | .d => .d
    | .e => .e
    | .f => .f
    | .unknown => .f

def setCurrent (milliampere : Nat) : Iec61851 := self.setPilot (milliampereToDuty milliampere)

def setStateF : Iec61851 := self.setPilot 0

def startPowerSupply : Iec61851 :=
  { self with relay := ⟨true⟩, isSupplyingPower := true, relay_agrees := rfl }

def stopPowerSupply : Iec61851 :=
  { self with relay := ⟨false⟩, isSupplyingPower := false, relay_agrees := rfl }

/-- `iec61851_create`, over a pilot and a relay that are both off. -/
def create : Iec61851 := ⟨⟨0⟩, ⟨false⟩, 0, false, rfl, rfl⟩

/-! ### What the operations leave -/

@[simp] theorem create_pilotDutyPct : create.pilotDutyPct = 0 := rfl
@[simp] theorem create_isSupplyingPower : create.isSupplyingPower = false := rfl
@[simp] theorem setPilot_pilotDutyPct (pct : Nat) : (self.setPilot pct).pilotDutyPct = pct := rfl
@[simp] theorem setPilot_isSupplyingPower (pct : Nat) :
    (self.setPilot pct).isSupplyingPower = self.isSupplyingPower := rfl
@[simp] theorem setStateF_pilotDutyPct : self.setStateF.pilotDutyPct = 0 := rfl
@[simp] theorem setStateF_isSupplyingPower :
    self.setStateF.isSupplyingPower = self.isSupplyingPower := rfl
@[simp] theorem setCurrent_pilotDutyPct (m : Nat) :
    (self.setCurrent m).pilotDutyPct = milliampereToDuty m := rfl
@[simp] theorem setCurrent_isSupplyingPower (m : Nat) :
    (self.setCurrent m).isSupplyingPower = self.isSupplyingPower := rfl
@[simp] theorem startPowerSupply_pilotDutyPct :
    self.startPowerSupply.pilotDutyPct = self.pilotDutyPct := rfl
@[simp] theorem startPowerSupply_isSupplyingPower :
    self.startPowerSupply.isSupplyingPower = true := rfl
@[simp] theorem stopPowerSupply_pilotDutyPct :
    self.stopPowerSupply.pilotDutyPct = self.pilotDutyPct := rfl
@[simp] theorem stopPowerSupply_isSupplyingPower :
    self.stopPowerSupply.isSupplyingPower = false := rfl

/-- Opening the relay only if it is closed is opening it. -/
@[simp] theorem ite_stopPowerSupply :
    (if self.isSupplyingPower = true then self.stopPowerSupply else self) = self.stopPowerSupply := by
  obtain ⟨pilot, relay, duty, supplying, hduty, hrelay⟩ := self
  cases supplying with
  | true => rfl
  | false =>
      obtain ⟨on⟩ := relay
      cases hrelay
      rfl

/-- Closing the relay only if it is open is closing it. -/
@[simp] theorem ite_startPowerSupply :
    (if self.isSupplyingPower = true then self else self.startPowerSupply) = self.startPowerSupply := by
  obtain ⟨pilot, relay, duty, supplying, hduty, hrelay⟩ := self
  cases supplying with
  | false => rfl
  | true =>
      obtain ⟨on⟩ := relay
      cases hrelay
      rfl

@[simp] theorem milliampereToDuty_zero : milliampereToDuty 0 = 100 := rfl

theorem milliampereToDuty_pos (m : Nat) : 0 < milliampereToDuty m := by
  unfold milliampereToDuty
  split_ifs <;> omega

/-! ### The current a duty advertises

Two linear pieces of different slope. The duty up to 85% stands for 600 mA a percent, the duty above it for 2500 mA, and the two inverses meet at 51 A. The code goes over from one to the other at 55 A, so between the two the duty is computed on one slope and read on the other.
-/

theorem milliampereToDuty_off {m : Nat} (h : m < 6000) : milliampereToDuty m = 100 := by
  simp only [milliampereToDuty]
  split_ifs <;> omega

theorem milliampereToDuty_low {m : Nat} (h : 6000 ≤ m) (hm : m < 55000) : milliampereToDuty m = m / 600 := by
  simp only [milliampereToDuty]
  split_ifs <;> omega

theorem milliampereToDuty_high {m : Nat} (h : 55000 ≤ m) : milliampereToDuty m = min (m / 2500) 32 + 64 := by
  simp only [milliampereToDuty]
  split_ifs <;> omega

theorem dutyToMilliampere_low {d : Nat} (h : 10 ≤ d) (hd : d ≤ 85) : dutyToMilliampere d = d * 600 := by
  simp only [dutyToMilliampere]
  split_ifs <;> omega

theorem dutyToMilliampere_high {d : Nat} (h : 85 < d) (hd : d ≤ 96) :
    dutyToMilliampere d = (d - 64) * 2500 := by
  simp only [dutyToMilliampere]
  split_ifs <;> omega

/-- What one percent of duty stands for in the range the duty falls in. -/
def dutyStep (duty : Nat) : Nat := if duty > 85 then 2500 else 600

/-- The duty set for the current `m` tells the vehicle no more than `m`, and not much less. -/
structure AdvertisesAtMost (m : Nat) : Prop where
  range : (10 ≤ milliampereToDuty m ∧ milliampereToDuty m ≤ 96) ∨ milliampereToDuty m = 100
  off : milliampereToDuty m = 100 ↔ m < 6000
  monotone : 6000 ≤ m → ∀ more, m ≤ more → milliampereToDuty m ≤ milliampereToDuty more
  atMost : dutyToMilliampere (milliampereToDuty m) ≤ m
  close : 6000 ≤ m → m ≤ 80000 →
    m ≤ dutyToMilliampere (milliampereToDuty m) + dutyStep (milliampereToDuty m)

theorem advertisesAtMost_off {m : Nat} (h : m < 6000) : AdvertisesAtMost m := by
  have hduty := milliampereToDuty_off h
  refine ⟨.inr hduty, iff_of_true hduty h, ?_, ?_, ?_⟩
  · intro hm
    omega
  · rw [hduty]
    exact Nat.zero_le m
  · intro hm
    omega

theorem advertisesAtMost_low {m : Nat} (h : 6000 ≤ m) (hm : m < 51600) : AdvertisesAtMost m := by
  have hduty := milliampereToDuty_low h (by omega)
  have hread := dutyToMilliampere_low (d := m / 600) (by omega) (by omega)
  have hstep : dutyStep (m / 600) = 600 := if_neg (by omega)
  refine ⟨?_, ?_, ?_, ?_, ?_⟩
  · rw [hduty]
    omega
  · rw [hduty]
    omega
  · intro _ more hmore
    rw [hduty]
    by_cases hlow : more < 55000
    · rw [milliampereToDuty_low (by omega) hlow]
      omega
    · rw [milliampereToDuty_high (by omega)]
      omega
  · rw [hduty, hread]
    omega
  · intro _ _
    rw [hduty, hread, hstep]
    omega

theorem advertisesAtMost_high {m : Nat} (h : 55000 ≤ m) : AdvertisesAtMost m := by
  have hduty := milliampereToDuty_high h
  have hread := dutyToMilliampere_high (d := min (m / 2500) 32 + 64) (by omega) (by omega)
  have hstep : dutyStep (min (m / 2500) 32 + 64) = 2500 := if_pos (by omega)
  refine ⟨?_, ?_, ?_, ?_, ?_⟩
  · rw [hduty]
    omega
  · rw [hduty]
    omega
  · intro _ more hmore
    rw [hduty, milliampereToDuty_high (by omega)]
    omega
  · rw [hduty, hread]
    omega
  · intro _ _
    rw [hduty, hread, hstep]
    omega

/-- From 51.6 A on the low slope gives duties above 85%, which a vehicle reads on the high slope. -/
theorem exceeds_between {m : Nat} (h : 51600 ≤ m) (hm : m < 55000) :
    m < dutyToMilliampere (milliampereToDuty m) := by
  rw [milliampereToDuty_low (by omega) hm, dutyToMilliampere_high (by omega) (by omega)]
  omega

theorem advertisesAtMost_iff (m : Nat) : AdvertisesAtMost m ↔ m < 51600 ∨ 55000 ≤ m := by
  constructor
  · intro h
    by_contra hbetween
    have hexceeds := exceeds_between (m := m) (by omega) (by omega)
    exact absurd h.atMost (by omega)
  · rintro (hlow | hhigh)
    · by_cases hoff : m < 6000
      · exact advertisesAtMost_off hoff
      · exact advertisesAtMost_low (by omega) hlow
    · exact advertisesAtMost_high hhigh

/-- A request for 54 A advertises 65 A. -/
theorem advertises_more_at_54A : ¬ AdvertisesAtMost 54000 := by
  intro h
  exact absurd h.atMost (by decide)

end Iec61851

end Evse
