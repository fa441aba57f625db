import Evse.Free.Power
import Evse.PowerSafety

/-!
# From the mains to the relay

`start_charger` of `app.c` puts the parts together: the entries of the input power, of the output power and of the emergency stop in one safety instance, and a connector that asks it in each step. What the parts promise by themselves amounts to this for the whole: the relay of a free connector stays closed only on fresh pulses of the mains and with the emergency stop released, but for the steps in which a row the pilot enables comes first; and an outage or an emergency stop opens it within two steps if the pilot holds still.
-/

namespace Evse.Free

open StepRun

/-- `usrinp_event_t` of the emergency stop button. -/
inductive UsrinpEvent where
  | connected | disconnected | unknown
  deriving DecidableEq, Repr

/-- `on_emergency_stop` of `emergency_stop_safety.c`. -/
def onEmergencyStop (emergencyStopPressed : Bool) : UsrinpEvent → Bool
  | .connected => true
  | .disconnected => false
  | .unknown => emergencyStopPressed

/-- The parts that `start_charger` creates, and the last reading of the clock in milliseconds. -/
structure Installation where
  input : PowerSafety.Watch
  output : PowerSafety.Watch
  emergencyStopPressed : Bool
  connector : FreeConnector
  clock : UInt32

def startCharger (param : ConnectorParam) (inputFrequency : Int) : Installation where
  input := .create inputFrequency
  output := .create inputFrequency
  emergencyStopPressed := false
  connector := create param
  clock := 0

/-- The status of a power entry among those of all entries. -/
def entryStatus : PowerSafety.Status → SafetyStatus
  | .ok => .ok
  | .stale => .stale
  | .samplingError => .samplingError
  | .abnormalFrequency => .abnormalFrequency

/-- What the entries answer, in the order in which they were added. -/
def Installation.safety (s : Installation) (now : UInt32) : List SafetyEntry := [
  ⟨.ip, entryStatus (PowerSafety.check s.input.entry now)⟩,
  ⟨.op, entryStatus (PowerSafety.check s.output.entry now)⟩,
  ⟨.es, if s.emergencyStopPressed then .emergencyStop else .ok⟩]

/-- Interrupts and timers of the two power entries, the button, and the calls of the connector. -/
inductive PlantEvent where
  | input (e : PowerSafety.PowerEvent)
  | output (e : PowerSafety.PowerEvent)
  | button (e : UsrinpEvent)
  | process (now : UInt32) (r : Readings)
  | enable (r : Readings)
  | disable

/-- What a step of the connector reads, with the entries' answers in it. -/
def Installation.reads (s : Installation) (now : UInt32) (r : Readings) : Readings :=
  { r with safety := some (s.safety now) }

def Installation.step (s : Installation) : PlantEvent → Installation
  | .input e => { s with input := s.input.step e, clock := e.time }
  | .output e => { s with output := s.output.step e, clock := e.time }
  | .button e => { s with emergencyStopPressed := onEmergencyStop s.emergencyStopPressed e }
  | .process now r => { s with connector := Free.step s.connector (.process (s.reads now r)), clock := now }
  | .enable r => { s with connector := Free.step s.connector (.enable r) }
  | .disable => { s with connector := Free.step s.connector .disable }

/-- The clock does not run backwards. -/
def Installation.InOrder (s : Installation) : PlantEvent → Prop
  | .input e | .output e => s.clock ≤ e.time
  | .process now _ => s.clock ≤ now
  | .button _ | .enable _ | .disable => True

instance (s : Installation) : DecidablePred s.InOrder
  | .input e | .output e => inferInstanceAs (Decidable (s.clock ≤ e.time))
  | .process now _ => inferInstanceAs (Decidable (s.clock ≤ now))
  | .button _ | .enable _ | .disable => isTrue trivial

def PlantEvent.isProcess : PlantEvent → Bool
  | .process .. => true
  | _ => false

/-- A step that leaves the relay closed has a reason for it. -/
def Justified (freq : Int) (s : Installation) : PlantEvent → Prop
  | .process now r =>
      s.connector.enabled = true → Connector.initialStabilizationSec < r.uptime →
        (s.step (.process now r)).connector.isSupplyingPower = true →
          pilotRowFirst (s.reads now r) s.connector = true ∨
            PowerSafety.RecentEdge s.input.history now ∧ PowerSafety.MeasuredLast s.input.history freq ∧
              s.emergencyStopPressed = false
  | _ => True

/-- In each step of the connector the mains have given no pulse for three seconds, or the emergency stop is pressed; and the pilot stays at its level. -/
def Outage (level : PilotStatus) (s : Installation) : PlantEvent → Prop
  | .process now r =>
      s.connector.enabled = true ∧ r.pilot.status = level ∧ Connector.initialStabilizationSec < r.uptime ∧
        (¬ PowerSafety.RecentEdge s.input.history now ∨ s.emergencyStopPressed = true)
  | _ => True

/-! ### What the connector is told -/

section Told

variable (s : Installation) (now : UInt32) (r : Readings)

theorem isInputPowerOk_reads :
    isInputPowerOk (s.reads now r).safety = true ↔ PowerSafety.check s.input.entry now = .ok := by
  unfold isInputPowerOk Installation.reads Installation.safety safetyCheck onSafetyCheck
  cases PowerSafety.check s.input.entry now <;> cases PowerSafety.check s.output.entry now <;>
    cases s.emergencyStopPressed <;> simp [entryStatus]

theorem isEmergencyStop_reads : isEmergencyStop (s.reads now r).safety = s.emergencyStopPressed := by
  unfold isEmergencyStop Installation.reads Installation.safety safetyCheck onSafetyCheck
  cases PowerSafety.check s.input.entry now <;> cases PowerSafety.check s.output.entry now <;>
    cases s.emergencyStopPressed <;> simp [entryStatus]

theorem reportsError_reads (huptime : Connector.initialStabilizationSec < r.uptime) :
    reportsError (s.reads now r) = true ↔
      s.emergencyStopPressed = true ∨ PowerSafety.check s.input.entry now ≠ .ok := by
  have hup : decide ((s.reads now r).uptime > Connector.initialStabilizationSec) = true := decide_eq_true huptime
  rw [reportsError, isEmergencyStop_reads, hup, Bool.and_true, Bool.or_eq_true, Bool.not_eq_true',
    ← Bool.not_eq_true, isInputPowerOk_reads]

end Told

/-! ### One step of the connector -/

section Step

variable {r r' : Readings} {c : FreeConnector}

theorem pilotRowFirst_congr (h : r.pilot.status = r'.pilot.status) (c : FreeConnector) :
    pilotRowFirst r c = pilotRowFirst r' c := by
  have hstate : c.state r = c.state r' := by
    unfold Connector.state Iec61851.state
    rw [h]
  simp only [pilotRowFirst, isStateC2, isStateD2, isStateC, isStateD, Connector.isStateX2, Connector.isStateX, hstate]

theorem pilotRowFirst_of_view {c c' : FreeConnector} (h : view c' = view c) (r : Readings) :
    pilotRowFirst r c' = pilotRowFirst r c := by
  cases c
  cases c'
  obtain ⟨rfl, rfl⟩ := Prod.mk.inj h
  rfl

/-- What the pilot shows on a control pilot. -/
def shown (r : Readings) (iec : Iec61851) : ConnectorState := Connector.getStateFromIec61851 (iec.state r.pilot)

/-- Where no row is left for the pilot to enable. -/
theorem pilotRowFirst_eq_false {s : ConnectorState} {iec : Iec61851} (h : view c = (s, iec))
    (hb : s = .b → shown r iec ≠ .c ∧ shown r iec ≠ .d ∨ ¬ (0 < iec.pilotDutyPct ∧ iec.pilotDutyPct < 100))
    (hc : s = .c → shown r iec ≠ .d) (hd : s = .d → shown r iec ≠ .c) : pilotRowFirst r c = false := by
  obtain ⟨hs, hiec⟩ := Prod.mk.inj h
  subst hs hiec
  have hstate : c.state r = shown r c.iec61851 := rfl
  have hduty : c.getTargetDuty = c.iec61851.pilotDutyPct := rfl
  rw [pilotRowFirst, isStateC2, isStateD2, isStateC, isStateD, Connector.isStateX2, Connector.isStateX2,
    Connector.isStateX, Connector.isStateX, hstate, hduty]
  generalize c.fsm = s at hb hc hd
  generalize shown r c.iec61851 = level at hb hc hd
  cases s with
  | b =>
      cases hb rfl with
      | inl hlevel => cases level <;> simp at hlevel ⊢
      | inr hpct =>
          have hout : (decide (c.iec61851.pilotDutyPct > 0) && decide (c.iec61851.pilotDutyPct < 100)) = false := by
            simpa using hpct
          simp only [Bool.and_assoc, hout, Bool.and_false, Bool.or_false]
          rfl
  | c => cases level <;> simp at hc ⊢
  | d => cases level <;> simp at hd ⊢
  | e | a | f => rfl

/-- In E, A and F the pilot enables no row. -/
theorem pilotRowFirst_elsewhere (r : Readings) {s : ConnectorState} {iec : Iec61851} (h : view c = (s, iec))
    (hs : s = .e ∨ s = .a ∨ s = .f) : pilotRowFirst r c = false := by
  refine pilotRowFirst_eq_false h ?_ ?_ ?_ <;> rintro rfl <;> simp at hs

/-- The level B is shown as B, or as F where the pilot is off. -/
theorem shown_of_shown_b {iec iec' : Iec61851} (h : shown r iec = .b) : shown r iec' ≠ .c ∧ shown r iec' ≠ .d := by
  have hstatus : r.pilot.status = .b := by
    rw [shown, Iec61851.state] at h
    split at h
    · simp [Connector.getStateFromIec61851] at h
    · cases hpilot : r.pilot.status <;> simp [hpilot, Connector.getStateFromIec61851] at h ⊢
  rw [shown, Iec61851.state, hstatus]
  split <;> decide

/-- Whatever a step does, no row that the same pilot enables is left to be taken. -/
theorem pilotRowFirst_process (r : Readings) (c : FreeConnector) : pilotRowFirst r (process r c) = false := by
  have hsame : shown r c.iec61851 = c.state r := rfl
  have hon : shown r c.iec61851.startPowerSupply = c.state r := rfl
  have hoff : shown r c.iec61851.stopPowerSupply = c.state r := rfl
  cases hs : c.fsm with
  | e =>
      have hview := view_process_e (r := r) hs
      split at hview
      · exact pilotRowFirst_elsewhere r hview (by simp)
      · exact pilotRowFirst_elsewhere r hview (by simp)
  | a =>
      have hview := view_process_a (r := r) hs
      split_ifs at hview with hb
      · exact pilotRowFirst_eq_false hview (fun _ => .inl (shown_of_shown_b (hsame.trans hb))) (by simp) (by simp)
      all_goals exact pilotRowFirst_elsewhere r hview (by simp)
  | b =>
      have hview := view_process_b (r := r) hs
      split_ifs at hview with ha hc hd he herror
      · exact pilotRowFirst_elsewhere r hview (by simp)
      · refine pilotRowFirst_eq_false hview (by simp) (fun _ => ?_) (by simp)
        rw [hon]
        simp [Connector.isStateX2] at hc
        simp [hc]
      · refine pilotRowFirst_eq_false hview (by simp) (by simp) (fun _ => ?_)
        rw [hon]
        simp [Connector.isStateX2] at hd
        simp [hd]
      · exact pilotRowFirst_elsewhere r hview (by simp)
      · exact pilotRowFirst_elsewhere r hview (by simp)
      · refine pilotRowFirst_eq_false hview (fun _ => ?_) (by simp) (by simp)
        rw [hsame]
        simp only [Connector.isStateX2, Connector.getTargetDuty] at hc hd
        by_cases hpct : 0 < c.iec61851.pilotDutyPct ∧ c.iec61851.pilotDutyPct < 100
        · exact .inl ⟨by simpa [hpct.1, hpct.2] using hc, by simpa [hpct.1, hpct.2] using hd⟩
        · exact .inr hpct
  | c =>
      have hview := view_process_c (r := r) hs
      split_ifs at hview with ha hb hd he herror
      · exact pilotRowFirst_elsewhere r hview (by simp)
      · refine pilotRowFirst_eq_false hview (fun _ => .inl ?_) (by simp) (by simp)
        rw [hoff, hb]
        decide
      · refine pilotRowFirst_eq_false hview (by simp) (by simp) (fun _ => ?_)
        rw [hsame, hd]
        decide
      · exact pilotRowFirst_elsewhere r hview (by simp)
      · exact pilotRowFirst_elsewhere r hview (by simp)
      · exact pilotRowFirst_eq_false hview (by simp) (fun _ => hsame ▸ hd) (by simp)
  | d =>
      have hview := view_process_d (r := r) hs
      split_ifs at hview with ha hb hc he herror
      · exact pilotRowFirst_elsewhere r hview (by simp)
      · refine pilotRowFirst_eq_false hview (fun _ => .inl ?_) (by simp) (by simp)
        rw [hoff, hb]
        decide
      · refine pilotRowFirst_eq_false hview (by simp) (fun _ => ?_) (by simp)
        rw [hsame, hc]
        decide
      · exact pilotRowFirst_elsewhere r hview (by simp)
      · exact pilotRowFirst_elsewhere r hview (by simp)
      · exact pilotRowFirst_eq_false hview (by simp) (by simp) (fun _ => hsame ▸ hc)
  | f =>
      have hview := view_process_f (r := r) hs
      split_ifs at hview <;> exact pilotRowFirst_elsewhere r hview (by simp)

/-- With an error reported and no row for the pilot to enable, a step leaves the relay open. -/
theorem off_of_reportsError (h : Inv (view c)) (herror : reportsError r = true) (hrow : pilotRowFirst r c = false) :
    (process r c).isSupplyingPower = false := by
  rw [← Bool.not_eq_true, supplying_process_iff r c h, hrow, isEvseError_of_reportsError herror]
  simp

end Step

/-! ### Runs -/

/-- What holds of the parts in every run. -/
structure Sound (freq : Int) (s : Installation) : Prop where
  input : PowerSafety.Kept s.input
  clock : s.input.clock ≤ s.clock
  expected : s.input.entry.expectedFreq = freq
  relay : Inv (view s.connector)

section Runs

variable {freq : Int} {s : Installation}

theorem sound_start (param : ConnectorParam) (freq : Int) : Sound freq (startCharger param freq) :=
  ⟨PowerSafety.kept_create freq, UInt32.le_refl 0, rfl, inv_create param⟩

theorem sound_step (e : PlantEvent) (h : Sound freq s) (horder : s.InOrder e) : Sound freq (s.step e) := by
  cases e with
  | input e =>
      refine ⟨PowerSafety.kept_step h.input e (UInt32.le_trans h.clock horder), UInt32.le_refl _, ?_, h.relay⟩
      exact (PowerSafety.expectedFreq_step s.input e).trans h.expected
  | output e => exact ⟨h.input, UInt32.le_trans h.clock horder, h.expected, h.relay⟩
  | button e => exact ⟨h.input, h.clock, h.expected, h.relay⟩
  | process now r =>
      exact ⟨h.input, UInt32.le_trans h.clock horder, h.expected, inv_step s.connector (.process (s.reads now r)) h.relay⟩
  | enable r => exact ⟨h.input, h.clock, h.expected, inv_step s.connector (.enable r) h.relay⟩
  | disable => exact ⟨h.input, h.clock, h.expected, inv_step s.connector .disable h.relay⟩

/-- A step that is told of no error rests on the mains. -/
theorem Sound.told (h : Sound freq s) (hfreq : 3 < freq) {now : UInt32} (horder : s.clock ≤ now) {r : Readings}
    (huptime : Connector.initialStabilizationSec < r.uptime) (hquiet : reportsError (s.reads now r) = false) :
    PowerSafety.RecentEdge s.input.history now ∧ PowerSafety.MeasuredLast s.input.history freq ∧
      s.emergencyStopPressed = false := by
  rw [← Bool.not_eq_true, reportsError_reads s now r huptime, not_or, not_not, Bool.not_eq_true] at hquiet
  have hexpected := h.expected
  obtain ⟨hedge, hmeasured⟩ :=
    h.input.ok (UInt32.le_trans h.clock horder) (by rw [hexpected]; exact hfreq) hquiet.2
  exact ⟨hedge, hexpected ▸ hmeasured, hquiet.1⟩

theorem justified_of_sound (h : Sound freq s) (hfreq : 3 < freq) (e : PlantEvent) (horder : s.InOrder e) :
    Justified freq s e := by
  cases e with
  | process now r =>
      intro henabled huptime hon
      have hstep : (process (s.reads now r) s.connector).isSupplyingPower = true := by
        simpa only [Installation.step, Free.step, henabled, if_true] using hon
      by_cases herror : reportsError (s.reads now r) = true
      · refine .inl ?_
        by_contra hrow
        have hoff := off_of_reportsError h.relay herror (Bool.eq_false_iff.mpr hrow)
        exact absurd (hoff.symm.trans hstep) Bool.false_ne_true
      · exact .inr (h.told hfreq horder huptime (Bool.eq_false_iff.mpr herror))
  | _ => trivial

/-- How many steps of the connector the relay may still be closed in an outage. -/
def outageRank (level : PilotStatus) (s : Installation) : Nat :=
  if pilotRowFirst { pilot := ⟨level, 0⟩ } s.connector = true then 2
  else if s.connector.isSupplyingPower = true then 1
  else 0

theorem outageRank_of_view {s s' : Installation} (h : view s'.connector = view s.connector) (level : PilotStatus) :
    outageRank level s' = outageRank level s := by
  have hiec : s'.connector.isSupplyingPower = s.connector.isSupplyingPower := congrArg (fun v => v.2.isSupplyingPower) h
  rw [outageRank, outageRank, pilotRowFirst_of_view h, hiec]

/-- In an outage each step of the connector is told of an error. -/
theorem Outage.reportsError {level : PilotStatus} {now : UInt32} {r : Readings} (h : Outage level s (.process now r))
    (hsound : Sound freq s) (hfreq : 3 < freq) (horder : s.clock ≤ now) : reportsError (s.reads now r) = true := by
  obtain ⟨-, -, huptime, hcause⟩ := h
  by_contra hquiet
  obtain ⟨hedge, -, hreleased⟩ := hsound.told hfreq horder huptime (Bool.eq_false_iff.mpr hquiet)
  rcases hcause with hstale | hpressed
  · exact hstale hedge
  · exact absurd (hreleased.symm.trans hpressed) Bool.false_ne_true

theorem outageRank_step (h : Sound freq s) (hfreq : 3 < freq) {level : PilotStatus} (e : PlantEvent)
    (horder : s.InOrder e) (houtage : Outage level s e) :
    outageRank level (s.step e) ≤ outageRank level s - e.isProcess.toNat := by
  cases e with
  | process now r =>
      have herror := houtage.reportsError h hfreq horder
      obtain ⟨henabled, hlevel, -, -⟩ := houtage
      have hstep : (s.step (.process now r)).connector = process (s.reads now r) s.connector := by
        simp only [Installation.step, Free.step, henabled, if_true]
      have hreads : ∀ c, pilotRowFirst { pilot := ⟨level, 0⟩ } c = pilotRowFirst (s.reads now r) c :=
        pilotRowFirst_congr hlevel.symm
      rw [outageRank, hstep, hreads, pilotRowFirst_process, if_neg Bool.false_ne_true, outageRank, hreads]
      show _ ≤ _ - 1
      by_cases hrow : pilotRowFirst (s.reads now r) s.connector = true
      · rw [if_pos hrow]
        split <;> decide
      · rw [off_of_reportsError h.relay herror (Bool.eq_false_iff.mpr hrow), if_neg Bool.false_ne_true]
        exact Nat.zero_le _
  | enable r => exact Nat.le_of_eq (outageRank_of_view (by simp [Installation.step, Free.step, view]) level)
  | disable => exact Nat.le_of_eq (outageRank_of_view rfl level)
  | input e => exact Nat.le_of_eq (outageRank_of_view rfl level)
  | output e => exact Nat.le_of_eq (outageRank_of_view rfl level)
  | button e => exact Nat.le_of_eq (outageRank_of_view rfl level)

theorem outageRank_le (level : PilotStatus) (s : Installation) : outageRank level s ≤ 2 := by
  unfold outageRank
  split_ifs <;> decide

/-- In every order of mains pulses, timer ticks, presses of the button and steps of the connector, on a clock that does not run back. After two seconds of uptime a step leaves the relay closed only if the mains gave a pulse within three seconds and were measured near their frequency and the emergency stop is released, or if the step takes a row of the pilot first. And from any point of any run on, an outage in which the pilot holds still has opened the relay after two steps, and keeps it open. -/
theorem relay_follows_mains (param : ConnectorParam) {freq : Int} (hfreq : 3 < freq) {evs : List PlantEvent}
    (horder : EveryStep Installation.step Installation.InOrder (startCharger param freq) evs) :
    EveryStep Installation.step (Justified freq) (startCharger param freq) evs ∧
      ∀ level outage,
        EveryStep Installation.step Installation.InOrder (run Installation.step (startCharger param freq) evs) outage →
        EveryStep Installation.step (Outage level) (run Installation.step (startCharger param freq) evs) outage →
        2 ≤ countSteps Installation.step (fun _ e => e.isProcess)
          (run Installation.step (startCharger param freq) evs) outage →
        (run Installation.step (startCharger param freq) (evs ++ outage)).connector.isSupplyingPower = false := by
  have hstart := sound_start param freq
  have hsound : ∀ s e, Sound freq s → s.InOrder e → Sound freq (s.step e) := fun s e h horder => sound_step e h horder
  refine ⟨everyStep_of_conditional_invariant hsound (fun s e h horder => justified_of_sound h hfreq e horder)
    hstart horder, ?_⟩
  intro level outage hlater houtage hsteps
  have hreached := run_conditional_invariant hsound hstart horder
  rw [run_append]
  generalize run Installation.step (startCharger param freq) evs = s at hlater houtage hsteps hreached
  have hboth : EveryStep Installation.step (fun s e => s.InOrder e ∧ Outage level s e) s outage :=
    hlater.and houtage
  have hrank : outageRank level (run Installation.step s outage) ≤
      outageRank level s - countSteps Installation.step (fun _ e => e.isProcess) s outage :=
    rank_run_le (C := fun s e => s.InOrder e ∧ Outage level s e) (fun s e h hboth => hsound s e h hboth.1)
      (fun s e h hboth => outageRank_step h hfreq e hboth.1 hboth.2) hreached hboth
  have hle := outageRank_le level s
  have hzero : outageRank level (run Installation.step s outage) = 0 := by omega
  unfold outageRank at hzero
  split_ifs at hzero with hrow hon
  exact Bool.eq_false_iff.mpr hon

end Runs

instance (history : List PowerSafety.Happening) (now : UInt32) : Decidable (PowerSafety.RecentEdge history now) :=
  inferInstanceAs (Decidable (∃ time ∈ PowerSafety.edges history, now.toNat < time.toNat + 3000))

/-- A second of the mains, and a car that is plugged in and charges. -/
def plugAndCharge : List PlantEvent :=
  PowerSafety.firstSecond.map .input ++ [.enable {}, .process 1100 { pilot := ⟨.a, 0⟩, uptime := 3 },
    .process 1200 { pilot := ⟨.b, 100⟩, uptime := 3 }, .process 1300 { pilot := ⟨.c, 53⟩, uptime := 3 }]

/-- The mains are gone, the car still asks for power. -/
def mainsLost : List PlantEvent :=
  [.process 5000 { pilot := ⟨.c, 53⟩, uptime := 7 }, .input (.tick 5050), .process 5100 { pilot := ⟨.c, 53⟩, uptime := 7 }]

theorem relay_opens_without_mains :
    (run Installation.step (startCharger ⟨32000, 6000, by decide⟩ 60) plugAndCharge).connector.isSupplyingPower = true ∧
      (run Installation.step (startCharger ⟨32000, 6000, by decide⟩ 60)
        (plugAndCharge ++ mainsLost)).connector.isSupplyingPower = false := by
  refine ⟨by decide +kernel, ?_⟩
  have hfollows := relay_follows_mains ⟨32000, 6000, by decide⟩ (show (3 : Int) < 60 by decide)
    (show EveryStep Installation.step Installation.InOrder (startCharger ⟨32000, 6000, by decide⟩ 60) plugAndCharge by
      decide +kernel)
  have hcharging : ∀ s, s = run Installation.step (startCharger ⟨32000, 6000, by decide⟩ 60) plugAndCharge →
      ¬ PowerSafety.RecentEdge s.input.history 5000 ∧
        ¬ PowerSafety.RecentEdge (run Installation.step s (mainsLost.take 2)).input.history 5100 := by
    rintro _ rfl
    decide +kernel
  obtain ⟨hfirst, hsecond⟩ := hcharging _ rfl
  refine hfollows.2 .c mainsLost (by decide +kernel) ?_ (by decide +kernel)
  exact ⟨⟨by decide +kernel, rfl, by decide, .inl hfirst⟩, trivial,
    ⟨by decide +kernel, rfl, by decide, .inl hsecond⟩, trivial⟩

end Evse.Free
