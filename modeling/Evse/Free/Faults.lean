import Evse.Free.Power
import Evse.Free.Events

/-!
# The fault state of a free connector

In F the pilot is at 0%, so the recovery row is the only one that leads out, and it is the one row out of which `connector_error` comes wrong: the error of the fault is set on the way in and never cleared.

The recovery waits for six seconds by the wall clock, which may be set while it waits. The elapsed time is cut to 32 bits without its sign, so to a clock that was set back it has long passed.
-/

namespace Evse.Free

open RowTable StepRun

section Leaving

variable {r : Readings} {c : FreeConnector}

/-- A step of an enabled connector in F leads out exactly if it has recovered. -/
theorem fsm_process_f (h : Inv (view c)) (hf : c.fsm = .f) :
    (process r c).fsm = if isRecovered r c then .a else .f := by
  have hview : (process r c).fsm = (view (process r c)).1 := rfl
  rw [hview, view_process_f hf, if_neg (by simp [state_eq_f h hf r])]
  split <;> rfl

/-- The step is one in F that recovers. -/
def recovers (c : FreeConnector) : Event → Bool
  | .process r => c.enabled && c.fsm = .f && isRecovered r c
  | _ => false

theorem leaves_iff_recovers (h : Inv (view c)) (e : Event) :
    c.fsm = .f ∧ (step c e).fsm ≠ .f ↔ recovers c e = true := by
  cases e with
  | process r =>
      by_cases henabled : c.enabled = true
      · have hstep : step c (.process r) = process r c := if_pos henabled
        rw [hstep]
        by_cases hf : c.fsm = .f
        · rw [fsm_process_f h hf]
          cases hrecovered : isRecovered r c <;> simp [recovers, henabled, hf, hrecovered]
        · simp [recovers, hf]
      · have hstep : step c (.process r) = c := if_neg henabled
        rw [hstep]
        simp [recovers, henabled]
  | enable r =>
      have hfsm : (step c (.enable r)).fsm = c.fsm := c.enable_fsm r
      rw [hfsm]
      simp [recovers]
  | disable =>
      have hfsm : (step c .disable).fsm = c.fsm := rfl
      rw [hfsm]
      simp [recovers]

end Leaving

/-! ### The error a connector reports -/

/-- `connector_error` reports an error exactly in F. -/
def ReportsFault (c : FreeConnector) : Prop := c.error ≠ .none ↔ c.fsm = .f

instance (c : FreeConnector) : Decidable (ReportsFault c) := inferInstanceAs (Decidable (_ ↔ _))

section Errors

variable {r : Readings} {c : FreeConnector}

theorem Acts.error_ne_none {c' : FreeConnector} (h : Acts r c .f c') : c'.error ≠ .none := by
  cases h with
  | none hne | startPwm hne | stopPwm hne | supplyPower hne | stopPower hne | stopAll hne => exact absurd rfl hne
  | unexpected | evError => exact ConnectorError.noConfusion
  | evseError =>
    unfold doEvseError
    dsimp only
    split <;> exact ConnectorError.noConfusion

theorem Acts.error_eq {next : ConnectorState} {c' : FreeConnector} (h : Acts r c next c') (hnext : next ≠ .f) :
    c'.error = c.error := by
  have hstop : (doStopPower c).error = c.error := by
    unfold doStopPower
    split <;> rfl
  cases h with
  | none _ | startPwm _ | stopPwm _ => rfl
  | supplyPower _ =>
    unfold doSupplyPower
    split <;> rfl
  | stopPower _ | stopAll _ => exact hstop
  | unexpected | evError | evseError => exact absurd rfl hnext

theorem error_onStateChange (newState prevState : ConnectorState) :
    (onStateChange r newState prevState c).error = c.error := by
  unfold onStateChange Connector.callback
  dsimp only
  split
  · split <;> rfl
  · rfl

/-- A step that takes a row to F sets the error, and one that ends elsewhere leaves it. -/
theorem error_process (r : Readings) (c : FreeConnector) :
    ((process r c).fsm = .f → process r c = c ∨ (process r c).error ≠ .none) ∧
      ((process r c).fsm ≠ .f → (process r c).error = c.error) := by
  obtain hnone | ⟨row, hrow, -, -, hfire⟩ := (machine r).step_cases c
  · have hsame : process r c = c := hnone
    exact ⟨fun _ => .inl hsame, fun _ => congrArg Connector.error hsame⟩
  · have hfire : process r c = (machine r).fire row c := hfire
    have hacts := (row_cases r { c with fsm := row.next } hrow).2
    have hfsm : (row.perform { c with fsm := row.next }).fsm = row.next := congrArg Prod.fst hacts.frame_eq
    have hafter : (process r c).error = (row.perform { c with fsm := row.next }).error ∧
        (process r c).fsm = row.next := by
      rw [hfire, Machine.fire]
      split
      · exact ⟨rfl, hfsm⟩
      · refine ⟨error_onStateChange _ _, ?_⟩
        exact (congrArg Prod.fst (view_onStateChange r _ row.next row.present)).trans hfsm
    rw [hafter.1, hafter.2]
    refine ⟨fun hf => .inr ?_, hacts.error_eq⟩
    rw [hf] at hacts
    rw [hf]
    exact hacts.error_ne_none

/-- A step keeps the report right unless it recovers. -/
theorem reportsFault_step_iff (c : FreeConnector) (e : Event) (h : Inv (view c)) (hreport : ReportsFault c) :
    ReportsFault (step c e) ↔ recovers c e = false := by
  have hleaves := leaves_iff_recovers h e
  rw [← Bool.not_eq_true, ← hleaves]
  have hsame : (step c e).fsm = c.fsm → (step c e).error = c.error →
      (ReportsFault (step c e) ↔ ¬ (c.fsm = .f ∧ (step c e).fsm ≠ .f)) := by
    intro hfsm herror
    rw [ReportsFault, hfsm, herror]
    exact iff_of_true hreport fun hboth => hboth.2 hboth.1
  cases e with
  | process r =>
      by_cases henabled : c.enabled = true
      · have hstep : step c (.process r) = process r c := if_pos henabled
        obtain ⟨hinto, helse⟩ := error_process r c
        rw [hstep]
        by_cases hf : (process r c).fsm = .f
        · refine iff_of_true ?_ fun hboth => hboth.2 hf
          obtain hstays | herror := hinto hf
          · rw [hstays]
            exact hreport
          · exact iff_of_true herror hf
        · rw [ReportsFault, helse hf]
          constructor
          · exact fun hiff hboth => hf (hiff.1 (hreport.2 hboth.1))
          · intro hnot
            exact iff_of_false (fun herror => hnot ⟨hreport.1 herror, hf⟩) hf
      · have hstep : step c (.process r) = c := if_neg henabled
        exact hsame (by rw [hstep]) (by rw [hstep])
  | enable r =>
      refine hsame (c.enable_fsm r) ?_
      show (c.enable r).error = c.error
      unfold Connector.enable Connector.callback
      split <;> rfl
  | disable => exact hsame rfl rfl

end Errors

theorem reportsFault_create (param : ConnectorParam) : ReportsFault (create param) :=
  iff_of_false (not_not.2 rfl) ConnectorState.noConfusion

/-- Along a run the report is right exactly when no step of the run recovers. -/
theorem reportsFault_run_iff (param : ConnectorParam) (evs : List Event) :
    EveryState step ReportsFault (create param) evs ↔
      EveryStep step (fun c e => recovers c e = false) (create param) evs :=
  everyState_iff_everyStep inv_step reportsFault_step_iff (inv_create param) (reportsFault_create param) evs

/-! ### The time spent in F -/

/-- A connector and the reading of the clock when F was last entered. -/
structure Dwell where
  connector : FreeConnector
  entered : Int
  deriving DecidableEq

def Dwell.create (param : ConnectorParam) : Dwell := ⟨Free.create param, 0⟩

/-- The reading taken on entering F is the one of the state change callback. -/
def Dwell.step (s : Dwell) (e : Event) : Dwell where
  connector := Free.step s.connector e
  entered :=
    match e with
    | .process r => if s.connector.fsm ≠ .f ∧ (Free.step s.connector e).fsm = .f then r.changeTime else s.entered
    | _ => s.entered

/-- The step leaves F only with the input power in order, no emergency stop, and six seconds by the clock since F was entered. -/
def Dwell.LeavesDuly (s : Dwell) (e : Event) : Prop :=
  s.connector.fsm = .f → (Free.step s.connector e).fsm ≠ .f →
    ∃ r, e = .process r ∧ isInputPowerOk r.safety = true ∧ isEmergencyStop r.safety = false ∧
      r.guardTime - s.entered ≥ Connector.evResponseTimeoutSec

/-- Where the step finds F and the power in order, the clock is six seconds past the entry, or what is left of the elapsed time in 32 bits is less than six seconds. -/
def Dwell.ClockHolds (s : Dwell) (e : Event) : Prop :=
  ∀ r, e = .process r → s.connector.enabled = true → s.connector.fsm = .f → isInputPowerOk r.safety = true →
    isEmergencyStop r.safety = false →
      r.guardTime - s.entered ≥ Connector.evResponseTimeoutSec ∨
        (r.guardTime - s.connector.timeLastStateChange) % 2 ^ 32 < Connector.evResponseTimeoutSec

theorem isRecovered_iff (r : Readings) (c : FreeConnector) :
    isRecovered r c = true ↔
      isInputPowerOk r.safety = true ∧ isEmergencyStop r.safety = false ∧
        ¬ (r.guardTime - c.timeLastStateChange) % 2 ^ 32 < Connector.evResponseTimeoutSec := by
  have hnonneg : 0 ≤ (r.guardTime - c.timeLastStateChange) % 2 ^ 32 := Int.emod_nonneg _ (by decide)
  unfold isRecovered Connector.isEvResponseTimeout
  cases isInputPowerOk r.safety <;> cases isEmergencyStop r.safety <;> simp
  omega

theorem leavesDuly_iff (s : Dwell) (e : Event) (h : Inv (view s.connector)) : s.LeavesDuly e ↔ s.ClockHolds e := by
  have hleaves := leaves_iff_recovers h e
  constructor
  · rintro hduly r rfl henabled hf hpower hstop
    by_cases hshort : (r.guardTime - s.connector.timeLastStateChange) % 2 ^ 32 < Connector.evResponseTimeoutSec
    · exact .inr hshort
    · have hrecovers : recovers s.connector (.process r) = true := by
        have hrecovered := (isRecovered_iff r s.connector).2 ⟨hpower, hstop, hshort⟩
        simp [recovers, henabled, hf, hrecovered]
      obtain ⟨r', hr, -, -, helapsed⟩ := hduly hf (hleaves.2 hrecovers).2
      rw [Event.process.injEq] at hr
      exact .inl (hr ▸ helapsed)
  · intro hclock hf hleft
    have hrecovers := hleaves.1 ⟨hf, hleft⟩
    cases e with
    | process r =>
        simp only [recovers, Bool.and_eq_true] at hrecovers
        obtain ⟨hpower, hstop, hlong⟩ := (isRecovered_iff r s.connector).1 hrecovers.2
        obtain helapsed | hshort := hclock r rfl hrecovers.1.1 hf hpower hstop
        · exact ⟨r, rfl, hpower, hstop, helapsed⟩
        · exact absurd hshort hlong
    | enable r => exact absurd hrecovers (by simp [recovers])
    | disable => exact absurd hrecovers (by simp [recovers])

theorem inv_dwell (s : Dwell) (e : Event) (h : Inv (view s.connector)) : Inv (view (s.step e).connector) :=
  inv_step s.connector e h

/-- In a run F is left duly exactly when no step in it meets a clock that makes less than six seconds look like more. -/
theorem dwell_duly_iff (param : ConnectorParam) (evs : List Event) :
    EveryStep Dwell.step Dwell.LeavesDuly (.create param) evs ↔
      EveryStep Dwell.step Dwell.ClockHolds (.create param) evs :=
  everyStep_congr inv_dwell leavesDuly_iff (inv_create param) evs

/-- An emergency stop at 100, the clock set back to 40 while F lasts, and the next step leaves F. -/
def clockSetBack : List Event := [
  .enable {}, .process { pilot := ⟨.a, 0⟩ },
  .process { pilot := ⟨.a, 100⟩, safety := some [⟨.es, .emergencyStop⟩], changeTime := 100 },
  .process { pilot := ⟨.a, 100⟩, guardTime := 40 }]

theorem left_before_entered :
    ¬ EveryStep Dwell.step Dwell.LeavesDuly (.create ⟨32000, 6000, by decide⟩) clockSetBack := by
  intro h
  obtain ⟨-, -, -, hlast, -⟩ := h
  obtain ⟨r, hr, -, -, helapsed⟩ := hlast rfl (by decide)
  rw [Event.process.injEq] at hr
  subst hr
  exact absurd helapsed (by decide)

end Evse.Free
