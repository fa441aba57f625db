import Evse.Free.Connector

/-!
# When a free connector supplies power

One lemma for each state of the machine says what a step makes of the machine's state and of the IEC layer, as the chain of guards the table amounts to in that state. Everything else here is read off these chains: the invariant that ties the relay to the states C and D, and exactly which steps leave the relay closed while an error is reported.
-/

namespace Evse.Free

open RowTable StepRun

/-- The part of a free connector that decides about power. -/
def view (c : FreeConnector) : ConnectorState × Iec61851 := (c.fsm, c.iec61851)

section Views

variable (r : Readings) (c : FreeConnector)

theorem view_callback (events : ConnectorEvent) : view (c.callback events) = view c := by
  unfold Connector.callback
  split <;> rfl

theorem view_onStateChange (newState prevState : ConnectorState) :
    view (onStateChange r newState prevState c) = view c := by
  unfold onStateChange
  dsimp only
  split
  · rw [view_callback]
    rfl
  · rfl

@[simp] theorem view_doStopPwm : view (doStopPwm c) = (c.fsm, c.iec61851.setCurrent 0) := rfl

@[simp] theorem view_doStartPwm :
    view (doStartPwm c) = (c.fsm, c.iec61851.setCurrent c.param.maxOutputCurrent) := rfl

@[simp] theorem view_doSupplyPower : view (doSupplyPower c) = (c.fsm, c.iec61851.startPowerSupply) := by
  rw [← c.iec61851.ite_startPowerSupply]
  unfold doSupplyPower Connector.isSupplyingPower
  split <;> rfl

@[simp] theorem view_doStopPower : view (doStopPower c) = (c.fsm, c.iec61851.stopPowerSupply) := by
  rw [← c.iec61851.ite_stopPowerSupply]
  unfold doStopPower Connector.isSupplyingPower
  split <;> rfl

@[simp] theorem view_doStopAll :
    view (doStopAll c) = (c.fsm, c.iec61851.stopPowerSupply.setCurrent 0) := by
  have h := view_doStopPower c
  simp only [view, Prod.mk.injEq] at h
  simp only [view, doStopAll, Connector.stopDuty, h]

@[simp] theorem view_doUnexpected : view (doUnexpected c) = (c.fsm, c.iec61851.setStateF) := rfl

theorem view_doError : view (doError c) = (c.fsm, c.iec61851.stopPowerSupply.setStateF) := by
  rw [← c.iec61851.ite_stopPowerSupply]
  unfold doError Connector.isSupplyingPower
  dsimp only
  split <;> rfl

@[simp] theorem view_doEvseError :
    view (doEvseError r c) = (c.fsm, c.iec61851.stopPowerSupply.setStateF) := view_doError c

@[simp] theorem view_doEvError :
    view (doEvError c) = (c.fsm, c.iec61851.stopPowerSupply.setStateF) := view_doError c

end Views

/-! ### One step, state by state -/

section Process

variable {r : Readings} {c : FreeConnector}

theorem view_process (r : Readings) (c : FreeConnector) :
    view (process r c) = view ((machine r).move c.fsm c (transitions r)) :=
  (machine r).step_eq_move view (fun new prev c => view_onStateChange r c new prev) c

/-- Unfolds the table at a fixed present state into its chain of guards. -/
theorem move_cons (row : Row ConnectorState FreeConnector) (rows : List (Row ConnectorState FreeConnector)) (s : ConnectorState) :
    view ((machine r).move s c (row :: rows)) =
      if row.present = s ∧ row.guard row.present row.next c = true then view (row.perform { c with fsm := row.next })
      else view ((machine r).move s c rows) := by
  rw [Machine.move]
  exact apply_ite view _ _ _

theorem move_nil (s : ConnectorState) : view ((machine r).move s c []) = view c := rfl

theorem view_process_e (h : c.fsm = .e) :
    view (process r c) = if isInitial r .e c then (.a, c.iec61851.setCurrent 0) else (.e, c.iec61851) := by
  rw [view_process, h]
  simp only [transitions, item, move_cons, reduceCtorEq, false_and, true_and, if_false, Row.perform,
    view_doStopPwm, move_nil]
  simp only [view, h]

theorem view_process_a (h : c.fsm = .a) :
    view (process r c) =
      if c.state r = .b then (.b, c.iec61851.setCurrent c.param.maxOutputCurrent)
      else if c.state r = .c then (.f, c.iec61851.setStateF)
      else if c.state r = .d then (.f, c.iec61851.setStateF)
      else if c.state r = .e then (.f, c.iec61851.setStateF)
      else if c.isEvseError r .a then (.f, c.iec61851.stopPowerSupply.setStateF)
      else (.a, c.iec61851) := by
  rw [view_process, h]
  simp only [transitions, item, move_cons, reduceCtorEq, false_and, true_and, if_false, Row.perform,
    view_doStartPwm, view_doUnexpected, view_doEvseError, move_nil, isStateB, isStateC, isStateD,
    isStateE, isStateF, Connector.isStateX, decide_eq_true_eq]
  simp only [view, h]

theorem view_process_b (h : c.fsm = .b) :
    view (process r c) =
      if c.state r = .a then (.a, c.iec61851.setCurrent 0)
      else if c.isStateX2 r .c then (.c, c.iec61851.startPowerSupply)
      else if c.isStateX2 r .d then (.d, c.iec61851.startPowerSupply)
      else if c.state r = .e then (.f, c.iec61851.stopPowerSupply.setStateF)
      else if c.isEvseError r .b then (.f, c.iec61851.stopPowerSupply.setStateF)
      else (.b, c.iec61851) := by
  rw [view_process, h]
  simp only [transitions, item, move_cons, reduceCtorEq, false_and, true_and, if_false, Row.perform,
    view_doStopPwm, view_doSupplyPower, view_doEvError, view_doEvseError, move_nil, isStateA,
    isStateC2, isStateD2, isStateE, isStateF, Connector.isStateX, decide_eq_true_eq]
  simp only [view, h]

theorem view_process_c (h : c.fsm = .c) :
    view (process r c) =
      if c.state r = .a then (.a, c.iec61851.stopPowerSupply.setCurrent 0)
      else if c.state r = .b then (.b, c.iec61851.stopPowerSupply)
      else if c.state r = .d then (.d, c.iec61851)
      else if c.state r = .e then (.f, c.iec61851.stopPowerSupply.setStateF)
      else if c.isEvseError r .c then (.f, c.iec61851.stopPowerSupply.setStateF)
      else (.c, c.iec61851) := by
  rw [view_process, h]
  simp only [transitions, item, move_cons, reduceCtorEq, false_and, true_and, if_false, Row.perform,
    view_doStopAll, view_doStopPower, view_doEvError, view_doEvseError, move_nil, isStateA, isStateB,
    isStateD, isStateE, isStateF, Connector.isStateX, decide_eq_true_eq]
  simp only [view, h]

theorem view_process_d (h : c.fsm = .d) :
    view (process r c) =
      if c.state r = .a then (.a, c.iec61851.stopPowerSupply.setCurrent 0)
      else if c.state r = .b then (.b, c.iec61851.stopPowerSupply)
      else if c.state r = .c then (.c, c.iec61851)
      else if c.state r = .e then (.f, c.iec61851.stopPowerSupply.setStateF)
      else if c.isEvseError r .d then (.f, c.iec61851.stopPowerSupply.setStateF)
      else (.d, c.iec61851) := by
  rw [view_process, h]
  simp only [transitions, item, move_cons, reduceCtorEq, false_and, true_and, if_false, Row.perform,
    view_doStopAll, view_doStopPower, view_doEvError, view_doEvseError, move_nil, isStateA, isStateB,
    isStateC, isStateE, isStateF, Connector.isStateX, decide_eq_true_eq]
  simp only [view, h]

theorem view_process_f (h : c.fsm = .f) :
    view (process r c) =
      if c.state r ≠ .f then (.f, c.iec61851.setStateF)
      else if isRecovered r c then (.a, c.iec61851.setCurrent 0)
      else (.f, c.iec61851) := by
  rw [view_process, h]
  simp only [transitions, item, move_cons, reduceCtorEq, false_and, true_and, if_false, Row.perform,
    view_doUnexpected, view_doStopPwm, move_nil, isStateA, isStateB, isStateC, isStateD, isStateE,
    Connector.isStateX, decide_eq_true_eq]
  simp only [view, h]
  cases c.state r <;> simp

end Process

/-! ### The invariant -/

/-- The relay is closed exactly in C and D, the pilot is driven in A to D and at 0% in F. -/
structure Inv (v : ConnectorState × Iec61851) : Prop where
  supplying_iff : v.2.isSupplyingPower = true ↔ v.1 = .c ∨ v.1 = .d
  duty_f : v.1 = .f → v.2.pilotDutyPct = 0
  duty_pos : v.1 ≠ .e → v.1 ≠ .f → 0 < v.2.pilotDutyPct

section Invariant

variable {iec : Iec61851}

theorem inv_fault (hoff : iec.isSupplyingPower = false) : Inv (.f, iec.setStateF) :=
  ⟨by simp [hoff], by simp, by simp⟩

theorem inv_idle (hoff : iec.isSupplyingPower = false) : Inv (.a, iec.setCurrent 0) :=
  ⟨by simp [hoff], by simp, by simp⟩

theorem inv_plugged (hoff : iec.isSupplyingPower = false) (m : Nat) : Inv (.b, iec.setCurrent m) :=
  ⟨by simp [hoff], by simp, fun _ _ => Iec61851.milliampereToDuty_pos m⟩

theorem inv_suspended (hpos : 0 < iec.pilotDutyPct) : Inv (.b, iec.stopPowerSupply) :=
  ⟨by simp, by simp, fun _ _ => hpos⟩

theorem inv_supplying {s : ConnectorState} (hs : s = .c ∨ s = .d) (hon : iec.isSupplyingPower = true)
    (hpos : 0 < iec.pilotDutyPct) : Inv (s, iec) := by
  refine ⟨iff_of_true hon hs, ?_, fun _ _ => hpos⟩
  rintro rfl
  simp at hs

theorem inv_create (param : ConnectorParam) : Inv (view (create param)) :=
  ⟨by simp [view, create, Connector.create], by simp [view, create, Connector.create],
    by simp [view, create, Connector.create]⟩

end Invariant

section Steps

variable {r : Readings} {c : FreeConnector}

theorem off_of_state (h : Inv (view c)) (hc : c.fsm ≠ .c) (hd : c.fsm ≠ .d) :
    c.iec61851.isSupplyingPower = false := by
  have hnot : ¬ (c.fsm = .c ∨ c.fsm = .d) := by
    rintro (heq | heq)
    · exact hc heq
    · exact hd heq
  exact Bool.eq_false_iff.mpr fun hon => hnot (h.supplying_iff.mp hon)

/-- In F the pilot is at 0%, so F is also what the connector reads. -/
theorem state_eq_f (h : Inv (view c)) (hf : c.fsm = .f) (r : Readings) : c.state r = .f :=
  c.state_eq_f_of_duty_zero r (h.duty_f hf)

theorem inv_process (h : Inv (view c)) : Inv (view (process r c)) := by
  cases hs : c.fsm with
  | e =>
      have hoff := off_of_state h (by simp [hs]) (by simp [hs])
      rw [view_process_e hs]
      split
      · exact inv_idle hoff
      · exact hs ▸ h
  | a =>
      have hoff := off_of_state h (by simp [hs]) (by simp [hs])
      rw [view_process_a hs]
      split_ifs
      · exact inv_plugged hoff _
      · exact inv_fault hoff
      · exact inv_fault hoff
      · exact inv_fault hoff
      · exact inv_fault rfl
      · exact hs ▸ h
  | b =>
      have hoff := off_of_state h (by simp [hs]) (by simp [hs])
      have hpos : 0 < c.iec61851.pilotDutyPct := h.duty_pos (by simp [view, hs]) (by simp [view, hs])
      rw [view_process_b hs]
      split_ifs
      · exact inv_idle hoff
      · exact inv_supplying (.inl rfl) rfl hpos
      · exact inv_supplying (.inr rfl) rfl hpos
      · exact inv_fault rfl
      · exact inv_fault rfl
      · exact hs ▸ h
  | c =>
      have hon : c.iec61851.isSupplyingPower = true := h.supplying_iff.mpr (.inl hs)
      have hpos : 0 < c.iec61851.pilotDutyPct := h.duty_pos (by simp [view, hs]) (by simp [view, hs])
      rw [view_process_c hs]
      split_ifs
      · exact inv_idle rfl
      · exact inv_suspended hpos
      · exact inv_supplying (.inr rfl) hon hpos
      · exact inv_fault rfl
      · exact inv_fault rfl
      · exact hs ▸ h
  | d =>
      have hon : c.iec61851.isSupplyingPower = true := h.supplying_iff.mpr (.inr hs)
      have hpos : 0 < c.iec61851.pilotDutyPct := h.duty_pos (by simp [view, hs]) (by simp [view, hs])
      rw [view_process_d hs]
      split_ifs
      · exact inv_idle rfl
      · exact inv_suspended hpos
      · exact inv_supplying (.inl rfl) hon hpos
      · exact inv_fault rfl
      · exact inv_fault rfl
      · exact hs ▸ h
  | f =>
      have hoff := off_of_state h (by simp [hs]) (by simp [hs])
      rw [view_process_f hs]
      split_ifs
      · exact inv_fault hoff
      · exact inv_idle hoff
      · exact hs ▸ h

theorem inv_step (c : FreeConnector) (e : Event) (h : Inv (view c)) : Inv (view (step c e)) := by
  cases e with
  | process r =>
      show Inv (view (if c.enabled then process r c else c))
      split
      · exact inv_process h
      · exact h
  | enable r =>
      have hview : view (step c (.enable r)) = view c := by simp [view, step]
      exact hview ▸ h
  | disable => exact h

theorem inv_run (param : ConnectorParam) (evs : List Event) : Inv (view (run step (create param) evs)) :=
  run_invariant inv_step (inv_create param) evs

end Steps

/-! ### Which steps leave the relay closed -/

section Supplying

variable (r : Readings) (c : FreeConnector)

/-- A row the pilot enables comes before the row for an EVSE error: B to C or D, C to D, D to C. -/
def pilotRowFirst : Bool :=
  (c.fsm = .b && (isStateC2 r c || isStateD2 r c)) || (c.fsm = .c && isStateD r c) || (c.fsm = .d && isStateC r c)

/-- The steps that leave the relay closed take a row the pilot enables, or no row at all. -/
theorem supplying_process_iff (h : Inv (view c)) :
    (process r c).isSupplyingPower = true ↔
      pilotRowFirst r c = true ∨
        (c.fsm = .c ∧ c.state r = .c ∨ c.fsm = .d ∧ c.state r = .d) ∧ c.isEvseError r c.fsm = false := by
  have hview : (process r c).isSupplyingPower = (view (process r c)).2.isSupplyingPower := rfl
  rw [hview]
  cases hs : c.fsm with
  | e =>
      have hoff := off_of_state h (by simp [hs]) (by simp [hs])
      rw [view_process_e hs]
      split <;> simp [pilotRowFirst, hs, hoff]
  | a =>
      have hoff := off_of_state h (by simp [hs]) (by simp [hs])
      rw [view_process_a hs]
      split_ifs <;> simp [pilotRowFirst, hs, hoff]
  | b =>
      have hoff := off_of_state h (by simp [hs]) (by simp [hs])
      rw [view_process_b hs]
      simp only [pilotRowFirst, isStateC2, isStateD2, hs]
      split_ifs <;> simp_all [Connector.isStateX2]
  | c =>
      have hon : c.iec61851.isSupplyingPower = true := h.supplying_iff.mpr (.inl hs)
      rw [view_process_c hs]
      simp only [pilotRowFirst, isStateD, Connector.isStateX, hs]
      have herror : c.state r = .f → c.isEvseError r .c = true := by
        intro hf
        simp [Connector.isEvseError, hf]
      cases hstate : c.state r with
      | f => simp [herror hstate]
      | c => cases herr : c.isEvseError r .c <;> simp [hon]
      | _ => simp [hon]
  | d =>
      have hon : c.iec61851.isSupplyingPower = true := h.supplying_iff.mpr (.inr hs)
      rw [view_process_d hs]
      simp only [pilotRowFirst, isStateC, Connector.isStateX, hs]
      have herror : c.state r = .f → c.isEvseError r .d = true := by
        intro hf
        simp [Connector.isEvseError, hf]
      cases hstate : c.state r with
      | f => simp [herror hstate]
      | d => cases herr : c.isEvseError r .d <;> simp [hon]
      | _ => simp [hon]
  | f =>
      have hoff := off_of_state h (by simp [hs]) (by simp [hs])
      rw [view_process_f hs]
      split_ifs <;> simp [pilotRowFirst, hs, hoff]

end Supplying

/-- The relay is closed exactly in C and D, and after a step only with the pilot in C or D. In F the pilot is at 0%, so none of the rows for A to E fires there and the only way out is the recovery row. -/
theorem power_safety (param : ConnectorParam) (evs : List Event) :
    let c := run step (create param) evs
    (c.isSupplyingPower = true ↔ c.fsm = .c ∨ c.fsm = .d) ∧
      (c.fsm = .f → c.getTargetDuty = 0) ∧
      ∀ r, (c.fsm = .f → (isStateA r c || isStateB r c || isStateC r c || isStateD r c || isStateE r c) = false) ∧
        (c.fsm = .f → (step c (.process r)).fsm ≠ .f → isRecovered r c = true ∧ (step c (.process r)).fsm = .a) ∧
        (c.enabled = true → (step c (.process r)).isSupplyingPower = true →
          r.pilot.status = .c ∨ r.pilot.status = .d) := by
  intro c
  have h : Inv (view c) := inv_run param evs
  refine ⟨h.supplying_iff, h.duty_f, fun r => ⟨?_, ?_, ?_⟩⟩
  · intro hf
    simp [isStateA, isStateB, isStateC, isStateD, isStateE, Connector.isStateX, state_eq_f h hf r]
  · intro hf hleft
    by_cases henabled : c.enabled = true
    · have hfsm : (step c (.process r)).fsm = (view (process r c)).1 := by
        simp only [step, henabled, if_true]
        rfl
      rw [hfsm, view_process_f hf, if_neg (by simp [state_eq_f h hf r])] at hleft ⊢
      by_cases hrec : isRecovered r c = true
      · exact ⟨hrec, by rw [if_pos hrec]⟩
      · rw [if_neg hrec] at hleft
        exact absurd rfl hleft
    · simp [step, henabled, hf] at hleft
  · intro henabled hon
    simp only [step, henabled, if_true] at hon
    apply c.pilot_of_state r
    rcases (supplying_process_iff r c h).mp hon with hrow | ⟨hstay, -⟩
    · simp only [pilotRowFirst, isStateC2, isStateD2, isStateC, isStateD, Connector.isStateX2,
        Connector.isStateX, Bool.or_eq_true, Bool.and_eq_true, decide_eq_true_eq] at hrow
      tauto
    · tauto

/-! ### Errors and the relay -/

/-- The safety module reports an emergency stop, or bad input power after the stabilisation time. -/
def reportsError (r : Readings) : Bool :=
  isEmergencyStop r.safety || (!isInputPowerOk r.safety && r.uptime > Connector.initialStabilizationSec)

theorem isEvseError_of_reportsError {r : Readings} {c : FreeConnector} {s : ConnectorState}
    (h : reportsError r = true) : c.isEvseError r s = true := by
  unfold Connector.isEvseError
  rw [if_pos]
  simp only [reportsError, Bool.or_eq_true] at h ⊢
  tauto

/-- The step is one of an enabled connector during which the safety module reports an error. -/
def errorStep (c : FreeConnector) : Event → Bool
  | .process r => c.enabled && reportsError r
  | _ => false

/-- A row that the pilot enables is taken in the step. -/
def takesPilotRow (c : FreeConnector) : Event → Bool
  | .process r => pilotRowFirst r c
  | _ => false

/-- A run keeps the relay open through every step with an error exactly when no such step takes one of the rows the pilot enables before the row for an error. -/
theorem relay_off_on_error_iff (param : ConnectorParam) (evs : List Event) :
    EveryStep step (fun c e => errorStep c e = true → (step c e).isSupplyingPower = false) (create param) evs ↔
      EveryStep step (fun c e => errorStep c e = true → takesPilotRow c e = false) (create param) evs := by
  refine everyStep_congr inv_step ?_ (inv_create param) evs
  intro c e h
  refine forall_congr' fun herror => ?_
  cases e with
  | process r =>
      simp only [errorStep, Bool.and_eq_true] at herror
      have hevse : c.isEvseError r c.fsm = true := isEvseError_of_reportsError herror.2
      simp only [step, herror.1, if_true, takesPilotRow]
      rw [← Bool.not_eq_true, ← Bool.not_eq_true, supplying_process_iff r c h]
      simp [hevse]
  | enable r => simp [errorStep] at herror
  | disable => simp [errorStep] at herror

/-- An emergency stop pressed while the pilot goes from C to D: the connector is plugged in, charges in C, and then goes on in D. -/
theorem relay_on_in_emergency_stop :
    ¬ EveryStep step (fun c e => errorStep c e = true → (step c e).isSupplyingPower = false)
        (create ⟨32000, 6000, by decide⟩) [.enable {}, .process { pilot := ⟨.a, 0⟩ },
          .process { pilot := ⟨.b, 100⟩ }, .process { pilot := ⟨.c, 53⟩ },
          .process { pilot := ⟨.d, 53⟩, safety := some [⟨.es, .emergencyStop⟩] }] := by
  decide

end Evse.Free
