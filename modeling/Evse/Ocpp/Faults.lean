import Evse.Free.Faults
import Evse.Ocpp.Stops

/-!
# What is reported of a fault

A `StatusNotification.req` takes its status from the machine and its error code from the connector's error, and no action of the OCPP connector writes that error. So the way into Faulted is told with no error, and `connector_error` answers none in Faulted. The free connector does write it, on the way into F, and keeps it on the way out.
-/

namespace Evse.Ocpp

open RowTable StepRun

/-! ### What the machine notifies of -/

/-- The world notifies of nothing but its present state and error, and changes neither. -/
structure Notes (w w' : World) : Prop where
  fsm : w'.base.fsm = w.base.fsm
  error : w'.base.error = w.base.error
  notices : ∃ sent, notices w' = notices w ++ sent ∧ ∀ n ∈ sent, n = (w.base.fsm, mapErrorToOcpp w.base.error)

namespace Notes

theorem of_eq {w w' : World} (hfsm : w'.base.fsm = w.base.fsm) (herror : w'.base.error = w.base.error)
    (hrequests : w'.requests = w.requests) : Notes w w' := by
  refine ⟨hfsm, herror, [], ?_, fun _ hmem => absurd hmem List.not_mem_nil⟩
  rw [List.append_nil, Ocpp.notices, hrequests]
  rfl

theorem refl (w : World) : Notes w w := of_eq rfl rfl rfl

theorem trans {w₁ w₂ w₃ : World} (h : Notes w₁ w₂) (h' : Notes w₂ w₃) : Notes w₁ w₃ := by
  obtain ⟨sent, hsent, hall⟩ := h.notices
  obtain ⟨sent', hsent', hall'⟩ := h'.notices
  refine ⟨h'.fsm.trans h.fsm, h'.error.trans h.error, sent ++ sent', ?_, ?_⟩
  · rw [hsent', hsent, List.append_assoc]
  · intro n hn
    obtain hn | hn := List.mem_append.1 hn
    · exact hall n hn
    · rw [hall' n hn, h.fsm, h.error]

theorem request (w : World) (payload : Payload) (hpayload : payload.notice = none) :
    Notes w (csmsRequest w payload) := by
  refine ⟨rfl, rfl, [], ?_, fun _ hmem => absurd hmem List.not_mem_nil⟩
  simp [Ocpp.notices, csmsRequest, hpayload]

theorem sendConnectorStatus (w : World) (info : Option String) : Notes w (sendConnectorStatus w info) := by
  refine ⟨rfl, rfl, [(w.base.fsm, mapErrorToOcpp w.base.error)], ?_, fun _ hmem => List.mem_singleton.1 hmem⟩
  simp [Ocpp.notices, Ocpp.sendConnectorStatus, csmsRequest, doStatusnotification, Payload.notice]

section Actions

variable (env : Env) (state : OcppState) (w : World)

theorem clearSession : Notes w (clearSession w) := of_eq rfl rfl rfl

theorem doMissingTransaction : Notes w (doMissingTransaction env state w) := by
  unfold Ocpp.doMissingTransaction
  split_ifs
  · exact refl w
  · exact (of_eq rfl rfl rfl : Notes w (readStopEnergy env (setTid w w.checkpoint.transactionId))).trans
      ((request _ (doStoptransaction _ _) rfl).trans (clearSession _))
  · exact refl w

theorem doUnavailable : Notes w (doUnavailable env state w) :=
  ((sendConnectorStatus w none).trans (clearSession _)).trans (doMissingTransaction env state _)

theorem doAvailable : Notes w (doAvailable env state w) := by
  have hraise : Notes w (if state = .preparing ∧ isSessionEstablished w = false then raiseEvent env w .unplugged
      else w) := by
    unfold raiseEvent
    split_ifs <;> exact of_eq rfl rfl rfl
  refine (((hraise.trans (sendConnectorStatus _ none)).trans (clearSession _)).trans
    (doMissingTransaction env state _)).trans ?_
  exact of_eq rfl rfl rfl

theorem doPreparing : Notes w (doPreparing env state w) := by
  have hstatus : Notes w (if state ≠ .finishing then Ocpp.sendConnectorStatus w none else w) := by
    split
    · exact sendConnectorStatus w none
    · exact refl w
  refine (hstatus.trans (doMissingTransaction env state _)).trans ?_
  exact of_eq rfl rfl rfl

theorem setSessionCurrentExpiry (expiry : Int) : Notes w (setSessionCurrentExpiry w expiry) := by
  unfold Ocpp.setSessionCurrentExpiry
  split
  · exact of_eq rfl rfl rfl
  · exact refl w

theorem doRequestTid : Notes w (doRequestTid env state w) := by
  have hread : Notes w (readStartEnergy env w) := of_eq rfl rfl rfl
  exact (hread.trans (request _ (doStarttransaction _) rfl)).trans (setSessionCurrentExpiry _ _)

theorem sendMeterValues (updated : Option SessionMetering) (measurands : Nat) :
    Notes w (sendMeterValues w updated measurands) := by
  cases updated with
  | none => exact refl w
  | some v =>
      have hkept : Notes w { w with session.metering := v } := of_eq rfl rfl rfl
      simp only [Ocpp.sendMeterValues]
      split
      · exact hkept.trans (request _ (doMetervalue _ _) rfl)
      · exact hkept

theorem sendMetering : Notes w (sendMetering env w) :=
  (sendMeterValues w _ _).trans (sendMeterValues _ _ _)

theorem doCharging : Notes w (doCharging env state w) := by
  have hsupplying : Notes w (if w.base.isSupplyingPower then w
      else Ocpp.sendConnectorStatus { w with base := w.base.enablePowerSupply } none) := by
    split
    · exact refl w
    · exact (of_eq rfl rfl rfl : Notes w { w with base := w.base.enablePowerSupply }).trans
        (sendConnectorStatus _ none)
  unfold Ocpp.doCharging
  by_cases hcharging : state = .charging
  · rw [if_pos hcharging]
    exact hsupplying.trans (sendMetering env _)
  · rw [if_neg hcharging]
    split
    · exact of_eq rfl rfl rfl
    · exact sendMetering env w

theorem doSuspendedEV : Notes w (doSuspendedEV state w) := by
  unfold Ocpp.doSuspendedEV
  split
  · exact (of_eq rfl rfl rfl : Notes w { w with base := w.base.disablePowerSupply }).trans
      (sendConnectorStatus _ none)
  · exact sendConnectorStatus w none

theorem doFinishing : Notes w (doFinishing env state w) := by
  have hstop : ∀ w : World, Notes w (readStopEnergy env w) := fun w => of_eq rfl rfl rfl
  have hopened : Notes w (if state = .charging then { w with base := w.base.disablePowerSupply } else w) := by
    split
    · exact of_eq rfl rfl rfl
    · exact refl w
  have hduty : ∀ w : World, Notes w { w with base := w.base.stopDuty } := fun w => of_eq rfl rfl rfl
  have hend : ∀ w : World, Notes w (Ocpp.clearSession (Ocpp.sendConnectorStatus
      { w with base := w.base.stopDuty } none)) :=
    fun w => ((hduty w).trans (sendConnectorStatus _ none)).trans (clearSession _)
  unfold Ocpp.doFinishing
  by_cases hsession : state = .charging ∨ state = .suspendedEV
  · rw [if_pos hsession]
    exact ((hopened.trans (hstop _)).trans (request _ (doStoptransaction _ _) rfl)).trans (hend _)
  · rw [if_neg hsession]
    exact hend w

theorem doFaulted : Notes w (doFaulted env state w) := (sendConnectorStatus w _).trans (clearSession _)

end Actions

/-- Every row notifies of the state it leads to. -/
theorem moves {env : Env} {w w' : World} (hmove : Moves env w w') : ∃ state, Notes (enter state w) w' := by
  cases hmove with
  | stay => exact ⟨w.base.fsm, refl w⟩
  | boot => exact ⟨_, of_eq rfl rfl rfl⟩
  | unavailable => exact ⟨_, doUnavailable env _ _⟩
  | available => exact ⟨_, doAvailable env _ _⟩
  | preparing => exact ⟨_, doPreparing env _ _⟩
  | faulted => exact ⟨_, doFaulted env _ _⟩
  | reserved => exact ⟨_, sendConnectorStatus _ none⟩
  | requestTid => exact ⟨_, doRequestTid env _ _⟩
  | startCharging => exact ⟨_, doCharging env _ _⟩
  | suspend => exact ⟨_, doSuspendedEV _ _⟩
  | finish => exact ⟨_, doFinishing env _ _⟩
  | keepCharging => exact ⟨_, doCharging env _ _⟩
  | resume => exact ⟨_, doCharging env _ _⟩
  | keepSuspended => exact ⟨_, doCharging env _ _⟩

end Notes

theorem step_error_of_not_process {w : World} {e : Event} (h : ∀ env, e ≠ .process env) :
    (step w e).base.error = w.base.error := by
  cases hof : e.ofConnector with
  | false => exact congrArg Connector.error (step_base hof)
  | true =>
      cases e with
      | process env => exact absurd rfl (h env)
      | enable env =>
          show (w.base.enable env.toReadings).error = w.base.error
          unfold Connector.enable Connector.callback
          split <;> rfl
      | disable => rfl
      | setReserved reserved => rfl
      | _ => simp [Event.ofConnector] at hof

/-- A step notifies of the state it leads to and of the error the connector had, which it keeps. -/
theorem step_notes (w : World) (e : Event) :
    (step w e).base.error = w.base.error ∧
      ∃ sent, notices (step w e) = notices w ++ sent ∧
        ∀ n ∈ sent, n = ((step w e).base.fsm, mapErrorToOcpp w.base.error) := by
  have hsame : (step w e).base.error = w.base.error → notices (step w e) = notices w →
      (step w e).base.error = w.base.error ∧ ∃ sent, notices (step w e) = notices w ++ sent ∧
        ∀ n ∈ sent, n = ((step w e).base.fsm, mapErrorToOcpp w.base.error) :=
    fun herror hnotices =>
      ⟨herror, [], by rw [List.append_nil, hnotices], fun _ hmem => absurd hmem List.not_mem_nil⟩
  by_cases hprocess : ∃ env, e = .process env
  · obtain ⟨env, rfl⟩ := hprocess
    by_cases henabled : w.base.enabled = true
    · have hstep : step w (.process env) = process env w := if_pos henabled
      obtain ⟨w', hmove, hcore⟩ := process_moves env w
      obtain ⟨state, hnotes⟩ := Notes.moves hmove
      have hfsm : (process env w).base.fsm = w'.base.fsm := congrArg (fun v => v.base.fsm) hcore
      have herror : (process env w).base.error = w'.base.error := congrArg (fun v => v.base.error) hcore
      have hnotices : notices (process env w) = notices w' :=
        congrArg (fun v => v.requests.filterMap Payload.notice) hcore
      obtain ⟨sent, hsent, hall⟩ := hnotes.notices
      rw [hstep]
      refine ⟨herror.trans hnotes.error, sent, hnotices.trans hsent, ?_⟩
      intro n hn
      rw [hall n hn, hfsm, hnotes.fsm]
      rfl
    · have hstep : step w (.process env) = w := if_neg henabled
      exact hsame (by rw [hstep]) (by rw [hstep])
  · have hother : ∀ env, e ≠ .process env := fun env he => hprocess ⟨env, he⟩
    exact hsame (step_error_of_not_process hother) (step_notices hother)

/-! ### The way into Faulted -/

/-- The row into Faulted is the one taken. -/
def entersFaulted (w : World) : Event → Bool
  | .process env =>
      w.base.enabled &&
        match w.base.fsm with
        | .available | .preparing | .finishing | .reserved => isFaulted env w.base.fsm w
        | .unavailable => !isUnavailable env .unavailable w && isFaulted env .unavailable w
        | _ => false
  | _ => false

theorem fsm_step_eq_faulted_iff (w : World) (e : Event) (hfsm : w.base.fsm ≠ .faulted) :
    (step w e).base.fsm = .faulted ↔ entersFaulted w e = true := by
  by_cases hprocess : ∃ env, e = .process env
  · obtain ⟨env, rfl⟩ := hprocess
    by_cases henabled : w.base.enabled = true
    · have hstep : step w (.process env) = process env w := if_pos henabled
      have hguard : ∀ state, isFaulted env state (stampNow env w) = isFaulted env state w := fun _ => rfl
      have hclosed : ∀ state, isUnavailable env state (stampNow env w) = isUnavailable env state w := fun _ => rfl
      rw [hstep, process_fsm]
      simp only [entersFaulted, henabled, Bool.true_and]
      cases hstate : w.base.fsm with
      | faulted => exact absurd hstate hfsm
      | booting =>
          rw [move_booting]
          split_ifs <;> simp [hstate]
      | available =>
          rw [move_available, hguard]
          split_ifs with hfault <;> simp [hfault, hstate]
      | preparing =>
          rw [move_preparing, hguard]
          split_ifs with hfault <;> simp [hfault, hstate]
      | charging =>
          rw [move_charging]
          split_ifs <;> simp [hstate]
      | suspendedEV =>
          rw [move_suspendedEV]
          split_ifs <;> simp [hstate]
      | suspendedEVSE =>
          rw [move_suspendedEVSE]
          simp [hstate]
      | finishing =>
          rw [move_finishing, hguard]
          split_ifs with hfault <;> simp [hfault, hstate]
      | reserved =>
          rw [move_reserved, hguard]
          split_ifs with hfault <;> simp [hfault, hstate]
      | unavailable =>
          rw [move_unavailable, hguard, hclosed]
          split_ifs with hshut hfault
          · simp [hshut]
          all_goals simp [hshut, hfault, hstate]
    · have hstep : step w (.process env) = w := if_neg henabled
      rw [hstep]
      simp [entersFaulted, henabled, hfsm]
  · have hother : ∀ env, e ≠ .process env := fun env he => hprocess ⟨env, he⟩
    have hnot : entersFaulted w e = false := by
      cases e with
      | process env => exact absurd rfl (hother env)
      | _ => rfl
    rw [step_fsm_of_not_process w hother, hnot]
    exact iff_of_false hfsm Bool.false_ne_true

/-! ### Whole runs -/

/-- A notification of Faulted names an error, one of another state after a fault none, and `connector_error` answers an error exactly in Faulted. -/
structure ReportsFault (w : World) : Prop where
  named : ∀ n ∈ notices w, n.1 = .faulted → n.2 ≠ .none
  ended : ∀ before n after, notices w = before ++ n :: after → n.1 ≠ .faulted → (∃ m ∈ before, m.1 = .faulted) →
    n.2 = .none
  answered : w.base.error ≠ .none ↔ w.base.fsm = .faulted

/-- Nothing writes the error. -/
structure Errorless (w : World) : Prop where
  error : w.base.error = .none
  sent : ∀ n ∈ notices w, n.2 = .none

theorem errorless_step (w : World) (e : Event) (h : Errorless w) : Errorless (step w e) := by
  obtain ⟨herror, sent, hsent, hall⟩ := step_notes w e
  refine ⟨herror.trans h.error, ?_⟩
  intro n hn
  rw [hsent] at hn
  obtain hn | hn := List.mem_append.1 hn
  · exact h.sent n hn
  · rw [hall n hn, h.error]
    rfl

/-- Without any error written, the reports are right exactly while no notification and no state is Faulted. -/
theorem Errorless.reportsFault_iff {w : World} (h : Errorless w) :
    ReportsFault w ↔ w.base.fsm ≠ .faulted ∧ ∀ n ∈ notices w, n.1 ≠ .faulted := by
  constructor
  · intro hreport
    refine ⟨fun hfsm => hreport.answered.2 hfsm h.error, ?_⟩
    exact fun n hn hfaulted => hreport.named n hn hfaulted (h.sent n hn)
  · rintro ⟨hfsm, hnone⟩
    refine ⟨fun n hn hfaulted => absurd hfaulted (hnone n hn), ?_, iff_of_false (not_not.2 h.error) hfsm⟩
    intro before n after hsplit _ _
    exact h.sent n (by rw [hsplit]; exact List.mem_append_right _ List.mem_cons_self)

theorem reportsFault_step_iff (w : World) (e : Event) (h : Errorless w) (hreport : ReportsFault w) :
    ReportsFault (step w e) ↔ entersFaulted w e = false := by
  obtain ⟨hfsm, hnone⟩ := h.reportsFault_iff.1 hreport
  rw [(errorless_step w e h).reportsFault_iff, ← Bool.not_eq_true, ← fsm_step_eq_faulted_iff w e hfsm]
  refine and_iff_left_of_imp fun hnot n hn => ?_
  obtain ⟨-, sent, hsent, hall⟩ := step_notes w e
  rw [hsent] at hn
  obtain hn | hn := List.mem_append.1 hn
  · exact hnone n hn
  · rw [hall n hn]
    exact hnot

theorem errorless_start (boot : Boot) : Errorless boot.start :=
  ⟨rfl, fun _ hmem => absurd hmem List.not_mem_nil⟩

theorem reportsFault_start (boot : Boot) : ReportsFault boot.start :=
  (errorless_start boot).reportsFault_iff.2
    ⟨OcppState.noConfusion, fun _ hmem => absurd hmem List.not_mem_nil⟩

/-- An OCPP connector reports its faults rightly along a run exactly when the run does not enter Faulted, a free connector exactly when the run does not leave F. -/
theorem faults_reported_iff (boot : Boot) (evs : List Event) (param : ConnectorParam) (evs' : List Free.Event) :
    (EveryState step ReportsFault boot.start evs ↔
        EveryStep step (fun w e => entersFaulted w e = false) boot.start evs) ∧
      (EveryState Free.step Free.ReportsFault (Free.create param) evs' ↔
        EveryStep Free.step (fun c e => Free.recovers c e = false) (Free.create param) evs') :=
  ⟨everyState_iff_everyStep errorless_step reportsFault_step_iff (errorless_start boot) (reportsFault_start boot) evs,
    Free.reportsFault_run_iff param evs'⟩

/-- An emergency stop in Available. -/
def emergencyStop : List Event :=
  bootEvents ++ [.process { pilot := ⟨.a, 100⟩, now := 11, safety := some [⟨.es, .emergencyStop⟩] }]

/-- A free connector recovers from one after six seconds. -/
def recovery : List Free.Event := [
  .enable {}, .process { pilot := ⟨.a, 0⟩ },
  .process { pilot := ⟨.a, 100⟩, safety := some [⟨.es, .emergencyStop⟩], changeTime := 100 },
  .process { pilot := ⟨.a, 100⟩, guardTime := 106 }]

/-- The emergency stop is notified of as Faulted with no error, and a free connector that has recovered still answers an error in A. -/
theorem fault_told_without_error :
    (notices (run step freshBoot.start emergencyStop)).getLast? = some (.faulted, .none) ∧
      ¬ ReportsFault (run step freshBoot.start emergencyStop) ∧
        ¬ Free.ReportsFault (run Free.step (Free.create ⟨32000, 6000, by decide⟩) recovery) := by
  have hlast : (notices (run step freshBoot.start emergencyStop)).getLast? = some (.faulted, .none) := by decide
  refine ⟨hlast, fun h => ?_, by decide⟩
  exact h.named _ (List.mem_of_getLast? hlast) rfl rfl

end Evse.Ocpp
