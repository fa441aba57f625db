import Evse.Ocpp.Frame

/-!
# When an OCPP connector supplies power

The relay and the duty along any run. The machine closes the relay in one place only, the row from Charging to itself, and what guards that row is the failure of the two rows before it. Neither of these looks at the safety module, which is how a connector can go on charging through an error.
-/

namespace Evse.Ocpp

open StepRun

/-- The part of an OCPP connector that decides about power. -/
def view (w : World) : OcppState × Iec61851 := (w.base.fsm, w.base.iec61851)

section Views

variable (env : Env) (w : World)

@[simp] theorem view_fst : (view w).1 = w.base.fsm := rfl

@[simp] theorem view_snd : (view w).2 = w.base.iec61851 := rfl

theorem view_of_core {w w' : World} (h : core w = core w') : view w = view w' := by
  have hbase := congrArg (fun w => (w.base.fsm, w.base.iec61851)) h
  exact hbase

theorem view_doCharging_charging :
    view (doCharging env .charging w) = (w.base.fsm, w.base.iec61851.startPowerSupply) := by
  rw [← w.base.iec61851.ite_startPowerSupply, view, doCharging_charging_base]
  by_cases h : w.base.iec61851.isSupplyingPower = true
  · rw [if_pos h, if_pos (show w.base.isSupplyingPower = true from h)]
  · rw [if_neg h, if_neg (show ¬ w.base.isSupplyingPower = true from h)]
    rfl

end Views

/-! ### The invariant -/

/-- The relay is closed in Charging only, and outside the charging states the duty is 100 once the machine has left Booting. -/
structure PowerInv (v : OcppState × Iec61851) : Prop where
  charging_of_supplying : v.2.isSupplyingPower = true → v.1 = .charging
  duty_idle : v.1 ≠ .booting → v.1 ≠ .charging → v.1 ≠ .suspendedEV → v.2.pilotDutyPct = idleDuty

section Invariant

variable {env : Env} {w w' : World}

theorem PowerInv.off (h : PowerInv (view w)) (hfsm : w.base.fsm ≠ .charging) :
    w.base.iec61851.isSupplyingPower = false :=
  Bool.eq_false_iff.mpr fun hon => hfsm (h.charging_of_supplying hon)

/-- Between states outside the charging ones the relay stays open and the duty at 100; on leaving Booting the guard has seen the duty there. -/
theorem PowerInv.idle (h : PowerInv (view w)) (hfsm : w.base.fsm ≠ .charging ∧ w.base.fsm ≠ .suspendedEV)
    (hboot : w.base.fsm = .booting → isBooting env .booting w = false) {state : OcppState} :
    PowerInv (state, w.base.iec61851) := by
  have hoff := h.off hfsm.1
  have hduty : w.base.iec61851.pilotDutyPct = idleDuty := by
    by_cases hb : w.base.fsm = .booting
    · have hguard := hboot hb
      simp only [isBooting, Bool.or_eq_false_iff, decide_eq_false_iff_not, not_not] at hguard
      exact hguard.2
    · exact h.duty_idle hb hfsm.1 hfsm.2
  exact ⟨by simp [hoff], fun _ _ _ => hduty⟩

theorem powerInv_moves (h : PowerInv (view w)) (hmove : Moves env w w') : PowerInv (view w') := by
  cases hmove with
  | stay => exact h
  | boot hfsm =>
      have hoff := h.off (by simp [hfsm])
      exact ⟨by simp [hoff], fun _ _ _ => rfl⟩
  | unavailable hidle hboot =>
      rw [view, doUnavailable_base]
      exact h.idle hidle hboot
  | available hidle hboot =>
      rw [view, doAvailable_base]
      exact h.idle hidle hboot
  | preparing hidle hboot =>
      rw [view, doPreparing_base]
      exact h.idle ⟨hidle.1, hidle.2.1⟩ hboot
  | faulted hidle =>
      have hboot : w.base.fsm = .booting → isBooting env .booting w = false := fun hb => absurd hb hidle.2.2
      exact h.idle ⟨hidle.1, hidle.2.1⟩ hboot
  | reserved hfsm =>
      have hboot : w.base.fsm = .booting → isBooting env .booting w = false := by simp [hfsm]
      exact h.idle (by simp [hfsm]) hboot
  | requestTid hfsm =>
      rw [view, doRequestTid_base]
      have hboot : w.base.fsm = .booting → isBooting env .booting w = false := by simp [hfsm]
      exact h.idle (by simp [hfsm]) hboot
  | startCharging hfsm =>
      have hoff := h.off (by simp [hfsm])
      exact ⟨by simp [hoff], fun _ hcharging => absurd rfl hcharging⟩
  | suspend hfsm =>
      exact ⟨fun hon => absurd hon Bool.false_ne_true, fun _ _ hsuspended => absurd rfl hsuspended⟩
  | finish hfsm =>
      obtain hfsm | hfsm := hfsm
      · rw [hfsm]
        exact ⟨fun hon => absurd hon Bool.false_ne_true, fun _ _ _ => rfl⟩
      · have hoff := h.off (by simp [hfsm])
        rw [hfsm]
        exact ⟨fun hon => absurd (hoff.symm.trans hon) Bool.false_ne_true, fun _ _ _ => rfl⟩
  | keepCharging hfsm =>
      rw [view_doCharging_charging]
      exact ⟨fun _ => rfl, fun _ hcharging => absurd rfl hcharging⟩
  | resume hfsm =>
      have hoff := h.off (by simp [hfsm])
      rw [view, doCharging_suspendedEV_base]
      exact ⟨by simp [hoff], fun _ hcharging => absurd rfl hcharging⟩
  | keepSuspended hfsm =>
      rw [view, doCharging_suspendedEV_base, enter_self hfsm]
      exact h

theorem powerInv_step (w : World) (e : Event) (h : PowerInv (view w)) : PowerInv (view (step w e)) := by
  by_cases hown : e.ofConnector = true
  · cases e with
    | process env =>
        show PowerInv (view (if w.base.enabled then process env w else w))
        split
        · obtain ⟨w', hmove, hcore⟩ := process_moves env w
          rw [view_of_core hcore]
          exact powerInv_moves (show PowerInv (view (stampNow env w)) from h) hmove
        · exact h
    | enable env =>
        have hview : view (step w (.enable env)) = view w := by simp [view, step]
        exact hview ▸ h
    | disable => exact h
    | setReserved reserved => exact h
    | _ => simp [Event.ofConnector] at hown
  · have hview : view (step w e) = view w := by
      simp only [view, step_base (Bool.eq_false_iff.mpr hown)]
    exact hview ▸ h

theorem powerInv_start (boot : Boot) : PowerInv (view boot.start) :=
  ⟨by simp [view, Boot.start, create, Connector.create], fun hboot => absurd rfl hboot⟩

end Invariant

/-! ### Which steps leave the relay closed -/

section Supplying

variable {env : Env} {w w' : World}

/-- The steps after which the relay is closed: neither of the rows to SuspendedEV and to Finishing is taken, and the row to Charging is, or else the relay was closed already. -/
def keepsCharging (env : Env) (w : World) : Bool :=
  w.base.fsm = .charging && !isSuspendedEV env .charging w && !isFinishing env .charging w &&
    (isCharging env .charging w || w.base.isSupplyingPower)

theorem off_of_moves (h : PowerInv (view w)) (hfsm : w.base.fsm ≠ .charging) (hmove : Moves env w w') :
    (view w').2.isSupplyingPower = false := by
  have hoff := h.off hfsm
  cases hmove with
  | stay => exact hoff
  | suspend hcharging => exact absurd hcharging hfsm
  | keepCharging hcharging => exact absurd hcharging hfsm
  | finish hcharging =>
      obtain hcharging | hsuspended := hcharging
      · exact absurd hcharging hfsm
      · rw [hsuspended]
        exact hoff
  | _ => simpa using hoff

theorem supplying_process_iff (h : PowerInv (view w)) :
    (process env w).base.isSupplyingPower = true ↔ keepsCharging env w = true := by
  have hview : (process env w).base.isSupplyingPower = (view (process env w)).2.isSupplyingPower := rfl
  rw [hview, view_of_core (core_process env w)]
  by_cases hfsm : w.base.fsm = .charging
  · have hsupplying : w.base.iec61851.isSupplyingPower = w.base.isSupplyingPower := rfl
    have hsuspended : isSuspendedEV env .charging (stampNow env w) = isSuspendedEV env .charging w := rfl
    have hfinishing : isFinishing env .charging (stampNow env w) = isFinishing env .charging w := rfl
    have hcharging : isCharging env .charging (stampNow env w) = isCharging env .charging w := rfl
    rw [hfsm, move_charging, hsuspended, hfinishing, hcharging]
    simp only [keepsCharging, hfsm]
    split_ifs with hsus hfin hchg
    · simp [hsus]
    · simp [hfin]
    · rw [view_doCharging_charging]
      simp [hsus, hfin, hchg]
    · simp [hsus, hfin, hchg, hsupplying]
  · have hoff := off_of_moves (show PowerInv (view (stampNow env w)) from h) hfsm (moves env _)
    have hkeeps : keepsCharging env w = false := by simp [keepsCharging, hfsm]
    rw [stampNow_base] at hoff
    rw [hoff, hkeeps]

/-- What the failure of the rows to SuspendedEV and to Finishing leaves. -/
theorem of_keepsCharging (h : keepsCharging env w = true) :
    isSessionEstablished w = true ∧ w.remoteResetRequested = false ∧
      (env.pilot.status = .c ∨ env.pilot.status = .d) := by
  simp only [keepsCharging, isSuspendedEV, isFinishing, Connector.isStateX, Bool.and_eq_true,
    Bool.not_eq_true', decide_eq_true_eq, ne_eq, not_true_eq_false, and_false, false_and, if_false,
    Bool.or_eq_false_iff, decide_eq_false_iff_not, Bool.not_eq_false'] at h
  obtain ⟨⟨⟨-, hb⟩, ⟨⟨⟨hreset, ha⟩, he⟩, hf⟩, hestablished⟩, -⟩ := h
  refine ⟨hestablished, hreset, w.base.pilot_of_state env.toReadings ?_⟩
  cases hstate : w.base.state env.toReadings <;> simp_all

end Supplying

/-- Along every run: the relay is closed in Charging only; out of Booting the duty differs from 100 in the charging states only; and the step that closes the relay is one of an established session, with no reset requested and the pilot in C or D. -/
theorem power_invariants (boot : Boot) (evs : List Event) :
    let w := run step boot.start evs
    (w.base.isSupplyingPower = true → w.base.fsm = .charging) ∧
      (w.base.fsm ≠ .booting → w.base.getTargetDuty ≠ idleDuty →
        w.base.fsm = .charging ∨ w.base.fsm = .suspendedEV) ∧
      ∀ e, w.base.isSupplyingPower = false → (step w e).base.isSupplyingPower = true →
        ∃ env, e = .process env ∧ isSessionEstablished w = true ∧ w.remoteResetRequested = false ∧
          (env.pilot.status = .c ∨ env.pilot.status = .d) := by
  intro w
  have h : PowerInv (view w) := run_invariant powerInv_step (powerInv_start boot) evs
  refine ⟨h.charging_of_supplying, ?_, ?_⟩
  · intro hboot hduty
    by_contra hstates
    rw [not_or] at hstates
    exact hduty (h.duty_idle hboot hstates.1 hstates.2)
  · intro e hoff hon
    by_cases hown : e.ofConnector = true
    · cases e with
      | process env =>
          by_cases henabled : w.base.enabled = true
          · simp only [step, henabled, if_true] at hon
            exact ⟨env, rfl, of_keepsCharging ((supplying_process_iff h).mp hon)⟩
          · simp [step, henabled, hoff] at hon
      | enable env =>
          have hsame : (step w (.enable env)).base.isSupplyingPower = w.base.isSupplyingPower := by
            simp [step, Connector.isSupplyingPower]
          rw [hsame, hoff] at hon
          exact absurd hon (by decide)
      | disable => exact absurd (hoff.symm.trans hon) (by decide)
      | setReserved reserved => exact absurd (hoff.symm.trans hon) (by decide)
      | _ => simp [Event.ofConnector] at hown
    · rw [step_base (Bool.eq_false_iff.mpr hown), hoff] at hon
      exact absurd hon (by decide)

/-! ### Errors and the relay -/

/-- The step is one of an enabled connector during which an emergency stop is reported or the connector sees an EVSE error. -/
def errorStep (w : World) : Event → Bool
  | .process env =>
      w.base.enabled && (isEmergencyStop env.safety || w.base.isEvseError env.toReadings (mapStateToCommon w.base.fsm))
  | _ => false

/-- The step goes on charging: see `keepsCharging`. -/
def chargingStep (w : World) : Event → Bool
  | .process env => keepsCharging env w
  | _ => false

/-- A run has the relay open after every step with an error exactly when no such step goes on charging. -/
theorem relay_off_after_error_iff (boot : Boot) (evs : List Event) :
    EveryStep step (fun w e => errorStep w e = true → (step w e).base.isSupplyingPower = false) boot.start evs ↔
      EveryStep step (fun w e => errorStep w e = true → chargingStep w e = false) boot.start evs := by
  refine everyStep_congr powerInv_step ?_ (powerInv_start boot) evs
  intro w e h
  refine forall_congr' fun herror => ?_
  cases e with
  | process env =>
      simp only [errorStep, Bool.and_eq_true] at herror
      simp only [step, herror.1, if_true, chargingStep]
      rw [← Bool.not_eq_true, ← Bool.not_eq_true, supplying_process_iff h]
  | _ => simp [errorStep] at herror

/-- The emergency stop is pressed while the car charges, and the relay stays closed. -/
theorem relay_on_through_emergency_stop :
    ¬ EveryStep step (fun w e => errorStep w e = true → (step w e).base.isSupplyingPower = false) freshBoot.start
        (bootEvents ++ startEvents ++ chargeEvents ++
          [.process { pilot := ⟨.c, 53⟩, now := 15, safety := some [⟨.es, .emergencyStop⟩] }]) := by
  decide +kernel

end Evse.Ocpp
