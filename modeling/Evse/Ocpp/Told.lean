import Evse.Ocpp.Frame

/-!
# A connector that has been told of a reset

A reset sets a flag in the connector, and with the flag a charging session ends. For what a charger may conclude from there being no pending request, two things are to be known of a step of such a connector: whether it sends a request, and, where it does not, whether it is in a session afterwards. Both are read off the guards before the step.
-/

namespace Evse.Ocpp

open StepRun RowTable

/-! ### What a connector sends -/

/-- `send_metering` sends something. -/
def metersSomething (env : Env) (w : World) : Bool :=
  (updateMetering env w).isSome && env.config.meterValuesSampledData ≠ 0 ||
    (updateMeteringClockAligned env w).isSome && env.config.meterValuesAlignedData ≠ 0

/-- A connector that has been told of a reset takes a step without a request. -/
def silent (env : Env) (w : World) : Bool :=
  match w.base.fsm with
  | .booting => isBooting env .booting w || !(isUnavailable env .booting w || isAvailable env .booting w ||
      isPreparing env .booting w)
  | .available => !(isFaulted env .available w || isUnavailable env .available w || isPreparing env .available w ||
      isReserved .available w)
  | .preparing => !(isFaulted env .preparing w || isUnavailable env .preparing w || isAvailable env .preparing w ||
      isChargingRdy env .preparing w)
  | .charging => false
  | .suspendedEV => isCharging env .suspendedEV w && !metersSomething env w
  | .suspendedEVSE => true
  | .finishing => !(isFaulted env .finishing w || isUnavailable env .finishing w || isAvailable env .finishing w)
  | .reserved => !(isFaulted env .reserved w || isUnavailable env .reserved w || isAvailable env .reserved w ||
      isPreparing env .reserved w)
  | .unavailable => isUnavailable env .unavailable w || !(isFaulted env .unavailable w ||
      isAvailable env .unavailable w || isPreparing env .unavailable w)
  | .faulted => isFaulted env .faulted w || !(isUnavailable env .faulted w || isAvailable env .faulted w ||
      isPreparing env .faulted w)

/-- The row into Charging is the one taken. -/
def entersCharging (env : Env) (w : World) : Bool :=
  match w.base.fsm with
  | .preparing => !isFaulted env .preparing w && !isUnavailable env .preparing w && isCharging env .preparing w
  | .suspendedEV => isCharging env .suspendedEV w
  | _ => false

/-- How many requests of the connector are pending. -/
def pending (w : World) : Nat := w.outstanding.length

section Pending

variable (env : Env) (state : OcppState) (w : World)

theorem pending_csmsRequest (payload : Payload) : pending (csmsRequest w payload) = pending w + 1 := by
  simp only [pending, csmsRequest, List.length_append, List.length_singleton]

theorem pending_sendConnectorStatus (info : Option String) :
    pending (sendConnectorStatus w info) = pending w + 1 :=
  pending_csmsRequest w _

theorem pending_clearSession : pending (clearSession w) = pending w := rfl

theorem pending_doMissingTransaction : pending w ≤ pending (doMissingTransaction env state w) := by
  simp only [doMissingTransaction]
  split_ifs
  · exact Nat.le_refl _
  · rw [pending_clearSession, pending_csmsRequest]
    exact Nat.le_succ _
  · exact Nat.le_refl _

theorem pending_doUnavailable : pending w < pending (doUnavailable env state w) := by
  have hmissing := pending_doMissingTransaction env state (clearSession (sendConnectorStatus w none))
  rw [pending_clearSession, pending_sendConnectorStatus] at hmissing
  exact hmissing

theorem pending_doAvailable : pending w < pending (doAvailable env state w) := by
  have hraise : ∀ event, pending (raiseEvent env w event) = pending w := by
    intro event
    rw [raiseEvent_eq]
    rfl
  simp only [doAvailable]
  generalize hv : (if state = .preparing ∧ isSessionEstablished w = false then raiseEvent env w .unplugged else w) = v
  have hv' : pending v = pending w := by
    rw [← hv]
    split_ifs
    · exact hraise _
    · rfl
  have hmissing := pending_doMissingTransaction env state (clearSession (sendConnectorStatus v none))
  rw [pending_clearSession, pending_sendConnectorStatus, hv'] at hmissing
  exact hmissing

theorem pending_doPreparing (h : state ≠ .finishing) : pending w < pending (doPreparing env state w) := by
  have hmissing := pending_doMissingTransaction env state (sendConnectorStatus w none)
  rw [pending_sendConnectorStatus] at hmissing
  simp only [doPreparing, if_pos h]
  exact hmissing

theorem pending_doPreparing_finishing : pending (doPreparing env .finishing w) = pending w := by
  simp [doPreparing, doMissingTransaction, pending]

theorem pending_doFaulted : pending w < pending (doFaulted env state w) := by
  rw [doFaulted, pending_clearSession, pending_sendConnectorStatus]
  exact Nat.lt_succ_self _

theorem pending_doReserved : pending w < pending (doReserved state w) := by
  rw [doReserved, pending_sendConnectorStatus]
  exact Nat.lt_succ_self _

theorem pending_doRequestTid : pending w < pending (doRequestTid env state w) := by
  simp only [doRequestTid, setSessionCurrentExpiry_eq]
  show pending w < pending (csmsRequest (readStartEnergy env w) _)
  rw [pending_csmsRequest]
  exact Nat.lt_succ_self _

theorem pending_doSuspendedEV : pending w < pending (doSuspendedEV state w) := by
  simp only [doSuspendedEV]
  rw [pending_sendConnectorStatus]
  split_ifs <;> exact Nat.lt_succ_self _

theorem pending_doFinishing : pending w < pending (doFinishing env state w) := by
  have hstop : ∀ v : World, pending v = pending w → ∀ payload, pending w ≤ pending (csmsRequest v payload) := by
    intro v hv payload
    rw [pending_csmsRequest, hv]
    exact Nat.le_succ _
  simp only [doFinishing]
  rw [pending_clearSession, pending_sendConnectorStatus]
  refine Nat.lt_succ_of_le ?_
  split_ifs
  · exact hstop (readStopEnergy env { w with base := w.base.disablePowerSupply }) rfl _
  · exact hstop (readStopEnergy env w) rfl _
  · exact Nat.le_refl _

/-- Taking the metering of the session into account, whether or not anything is sent. -/
theorem pending_sendMeterValues (updated : Option SessionMetering) (measurands : Nat) :
    pending (sendMeterValues w updated measurands) =
      pending w + (updated.isSome && decide (measurands ≠ 0)).toNat := by
  cases updated with
  | none => rfl
  | some v =>
      simp only [sendMeterValues]
      split_ifs with hsome
      · rw [pending_csmsRequest]
        simp [pending, hsome]
      · simp [pending, hsome]

/-- Whether the clock-aligned values are due does not depend on the periodic ones. -/
theorem isSome_updateMeteringClockAligned (updated : Option SessionMetering) (measurands : Nat)
    (h : ∀ v ∈ updated, v.timeClockPeriodic = w.session.metering.timeClockPeriodic) :
    (updateMeteringClockAligned env (sendMeterValues w updated measurands)).isSome =
      (updateMeteringClockAligned env w).isSome := by
  have hdue : ∀ v : World, v.now = w.now →
      v.session.metering.timeClockPeriodic = w.session.metering.timeClockPeriodic →
      (updateMeteringClockAligned env v).isSome = (updateMeteringClockAligned env w).isSome := by
    intro v hnow hclock
    simp only [updateMeteringClockAligned, updateMeteringCore, hnow, hclock]
    split_ifs <;> rfl
  cases updated with
  | none => rfl
  | some v =>
      simp only [sendMeterValues]
      split_ifs
      · exact hdue _ rfl (h v rfl)
      · exact hdue _ rfl (h v rfl)

theorem timeClockPeriodic_updateMetering :
    ∀ v ∈ updateMetering env w, v.timeClockPeriodic = w.session.metering.timeClockPeriodic := by
  intro v hv
  simp only [updateMetering, updateMeteringCore] at hv
  split_ifs at hv
  · cases hv
  · obtain rfl := Option.some.inj hv
    rfl

theorem pending_sendMetering :
    (metersSomething env w = false ∧ pending (sendMetering env w) = pending w) ∨
      (metersSomething env w = true ∧ pending w < pending (sendMetering env w)) := by
  have hclock := isSome_updateMeteringClockAligned env w (updateMetering env w) env.config.meterValuesSampledData
    (timeClockPeriodic_updateMetering env w)
  simp only [sendMetering]
  rw [pending_sendMeterValues, pending_sendMeterValues, hclock, metersSomething]
  generalize ((updateMetering env w).isSome && decide (env.config.meterValuesSampledData ≠ 0)) = periodic
  generalize ((updateMeteringClockAligned env w).isSome && decide (env.config.meterValuesAlignedData ≠ 0)) = aligned
  cases periodic with
  | true =>
      refine .inr ⟨rfl, ?_⟩
      rw [Bool.toNat_true]
      omega
  | false =>
      cases aligned with
      | true => exact .inr ⟨rfl, Nat.lt_succ_self _⟩
      | false => exact .inl ⟨rfl, rfl⟩

end Pending

/-! ### A connector that has been told -/

/-- What a step of a connector that has been told of a reset comes to: it sends something, or it does not and charges only if it takes the row into Charging. -/
inductive Told (env : Env) (w w' : World) : Prop where
  | sends (hsilent : silent env w = false) (hpending : pending w < pending w')
  | silent (hsilent : silent env w = true) (hpending : pending w' = pending w)
      (hfsm : (w'.base.fsm = .charging ∨ w'.base.fsm = .suspendedEV) ↔ entersCharging env w = true)

section Told

variable {env : Env} {w : World}

theorem told_of_silent {w' : World} (hsilent : silent env w = true) (hpending : pending w' = pending w)
    (hfsm : w'.base.fsm ≠ .charging ∧ w'.base.fsm ≠ .suspendedEV) (henters : entersCharging env w = false) :
    Told env w w' := by
  refine .silent hsilent hpending (iff_of_false ?_ (by rw [henters]; decide))
  exact fun h => h.elim hfsm.1 hfsm.2

/-- In the states that neither lead into Charging nor are part of a session. -/
theorem told_of_idle {w' : World} (henters : entersCharging env w = false)
    (h : (silent env w = false ∧ pending w < pending w') ∨
      (silent env w = true ∧ pending w' = pending w ∧ w'.base.fsm ≠ .charging ∧ w'.base.fsm ≠ .suspendedEV)) :
    Told env w w' := by
  rcases h with ⟨hsilent, hpending⟩ | ⟨hsilent, hpending, hfsm⟩
  · exact .sends hsilent hpending
  · exact told_of_silent hsilent hpending hfsm henters

/-- From Preparing the row into Charging sends nothing. -/
theorem told_preparing (hfsm : w.base.fsm = .preparing) :
    Told env w ((machine env).move .preparing w (transitions env)) := by
  simp only [move_preparing, isFinishing_preparing, Bool.false_eq_true, if_false]
  split_ifs with hfault hun hav hrdy hchg
  · exact .sends (by simp [silent, hfsm, hfault]) (pending_doFaulted env _ (enter .faulted w))
  · exact .sends (by simp [silent, hfsm, hun]) (pending_doUnavailable env _ (enter .unavailable w))
  · exact .sends (by simp [silent, hfsm, hav]) (pending_doAvailable env _ (enter .available w))
  · exact .sends (by simp [silent, hfsm, hrdy]) (pending_doRequestTid env _ (enter .preparing w))
  · refine .silent (by simp [silent, hfsm, hfault, hun, hav, hrdy]) rfl (iff_of_true ?_ ?_)
    · exact .inl (doCharging_fsm env .preparing (enter .charging w))
    · simp [entersCharging, hfsm, hfault, hun, hchg]
  · refine told_of_silent (by simp [silent, hfsm, hfault, hun, hav, hrdy]) rfl (by rw [hfsm]; decide) ?_
    simp [entersCharging, hfsm, hchg]

/-- With the flag a session ends, and the end is reported. -/
theorem isFinishing_of_flag (env : Env) (hflag : w.remoteResetRequested = true) {state : OcppState}
    (hstate : state = .charging ∨ state = .suspendedEV) : isFinishing env state w = true := by
  rcases hstate with rfl | rfl <;> simp [isFinishing, hflag]

theorem told_charging (hflag : w.remoteResetRequested = true) (hfsm : w.base.fsm = .charging) :
    Told env w ((machine env).move .charging w (transitions env)) := by
  have hfinishing := isFinishing_of_flag env hflag (.inl rfl : OcppState.charging = .charging ∨ _)
  have hsilent : silent env w = false := by simp [silent, hfsm]
  rw [move_charging, if_pos hfinishing]
  split_ifs
  · exact .sends hsilent (pending_doSuspendedEV .charging (enter .suspendedEV w))
  · exact .sends hsilent (pending_doFinishing env .charging (enter .finishing w))

theorem told_suspendedEV (hflag : w.remoteResetRequested = true) (hfsm : w.base.fsm = .suspendedEV) :
    Told env w ((machine env).move .suspendedEV w (transitions env)) := by
  have hfinishing := isFinishing_of_flag env hflag (.inr rfl : OcppState.suspendedEV = .charging ∨ _)
  rw [move_suspendedEV, if_pos hfinishing]
  split_ifs with hchg
  · have hcharging : doCharging env .suspendedEV (enter .charging w) = sendMetering env (enter .charging w) := rfl
    have hmeters : metersSomething env (enter .charging w) = metersSomething env w := rfl
    have hpending := pending_sendMetering env (enter .charging w)
    rw [hcharging]
    rw [hmeters] at hpending
    rcases hpending with ⟨hnone, hpending⟩ | ⟨hsome, hpending⟩
    · refine .silent (by simp [silent, hfsm, hchg, hnone]) hpending (iff_of_true ?_ ?_)
      · exact .inl (doCharging_fsm env .suspendedEV (enter .charging w))
      · simp [entersCharging, hfsm, hchg]
    · exact .sends (by simp [silent, hfsm, hsome]) hpending
  · exact .sends (by simp [silent, hfsm, hchg]) (pending_doFinishing env .suspendedEV (enter .finishing w))

theorem told_move (env : Env) (hflag : w.remoteResetRequested = true) :
    Told env w ((machine env).move w.base.fsm w (transitions env)) := by
  cases hfsm : w.base.fsm with
  | preparing => exact told_preparing hfsm
  | charging => exact told_charging hflag hfsm
  | suspendedEV => exact told_suspendedEV hflag hfsm
  | booting =>
      refine told_of_idle (by rw [entersCharging, hfsm]) ?_
      rw [move_booting]
      split_ifs with hboot hun hav hprep
      · exact .inr ⟨by simp [silent, hfsm, hboot], rfl, by simp⟩
      · exact .inl ⟨by simp [silent, hfsm, hboot, hun], pending_doUnavailable env _ (enter .unavailable w)⟩
      · exact .inl ⟨by simp [silent, hfsm, hboot, hav], pending_doAvailable env _ (enter .available w)⟩
      · exact .inl ⟨by simp [silent, hfsm, hboot, hprep], pending_doPreparing env _ (enter .preparing w) (by decide)⟩
      · exact .inr ⟨by simp [silent, hfsm, hun, hav, hprep], rfl, by simp [hfsm]⟩
  | available =>
      refine told_of_idle (by rw [entersCharging, hfsm]) ?_
      rw [move_available]
      split_ifs with hfault hun hprep hres
      · exact .inl ⟨by simp [silent, hfsm, hfault], pending_doFaulted env _ (enter .faulted w)⟩
      · exact .inl ⟨by simp [silent, hfsm, hun], pending_doUnavailable env _ (enter .unavailable w)⟩
      · exact .inl ⟨by simp [silent, hfsm, hprep], pending_doPreparing env _ (enter .preparing w) (by decide)⟩
      · exact .inl ⟨by simp [silent, hfsm, hres], pending_doReserved .available (enter .reserved w)⟩
      · exact .inr ⟨by simp [silent, hfsm, hfault, hun, hprep, hres], rfl, by simp [hfsm]⟩
  | suspendedEVSE =>
      refine told_of_idle (by rw [entersCharging, hfsm]) ?_
      rw [move_suspendedEVSE]
      exact .inr ⟨by rw [silent, hfsm], rfl, by simp [hfsm]⟩
  | finishing =>
      refine told_of_idle (by rw [entersCharging, hfsm]) ?_
      rw [move_finishing]
      split_ifs with hfault hun hav hprep
      · exact .inl ⟨by simp [silent, hfsm, hfault], pending_doFaulted env _ (enter .faulted w)⟩
      · exact .inl ⟨by simp [silent, hfsm, hun], pending_doUnavailable env _ (enter .unavailable w)⟩
      · exact .inl ⟨by simp [silent, hfsm, hav], pending_doAvailable env _ (enter .available w)⟩
      · exact .inr ⟨by simp [silent, hfsm, hfault, hun, hav], pending_doPreparing_finishing env (enter .preparing w), by simp⟩
      · exact .inr ⟨by simp [silent, hfsm, hfault, hun, hav], rfl, by simp [hfsm]⟩
  | reserved =>
      refine told_of_idle (by rw [entersCharging, hfsm]) ?_
      rw [move_reserved]
      split_ifs with hfault hun hav hprep
      · exact .inl ⟨by simp [silent, hfsm, hfault], pending_doFaulted env _ (enter .faulted w)⟩
      · exact .inl ⟨by simp [silent, hfsm, hun], pending_doUnavailable env _ (enter .unavailable w)⟩
      · exact .inl ⟨by simp [silent, hfsm, hav], pending_doAvailable env _ (enter .available w)⟩
      · exact .inl ⟨by simp [silent, hfsm, hprep], pending_doPreparing env _ (enter .preparing w) (by decide)⟩
      · exact .inr ⟨by simp [silent, hfsm, hfault, hun, hav, hprep], rfl, by simp [hfsm]⟩
  | unavailable =>
      refine told_of_idle (by rw [entersCharging, hfsm]) ?_
      rw [move_unavailable]
      split_ifs with hun hfault hav hprep
      · exact .inr ⟨by simp [silent, hfsm, hun], rfl, by simp⟩
      · exact .inl ⟨by simp [silent, hfsm, hun, hfault], pending_doFaulted env _ (enter .faulted w)⟩
      · exact .inl ⟨by simp [silent, hfsm, hun, hav], pending_doAvailable env _ (enter .available w)⟩
      · exact .inl ⟨by simp [silent, hfsm, hun, hprep], pending_doPreparing env _ (enter .preparing w) (by decide)⟩
      · exact .inr ⟨by simp [silent, hfsm, hfault, hav, hprep], rfl, by simp [hfsm]⟩
  | faulted =>
      refine told_of_idle (by rw [entersCharging, hfsm]) ?_
      rw [move_faulted]
      split_ifs with hfault hun hav hprep
      · exact .inr ⟨by simp [silent, hfsm, hfault], rfl, by simp⟩
      · exact .inl ⟨by simp [silent, hfsm, hfault, hun], pending_doUnavailable env _ (enter .unavailable w)⟩
      · exact .inl ⟨by simp [silent, hfsm, hfault, hav], pending_doAvailable env _ (enter .available w)⟩
      · exact .inl ⟨by simp [silent, hfsm, hfault, hprep], pending_doPreparing env _ (enter .preparing w) (by decide)⟩
      · exact .inr ⟨by simp [silent, hfsm, hun, hav, hprep], rfl, by simp [hfsm]⟩

/-- A step of `connector_process`. -/
theorem told_process (env : Env) (hflag : w.remoteResetRequested = true) :
    Told env (stampNow env w) (process env w) := by
  have hmove := told_move (w := stampNow env w) env hflag
  have hpending := process_eq_move (f := pending) (fun _ => rfl) env w
  have hfsm := process_eq_move (f := fun v => v.base.fsm) (fun _ => rfl) env w
  cases hmove with
  | sends hsilent hless => exact .sends hsilent (hpending.symm ▸ hless)
  | silent hsilent hsame hcharging =>
      refine .silent hsilent (hpending.trans hsame) ?_
      rw [hfsm]
      exact hcharging

end Told

end Evse.Ocpp
