import Evse.Ocpp.StatusView

/-!
# Coming to rest

Whatever has happened to a connector, it is never stuck. With the cable unplugged and no fault, two steps of the machine bring it to Available, or to Unavailable where it was made so, with the relay open, and the CSMS has been told. The argument is a rank that every step of the machine lowers and no other event raises.
-/

namespace Evse.Ocpp

open StepRun

/-! ### Where the duty is zero -/

/-- Once the machine has left Booting the pilot is on, and it is in a state that its table knows. -/
structure Booted (w : World) : Prop where
  power : PowerInv (view w)
  duty : w.base.fsm ≠ .booting → w.base.getTargetDuty ≠ 0
  known : w.base.fsm ≠ .suspendedEVSE

section Booted

variable {env : Env} {w w' : World}

theorem duty_idle (h : PowerInv (view w)) (hboot : w.base.fsm ≠ .booting) (hcharging : w.base.fsm ≠ .charging)
    (hsuspended : w.base.fsm ≠ .suspendedEV) : w.base.getTargetDuty = idleDuty :=
  h.duty_idle hboot hcharging hsuspended

/-- The states outside the charging ones have the duty at 100 already. -/
theorem Booted.of_charging (hpower : PowerInv (view w))
    (hcharging : w.base.fsm = .charging ∨ w.base.fsm = .suspendedEV → w.base.getTargetDuty ≠ 0)
    (hknown : w.base.fsm ≠ .suspendedEVSE) : Booted w := by
  refine ⟨hpower, fun hboot => ?_, hknown⟩
  by_cases hsession : w.base.fsm = .charging ∨ w.base.fsm = .suspendedEV
  · exact hcharging hsession
  · rw [not_or] at hsession
    rw [duty_idle hpower hboot hsession.1 hsession.2]
    decide

theorem Booted.of_view (h : Booted w) (hview : view w' = view w) : Booted w' := by
  have hfsm : w'.base.fsm = w.base.fsm := congrArg Prod.fst hview
  have hduty : w'.base.getTargetDuty = w.base.getTargetDuty := congrArg (fun v => v.2.pilotDutyPct) hview
  refine ⟨hview ▸ h.power, ?_, hfsm ▸ h.known⟩
  rw [hfsm, hduty]
  exact h.duty

theorem booted_moves (h : Booted w) (hmove : Moves env w w') : Booted w' := by
  have hpower := powerInv_moves h.power hmove
  cases hmove with
  | stay => exact h
  | boot => exact .of_charging hpower (by simp) (by simp)
  | unavailable => exact .of_charging hpower (by simp) (by simp)
  | available => exact .of_charging hpower (by simp) (by simp)
  | preparing => exact .of_charging hpower (by simp) (by simp)
  | faulted => exact .of_charging hpower (by simp) (by simp)
  | reserved => exact .of_charging hpower (by simp) (by simp)
  | requestTid => exact .of_charging hpower (by simp) (by simp)
  | startCharging =>
      refine .of_charging hpower (fun _ => ?_) (by simp)
      exact Nat.pos_iff_ne_zero.mp (Iec61851.milliampereToDuty_pos w.base.param.maxOutputCurrent)
  | suspend hfsm =>
      refine .of_charging hpower (fun _ => ?_) (by simp)
      exact h.duty (by simp [hfsm])
  | finish => exact .of_charging hpower (by simp) (by simp)
  | keepCharging hfsm =>
      refine .of_charging hpower (fun _ => ?_) (by simp)
      have hduty := congrArg (fun v => v.2.pilotDutyPct) (view_doCharging_charging env (enter .charging w))
      exact fun hzero => h.duty (by simp [hfsm]) (hduty.symm.trans hzero)
  | resume hfsm =>
      refine .of_charging hpower (fun _ => ?_) (by simp)
      rw [doCharging_suspendedEV_base]
      exact h.duty (by simp [hfsm])
  | keepSuspended hfsm =>
      refine .of_charging hpower (fun _ => ?_) (by simp)
      rw [doCharging_suspendedEV_base]
      exact h.duty (by simp [hfsm])

/-- Only a step of the machine changes the state and the pilot. -/
theorem view_of_not_process (w : World) {e : Event} (he : ∀ env, e ≠ .process env) : view (step w e) = view w := by
  by_cases hown : e.ofConnector = true
  · cases e with
    | process env => exact absurd rfl (he env)
    | enable env => simp [view, step]
    | disable => rfl
    | setReserved reserved => rfl
    | _ => simp [Event.ofConnector] at hown
  · simp only [view, step_base (Bool.eq_false_iff.mpr hown)]

theorem booted_step (w : World) (e : Event) (h : Booted w) : Booted (step w e) := by
  by_cases hprocess : ∃ env, e = .process env
  · obtain ⟨env, rfl⟩ := hprocess
    show Booted (if w.base.enabled then process env w else w)
    split
    · obtain ⟨w', hmove, hcore⟩ := process_moves env w
      have hstamped : Booted (stampNow env w) := h.of_view rfl
      exact (booted_moves hstamped hmove).of_view (view_of_core hcore)
    · exact h
  · exact h.of_view (view_of_not_process w fun env he => hprocess ⟨env, he⟩)

theorem booted_start (boot : Boot) : Booted boot.start := by
  have hfsm : boot.start.base.fsm = .booting := rfl
  exact .of_charging (powerInv_start boot) (by simp [hfsm]) (by simp [hfsm])

end Booted

/-! ### Coming to rest -/

/-- Nothing is plugged in and nothing is wrong; the pilot is measured as it is set. -/
structure Unplugged (w : World) (env : Env) : Prop where
  status : w.base.getTargetDuty ≠ 0 → env.pilot.status = .a
  duty : env.pilot.duty = w.base.getTargetDuty
  inputPower : isInputPowerOk env.safety = true
  noEmergency : isEmergencyStop env.safety = false

/-- Nobody is authorized, from then on. -/
def Inactive (since : Int) (w : World) : Prop :=
  isSessionEstablished w = false ∨ w.session.expiry ≠ 0 ∧ w.session.expiry ≤ since

/-- Where the machine comes to rest. -/
def restState (w : World) : OcppState := if w.checkpoint.unavailable then .unavailable else .available

/-- How many steps the machine may take to get there. -/
def restRank (w : World) : Nat :=
  if w.base.fsm = restState w then 0
  else if w.base.fsm = .charging ∨ w.base.fsm = .suspendedEV ∨
      w.base.fsm = .booting ∧ w.base.getTargetDuty ≠ idleDuty then 2
  else 1

section Rest

variable {env : Env} {w w' : World} {since : Int}

theorem Unplugged.state (h : Unplugged w env) (hduty : w.base.getTargetDuty ≠ 0) : w.base.state env.toReadings = .a := by
  have hset : w.base.iec61851.pilot.dutyPct ≠ 0 := fun hzero => hduty (w.base.iec61851.duty_agrees.symm.trans hzero)
  simp only [Connector.state, Iec61851.state, if_neg hset, h.status hduty, Connector.getStateFromIec61851]

theorem Unplugged.isFaulted (h : Unplugged w env) (hduty : w.base.getTargetDuty ≠ 0) {state : OcppState}
    (hidle : state ≠ .charging) : isFaulted env state w = false := by
  have hstate := h.state hduty
  have hcharging : Connector.isCharging (mapStateToCommon state) = false := by
    cases state <;> first | rfl | exact absurd rfl hidle
  simp [Ocpp.isFaulted, Connector.isEvseError, hduty, h.inputPower, h.noEmergency, hcharging, hstate]

theorem Unplugged.isUnavailable (h : Unplugged w env) (hduty : w.base.getTargetDuty ≠ 0) (hup : w.csmsUp = true)
    (state : OcppState) : isUnavailable env state w = w.checkpoint.unavailable := by
  simp [Ocpp.isUnavailable, Connector.isStateX, hup, h.state hduty, isUnavailableSet]

theorem Unplugged.isAvailable (h : Unplugged w env) (hduty : w.base.getTargetDuty ≠ 0) (hup : w.csmsUp = true)
    (hnobody : isSessionActive w = false) (state : OcppState) : isAvailable env state w = true := by
  simp [Ocpp.isAvailable, Connector.isStateX, hup, h.state hduty, hnobody]

theorem Unplugged.isPreparing (h : Unplugged w env) (hduty : w.base.getTargetDuty ≠ 0) (hup : w.csmsUp = true)
    (hnobody : isSessionActive w = false) (state : OcppState) : isPreparing env state w = false := by
  simp [Ocpp.isPreparing, Connector.isStateX, hup, h.state hduty, hnobody]

theorem Inactive.isSessionActive (h : Inactive since w) (hnow : since ≤ env.now) :
    isSessionActive (stampNow env w) = false := by
  rcases h with hnobody | ⟨hexpiry, hle⟩
  · exact Bool.and_eq_false_iff.mpr (.inl hnobody)
  · refine Bool.and_eq_false_iff.mpr (.inr ?_)
    have hexpired : isTimeExpired (stampNow env w) = true := by
      simp only [isTimeExpired, Bool.and_eq_true, decide_eq_true_eq]
      exact ⟨hexpiry, Int.le_trans hle hnow⟩
    rw [hexpired]
    rfl

/-- What the machine makes of a step while nothing is plugged in. -/
inductive Settles (w : World) : World → Prop where
  | rest {w' : World} (hfsm : w'.base.fsm = restState w)
      (hsession : w'.session = w.session ∧ w.base.fsm ≠ .charging ∧ w.base.fsm ≠ .suspendedEV ∨ w'.session = {}) :
      Settles w w'
  | finish {w' : World} (hfrom : w.base.fsm = .charging ∨ w.base.fsm = .suspendedEV) (hfsm : w'.base.fsm = .finishing)
      (hsession : w'.session = {}) : Settles w w'
  | boot {w' : World} (hfrom : w.base.fsm = .booting) (hduty : w.base.getTargetDuty ≠ idleDuty)
      (hfsm : w'.base.fsm = .booting) (hidle : w'.base.getTargetDuty = idleDuty) (hsession : w'.session = w.session) :
      Settles w w'

theorem session_doMissingTransaction {state : OcppState} (h : w.session = {}) :
    (doMissingTransaction env state w).session = {} := by
  unfold doMissingTransaction
  split_ifs
  · exact h
  · rfl
  · exact h

theorem session_doUnavailable (env : Env) (state : OcppState) (w : World) : (doUnavailable env state w).session = {} :=
  session_doMissingTransaction rfl

theorem session_doAvailable (env : Env) (state : OcppState) (w : World) : (doAvailable env state w).session = {} := by
  unfold doAvailable
  exact session_doMissingTransaction rfl

/-- The two rows that lead to rest. -/
theorem settles_rest (env : Env) (state : OcppState) (w : World) :
    Settles w (if w.checkpoint.unavailable = true then doUnavailable env state (enter .unavailable w)
      else doAvailable env state (enter .available w)) := by
  split
  · rename_i hset
    exact .rest (by rw [doUnavailable_base, restState, if_pos hset]; rfl) (.inr (session_doUnavailable env state _))
  · rename_i hset
    exact .rest (by rw [doAvailable_base, restState, if_neg hset]; rfl) (.inr (session_doAvailable env state _))

/-- A state at rest keeps to itself. -/
theorem settles_stay (hfsm : w.base.fsm = restState w) (hcharging : w.base.fsm ≠ .charging)
    (hsuspended : w.base.fsm ≠ .suspendedEV) : Settles w w :=
  .rest hfsm (.inl ⟨rfl, hcharging, hsuspended⟩)

theorem settles_move (h : Booted w) (hunplugged : Unplugged w env) (hup : w.csmsUp = true)
    (hreserved : w.base.reserved = false)
    (hinactive : w.base.fsm ≠ .charging → w.base.fsm ≠ .suspendedEV → isSessionActive w = false) :
    Settles w ((machine env).move w.base.fsm w (transitions env)) := by
  have hduty := h.duty
  cases hfsm : w.base.fsm with
  | booting =>
      rw [move_booting]
      by_cases hset : w.base.getTargetDuty = idleDuty
      · have hboot : isBooting env .booting w = false := by
          simp [isBooting, Connector.getActualDuty, hunplugged.duty, hset, idleDuty]
        have hpositive : w.base.getTargetDuty ≠ 0 := by
          rw [hset]
          decide
        have hnobody := hinactive (by simp [hfsm]) (by simp [hfsm])
        rw [hboot, hunplugged.isUnavailable hpositive hup, hunplugged.isAvailable hpositive hup hnobody]
        exact settles_rest env .booting w
      · have hboot : isBooting env .booting w = true := by simp [isBooting, hset]
        rw [if_pos hboot]
        exact .boot hfsm hset rfl rfl rfl
  | charging =>
      have hstate := hunplugged.state (hduty (by simp [hfsm]))
      have hsuspended : isSuspendedEV env .charging w = false := by simp [isSuspendedEV, Connector.isStateX, hstate]
      have hfinishing : isFinishing env .charging w = true := by simp [isFinishing, Connector.isStateX, hstate]
      rw [move_charging, hsuspended, hfinishing]
      exact .finish (.inl hfsm) (doFinishing_fsm env _ _) rfl
  | suspendedEV =>
      have hstate := hunplugged.state (hduty (by simp [hfsm]))
      have hcharging : isCharging env .suspendedEV w = false := by simp [isCharging, Connector.isStateX2, hstate]
      have hfinishing : isFinishing env .suspendedEV w = true := by simp [isFinishing, Connector.isStateX, hstate]
      rw [move_suspendedEV, hcharging, hfinishing]
      exact .finish (.inr hfsm) (doFinishing_fsm env _ _) rfl
  | suspendedEVSE => exact absurd hfsm h.known
  | available =>
      have hpositive := hduty (by simp [hfsm])
      have hnobody := hinactive (by simp [hfsm]) (by simp [hfsm])
      rw [move_available, hunplugged.isFaulted hpositive (by decide), hunplugged.isUnavailable hpositive hup,
        hunplugged.isPreparing hpositive hup hnobody, isReserved, hreserved]
      cases hflag : w.checkpoint.unavailable with
      | true =>
          have hleave := settles_rest env .available w
          rw [if_pos hflag] at hleave
          exact hleave
      | false => exact settles_stay (by rw [restState, hflag]; exact hfsm) (by simp [hfsm]) (by simp [hfsm])
  | unavailable =>
      have hpositive := hduty (by simp [hfsm])
      have hnobody := hinactive (by simp [hfsm]) (by simp [hfsm])
      rw [move_unavailable, hunplugged.isFaulted hpositive (by decide), hunplugged.isUnavailable hpositive hup,
        hunplugged.isAvailable hpositive hup hnobody, enter_self hfsm]
      cases hflag : w.checkpoint.unavailable with
      | true => exact settles_stay (by rw [restState, hflag]; exact hfsm) (by simp [hfsm]) (by simp [hfsm])
      | false =>
          have hleave := settles_rest env .unavailable w
          rw [if_neg (by simp [hflag])] at hleave
          exact hleave
  | preparing =>
      have hpositive := hduty (by simp [hfsm])
      have hnobody := hinactive (by simp [hfsm]) (by simp [hfsm])
      rw [move_preparing, hunplugged.isFaulted hpositive (by decide), hunplugged.isUnavailable hpositive hup,
        hunplugged.isAvailable hpositive hup hnobody]
      exact settles_rest env .preparing w
  | finishing =>
      have hpositive := hduty (by simp [hfsm])
      have hnobody := hinactive (by simp [hfsm]) (by simp [hfsm])
      rw [move_finishing, hunplugged.isFaulted hpositive (by decide), hunplugged.isUnavailable hpositive hup,
        hunplugged.isAvailable hpositive hup hnobody]
      exact settles_rest env .finishing w
  | reserved =>
      have hpositive := hduty (by simp [hfsm])
      have hnobody := hinactive (by simp [hfsm]) (by simp [hfsm])
      rw [move_reserved, hunplugged.isFaulted hpositive (by decide), hunplugged.isUnavailable hpositive hup,
        hunplugged.isAvailable hpositive hup hnobody]
      exact settles_rest env .reserved w
  | faulted =>
      have hpositive := hduty (by simp [hfsm])
      have hnobody := hinactive (by simp [hfsm]) (by simp [hfsm])
      rw [move_faulted, hunplugged.isFaulted hpositive (by decide), hunplugged.isUnavailable hpositive hup,
        hunplugged.isAvailable hpositive hup hnobody]
      exact settles_rest env .faulted w

/-- Who is authorized is a matter of the session alone. -/
theorem Inactive.of_session (h : Inactive since w) (hsession : w'.session = w.session) : Inactive since w' := by
  unfold Inactive isSessionEstablished
  rw [hsession]
  exact h

theorem inactive_of_cleared (hsession : w.session = {}) : Inactive since w := by
  refine .inl ?_
  rw [isSessionEstablished, hsession]
  rfl

theorem reserved_moves (hmove : Moves env w w') : w'.base.reserved = w.base.reserved := by
  cases hmove with
  | finish hfsm => obtain hfsm | hfsm := hfsm <;> rw [hfsm] <;> rfl
  | keepCharging hfsm =>
      rw [doCharging_charging_base]
      split <;> rfl
  | _ => simp [enter, Connector.stopDuty, Connector.startDuty, Connector.disablePowerSupply]

theorem reserved_process (env : Env) (w : World) : (process env w).base.reserved = w.base.reserved := by
  have hmoved := process_eq_move (f := fun v => v.base.reserved) (fun _ => rfl) env w
  have hrow := reserved_moves (moves env (stampNow env w))
  exact hmoved.trans hrow

/-- The connector is in service, and nobody is authorized at it unless it charges. -/
structure InService (since : Int) (w : World) : Prop where
  enabled : w.base.enabled = true
  free : w.base.reserved = false
  up : w.csmsUp = true
  nobody : w.base.fsm ≠ .charging → w.base.fsm ≠ .suspendedEV → Inactive since w

/-- What may happen while nothing is plugged in: any event that leaves the connector in service, with nobody authorized, and its availability as it is. -/
def Undisturbed (since : Int) (w : World) : Event → Prop
  | .process env => Unplugged w env ∧ since ≤ env.now
  | e => InService since (step w e) ∧ (step w e).checkpoint.unavailable = w.checkpoint.unavailable

/-- Events that always do. -/
def Event.isHarmless : Event → Bool
  | .receive _ _ response => response = .stopTransaction ∨ response = .other
  | .mqRecv _ | .drop _ | .bootAccepted _ | .changeConfiguration _ | .clearCache | .reset .. | .release .. | .enable _
    | .setReserved false => true
  | _ => false

def Event.isProcess : Event → Bool
  | .process _ => true
  | _ => false

theorem settles_process (h : Booted w) (hservice : InService since w) (hunplugged : Unplugged w env)
    (hnow : since ≤ env.now) : Settles w (process env w) := by
  have hstamped : Booted (stampNow env w) := h.of_view rfl
  have hstill : Unplugged (stampNow env w) env :=
    ⟨hunplugged.status, hunplugged.duty, hunplugged.inputPower, hunplugged.noEmergency⟩
  have hsettles := settles_move hstamped hstill hservice.up hservice.free
    fun hcharging hsuspended => (hservice.nobody hcharging hsuspended).isSessionActive hnow
  have hmoved := process_eq_move (f := fun v => (v.base.fsm, v.base.getTargetDuty, v.session)) (fun _ => rfl) env w
  simp only [Prod.mk.injEq] at hmoved
  obtain ⟨hfsm, hduty, hsession⟩ := hmoved
  cases hsettles with
  | rest hrest hcleared => exact .rest (hfsm.trans hrest) (by rw [hsession]; exact hcleared)
  | finish hfrom hfinishing hcleared => exact .finish hfrom (hfsm.trans hfinishing) (hsession.trans hcleared)
  | boot hfrom hset hbooting hidle hkept =>
      exact .boot hfrom hset (hfsm.trans hbooting) (hduty.trans hidle) (hsession.trans hkept)

theorem restState_cases (w : World) : restState w = .unavailable ∨ restState w = .available := by
  unfold restState
  split
  · exact .inl rfl
  · exact .inr rfl

theorem Settles.restRank_le (h : Settles w w') (hrest : restState w' = restState w) : restRank w' ≤ restRank w - 1 := by
  have hnot := restState_cases w
  cases h with
  | rest hfsm =>
      rw [restRank, if_pos (hfsm.trans hrest.symm)]
      exact Nat.zero_le _
  | finish hfrom hfsm =>
      have hbefore : restRank w = 2 := by
        rw [restRank, if_neg, if_pos (by tauto)]
        intro heq
        rw [heq] at hfrom
        rcases hnot with hnot | hnot <;> simp [hnot] at hfrom
      rw [hbefore, restRank, hfsm]
      split_ifs <;> simp_all
  | boot hfrom hduty hfsm hidle =>
      have hbefore : restRank w = 2 := by
        rw [restRank, if_neg, if_pos (.inr (.inr ⟨hfrom, hduty⟩))]
        intro heq
        rw [heq] at hfrom
        rcases hnot with hnot | hnot <;> simp [hnot] at hfrom
      rw [hbefore, restRank, hfsm, hidle]
      split_ifs <;> simp_all

theorem Settles.nobody (h : Settles w w')
    (hnobody : w.base.fsm ≠ .charging → w.base.fsm ≠ .suspendedEV → Inactive since w) : Inactive since w' := by
  cases h with
  | rest _ hsession =>
      rcases hsession with ⟨hkept, hcharging, hsuspended⟩ | hcleared
      · exact (hnobody hcharging hsuspended).of_session hkept
      · exact inactive_of_cleared hcleared
  | finish _ _ hcleared => exact inactive_of_cleared hcleared
  | boot hfrom _ _ _ hkept => exact (hnobody (by simp [hfrom]) (by simp [hfrom])).of_session hkept

/-- What a step keeps while nothing is plugged in. -/
structure Rests (since : Int) (w w' : World) (steps : Nat) : Prop where
  service : InService since w'
  goal : restState w' = restState w
  nearer : restRank w' ≤ restRank w - steps

theorem rests_process (h : Booted w) (hservice : InService since w) (hunplugged : Unplugged w env)
    (hnow : since ≤ env.now) : Rests since w (process env w) 1 := by
  have hsettles := settles_process h hservice hunplugged hnow
  have huntouched : Untouched fun w : World => (w.csmsUp, w.checkpoint.unavailable) :=
    ⟨fun _ _ => rfl, fun _ _ _ => rfl, fun _ _ => rfl, fun _ _ => rfl, fun _ _ => rfl⟩
  have hkept := huntouched.process env w
  simp only [Prod.mk.injEq] at hkept
  have hgoal : restState (process env w) = restState w := by rw [restState, hkept.2, restState]
  refine ⟨⟨?_, ?_, ?_, fun _ _ => hsettles.nobody hservice.nobody⟩, hgoal, hsettles.restRank_le hgoal⟩
  · exact (congrArg Prod.fst (wiring_process env w)).trans hservice.enabled
  · exact (reserved_process env w).trans hservice.free
  · exact hkept.1.trans hservice.up

theorem rests_step (h : Booted w) (hservice : InService since w) {e : Event} (hquiet : Undisturbed since w e) :
    Rests since w (step w e) e.isProcess.toNat := by
  by_cases hprocess : ∃ env, e = .process env
  · obtain ⟨env, rfl⟩ := hprocess
    rw [step, if_pos hservice.enabled]
    exact rests_process h hservice hquiet.1 hquiet.2
  · have hother : ∀ env, e ≠ .process env := fun env he => hprocess ⟨env, he⟩
    have hview := view_of_not_process w hother
    have hfsm : (step w e).base.fsm = w.base.fsm := congrArg Prod.fst hview
    have hduty : (step w e).base.getTargetDuty = w.base.getTargetDuty := congrArg (fun v => v.2.pilotDutyPct) hview
    have hstays : InService since (step w e) ∧ (step w e).checkpoint.unavailable = w.checkpoint.unavailable := by
      cases e with
      | process env => exact absurd rfl (hother env)
      | _ => exact hquiet
    have hgoal : restState (step w e) = restState w := by rw [restState, hstays.2, restState]
    have hsteps : e.isProcess = false := by
      cases e with
      | process env => exact absurd rfl (hother env)
      | _ => rfl
    refine ⟨hstays.1, hgoal, ?_⟩
    rw [restRank, hgoal, hfsm, hduty, restRank, hsteps]
    exact Nat.le_refl _

theorem mqSend_same (env : Env) (w : World) (msg : ChargerMsg) :
    (mqSend env w msg).base = w.base ∧ (mqSend env w msg).session = w.session ∧
      (mqSend env w msg).checkpoint = w.checkpoint ∧ (mqSend env w msg).csmsUp = w.csmsUp := by
  unfold mqSend
  split <;> exact ⟨rfl, rfl, rfl, rfl⟩

/-- A harmless event reaches neither the connector proper nor who is authorized at it, or it ends the session. -/
theorem undisturbed_of_harmless (hservice : InService since w) {e : Event} (he : e.isHarmless = true) :
    Undisturbed since w e := by
  have hsame : ∀ w', w'.base = w.base → w'.session = w.session → w'.csmsUp = true →
      w'.checkpoint.unavailable = w.checkpoint.unavailable →
        InService since w' ∧ w'.checkpoint.unavailable = w.checkpoint.unavailable := by
    intro w' hbase hsession hup hunavailable
    refine ⟨⟨hbase ▸ hservice.enabled, hbase ▸ hservice.free, hup, fun hcharging hsuspended => ?_⟩, hunavailable⟩
    rw [hbase] at hcharging hsuspended
    exact (hservice.nobody hcharging hsuspended).of_session hsession
  have hsend : ∀ env w' msg, w'.base = w.base → w'.session = w.session → w'.csmsUp = w.csmsUp → w'.checkpoint = w.checkpoint →
      InService since (mqSend env w' msg) ∧ (mqSend env w' msg).checkpoint.unavailable = w.checkpoint.unavailable := by
    intro env w' msg hbase hsession hup hcheckpoint
    obtain ⟨hbase', hsession', hcheckpoint', hup'⟩ := mqSend_same env w' msg
    refine hsame _ (hbase'.trans hbase) (hsession'.trans hsession) (hup'.trans (hup.trans hservice.up)) ?_
    rw [hcheckpoint', hcheckpoint]
  cases e with
  | receive env id response =>
      simp only [Undisturbed, step, receive]
      split
      · exact hsame _ rfl rfl hservice.up rfl
      · have hdropped := hsame (dropRequest w id) rfl rfl hservice.up rfl
        have hended := hsend env (dropRequest w id) .billingEnded rfl rfl rfl rfl
        rcases of_decide_eq_true he with rfl | rfl
        all_goals
          unfold handlerProcess
          split
          · rename_i hother
            exact absurd hother (by simp)
          · rename_i hother
            exact absurd hother (by simp)
          · exact hended
          · exact hdropped
  | mqRecv env =>
      simp only [Undisturbed, step, mqRecv]
      split
      · exact hsame _ rfl rfl hservice.up rfl
      · rename_i msg msgs _
        cases msg with
        | billingStarted =>
            rw [msgHandler, procStartTransaction, raiseEvent_eq]
            exact hsame _ rfl rfl hservice.up rfl
        | billingEnded =>
            rw [msgHandler, procStopTransaction, raiseEvent_eq]
            exact hsame _ rfl rfl hservice.up rfl
        | csmsUp => exact hsame _ rfl rfl rfl rfl
        | _ => exact hsame _ rfl rfl hservice.up rfl
  | drop id => exact hsame _ rfl rfl hservice.up rfl
  | bootAccepted env => exact hsend env w _ rfl rfl rfl rfl
  | changeConfiguration env => exact hsend env w _ rfl rfl rfl rfl
  | clearCache => exact hsame _ rfl rfl hservice.up rfl
  | reset env forced => exact hsend env w _ rfl rfl rfl rfl
  | release env remote =>
      have hframe := authFrame_release env w remote
      have hup : (release env w remote).csmsUp = true := by
        simp only [release]
        split_ifs <;> exact hservice.up
      have hended : (release env w remote).base.fsm ≠ .charging → (release env w remote).base.fsm ≠ .suspendedEV →
          Inactive since (release env w remote) := by
        intro hcharging hsuspended
        rw [hframe.base] at hcharging hsuspended
        have hcleared : (release env w remote).session = {} := by
          rw [release, if_neg (not_or.mpr ⟨hcharging, hsuspended⟩)]
          rfl
        exact inactive_of_cleared hcleared
      exact ⟨⟨hframe.base ▸ hservice.enabled, hframe.base ▸ hservice.free, hup, hended⟩,
        congrArg (·.unavailable) hframe.checkpoint⟩
  | enable env =>
      refine ⟨⟨rfl, ?_, hservice.up, fun hcharging hsuspended => ?_⟩, rfl⟩
      · simp only [step, Connector.enable, Connector.callback]
        split <;> exact hservice.free
      · have hfsm : (step w (.enable env)).base.fsm = w.base.fsm := by simp [step]
        rw [hfsm] at hcharging hsuspended
        exact (hservice.nobody hcharging hsuspended).of_session rfl
  | setReserved reserved =>
      cases reserved with
      | true => cases he
      | false => exact ⟨⟨hservice.enabled, rfl, hservice.up, hservice.nobody⟩, rfl⟩
  | _ => cases he

end Rest

theorem restRank_le (w : World) : restRank w ≤ 2 := by
  unfold restRank
  split_ifs <;> decide

end Evse.Ocpp
