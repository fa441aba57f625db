import Evse.Ocpp.System

/-!
# What one step of the machine does

The table of 36 rows, state by state: in each state the rows amount to a chain of guards. From the chains follows the inversion lemma that the properties use, `process_moves`: one constructor of `Moves` for each kind of row, with the guards that decided for it. The state change callback and the events it dispatches are left out of the comparison; they touch only the fields that `core` blanks out.
-/

namespace Evse.Ocpp

open RowTable StepRun

/-- Everything but the fields that dispatching events and noting the time of a state change touch. -/
def core (w : World) : World :=
  { w with evtq := [], base.timeLastStateChange := 0, base.dispatched := [] }

/-- The world as an action of a row with that next state finds it. -/
def enter (state : OcppState) (w : World) : World := { w with base.fsm := state }

@[simp] theorem stampNow_base (env : Env) (w : World) : (stampNow env w).base = w.base := rfl

@[simp] theorem enter_fsm (state : OcppState) (w : World) : (enter state w).base.fsm = state := rfl

@[simp] theorem enter_iec61851 (state : OcppState) (w : World) :
    (enter state w).base.iec61851 = w.base.iec61851 := rfl

theorem core_dispatchEvent (event : ConnectorEvent) (w : World) : core (dispatchEvent event w) = core w := by
  unfold dispatchEvent Connector.callback
  dsimp only
  split_ifs <;> rfl

theorem core_onStateChange (env : Env) (newState prevState : OcppState) (w : World) :
    core (onStateChange env newState prevState w) = core w := by
  simp only [onStateChange]
  rw [core_dispatchEvent]
  rfl

theorem core_process (env : Env) (w : World) :
    core (process env w) =
      core ((machine env).move w.base.fsm (stampNow env w) (transitions env)) := by
  rw [process, core_dispatchEvent]
  exact (machine env).step_eq_move core (core_onStateChange env) (stampNow env w)

/-- What dispatching does not touch is as the row taken leaves it. -/
theorem process_eq_move {β : Type} {f : World → β} (hf : ∀ w, f (core w) = f w) (env : Env) (w : World) :
    f (process env w) = f ((machine env).move w.base.fsm (stampNow env w) (transitions env)) := by
  rw [← hf (process env w), core_process, hf]

/-! ### The rows of each state -/

section Chains

variable (env : Env) (w : World)

theorem move_booting :
    (machine env).move .booting w (transitions env) =
      if isBooting env .booting w then doBoot .booting (enter .booting w)
      else if isUnavailable env .booting w then doUnavailable env .booting (enter .unavailable w)
      else if isAvailable env .booting w then doAvailable env .booting (enter .available w)
      else if isPreparing env .booting w then doPreparing env .booting (enter .preparing w)
      else w := by
  simp only [transitions, item, Machine.move, reduceCtorEq, false_and, true_and, if_false, Row.perform,
    machine, enter]

theorem move_available :
    (machine env).move .available w (transitions env) =
      if isFaulted env .available w then doFaulted env .available (enter .faulted w)
      else if isUnavailable env .available w then doUnavailable env .available (enter .unavailable w)
      else if isPreparing env .available w then doPreparing env .available (enter .preparing w)
      else if isReserved .available w then doReserved .available (enter .reserved w)
      else w := by
  simp only [transitions, item, Machine.move, reduceCtorEq, false_and, true_and, if_false, Row.perform,
    machine, enter]

theorem move_preparing :
    (machine env).move .preparing w (transitions env) =
      if isFaulted env .preparing w then doFaulted env .preparing (enter .faulted w)
      else if isUnavailable env .preparing w then doUnavailable env .preparing (enter .unavailable w)
      else if isAvailable env .preparing w then doAvailable env .preparing (enter .available w)
      else if isChargingRdy env .preparing w then doRequestTid env .preparing (enter .preparing w)
      else if isCharging env .preparing w then doCharging env .preparing (enter .charging w)
      else if isFinishing env .preparing w then doFinishing env .preparing (enter .finishing w)
      else w := by
  simp only [transitions, item, Machine.move, reduceCtorEq, false_and, true_and, if_false, Row.perform,
    machine, enter]

theorem move_charging :
    (machine env).move .charging w (transitions env) =
      if isSuspendedEV env .charging w then doSuspendedEV .charging (enter .suspendedEV w)
      else if isFinishing env .charging w then doFinishing env .charging (enter .finishing w)
      else if isCharging env .charging w then doCharging env .charging (enter .charging w)
      else w := by
  simp only [transitions, item, Machine.move, reduceCtorEq, false_and, true_and, if_false, Row.perform,
    machine, enter]

theorem move_suspendedEV :
    (machine env).move .suspendedEV w (transitions env) =
      if isCharging env .suspendedEV w then doCharging env .suspendedEV (enter .charging w)
      else if isFinishing env .suspendedEV w then doFinishing env .suspendedEV (enter .finishing w)
      else if isSuspendedEV env .suspendedEV w then doCharging env .suspendedEV (enter .suspendedEV w)
      else w := by
  simp only [transitions, item, Machine.move, reduceCtorEq, false_and, true_and, if_false, Row.perform,
    machine, enter]

theorem move_finishing :
    (machine env).move .finishing w (transitions env) =
      if isFaulted env .finishing w then doFaulted env .finishing (enter .faulted w)
      else if isUnavailable env .finishing w then doUnavailable env .finishing (enter .unavailable w)
      else if isAvailable env .finishing w then doAvailable env .finishing (enter .available w)
      else if isPreparing env .finishing w then doPreparing env .finishing (enter .preparing w)
      else w := by
  simp only [transitions, item, Machine.move, reduceCtorEq, false_and, true_and, if_false, Row.perform,
    machine, enter]

theorem move_reserved :
    (machine env).move .reserved w (transitions env) =
      if isFaulted env .reserved w then doFaulted env .reserved (enter .faulted w)
      else if isUnavailable env .reserved w then doUnavailable env .reserved (enter .unavailable w)
      else if isAvailable env .reserved w then doAvailable env .reserved (enter .available w)
      else if isPreparing env .reserved w then doPreparing env .reserved (enter .preparing w)
      else w := by
  simp only [transitions, item, Machine.move, reduceCtorEq, false_and, true_and, if_false, Row.perform,
    machine, enter]

theorem move_unavailable :
    (machine env).move .unavailable w (transitions env) =
      if isUnavailable env .unavailable w then enter .unavailable w
      else if isFaulted env .unavailable w then doFaulted env .unavailable (enter .faulted w)
      else if isAvailable env .unavailable w then doAvailable env .unavailable (enter .available w)
      else if isPreparing env .unavailable w then doPreparing env .unavailable (enter .preparing w)
      else w := by
  simp only [transitions, item, Machine.move, reduceCtorEq, false_and, true_and, if_false, Row.perform,
    machine, enter]

theorem move_faulted :
    (machine env).move .faulted w (transitions env) =
      if isFaulted env .faulted w then enter .faulted w
      else if isUnavailable env .faulted w then doUnavailable env .faulted (enter .unavailable w)
      else if isAvailable env .faulted w then doAvailable env .faulted (enter .available w)
      else if isPreparing env .faulted w then doPreparing env .faulted (enter .preparing w)
      else w := by
  simp only [transitions, item, Machine.move, reduceCtorEq, false_and, true_and, if_false, Row.perform,
    machine, enter]

theorem move_suspendedEVSE : (machine env).move .suspendedEVSE w (transitions env) = w := by
  simp only [transitions, item, Machine.move, reduceCtorEq, false_and, if_false]

end Chains

/-! ### Inversion -/

/-- What a step that starts in `w` can make of it, by the kind of row taken. -/
inductive Moves (env : Env) (w : World) : World → Prop where
  | stay : Moves env w w
  | boot (hfsm : w.base.fsm = .booting) : Moves env w (doBoot .booting (enter .booting w))
  | unavailable (hidle : w.base.fsm ≠ .charging ∧ w.base.fsm ≠ .suspendedEV)
      (hboot : w.base.fsm = .booting → isBooting env .booting w = false)
      (hguard : isUnavailable env w.base.fsm w = true) :
      Moves env w (doUnavailable env w.base.fsm (enter .unavailable w))
  | available (hidle : w.base.fsm ≠ .charging ∧ w.base.fsm ≠ .suspendedEV)
      (hboot : w.base.fsm = .booting → isBooting env .booting w = false)
      (hguard : isAvailable env w.base.fsm w = true) :
      Moves env w (doAvailable env w.base.fsm (enter .available w))
  | preparing (hidle : w.base.fsm ≠ .charging ∧ w.base.fsm ≠ .suspendedEV ∧ w.base.fsm ≠ .preparing)
      (hboot : w.base.fsm = .booting → isBooting env .booting w = false)
      (hguard : isPreparing env w.base.fsm w = true) :
      Moves env w (doPreparing env w.base.fsm (enter .preparing w))
  | faulted (hidle : w.base.fsm ≠ .charging ∧ w.base.fsm ≠ .suspendedEV ∧ w.base.fsm ≠ .booting)
      (hguard : isFaulted env w.base.fsm w = true) :
      Moves env w (doFaulted env w.base.fsm (enter .faulted w))
  | reserved (hfsm : w.base.fsm = .available) (hguard : isReserved .available w = true) :
      Moves env w (doReserved .available (enter .reserved w))
  | requestTid (hfsm : w.base.fsm = .preparing) (hguard : isChargingRdy env .preparing w = true) :
      Moves env w (doRequestTid env .preparing (enter .preparing w))
  | startCharging (hfsm : w.base.fsm = .preparing) (hguard : isCharging env .preparing w = true) :
      Moves env w (doCharging env .preparing (enter .charging w))
  | suspend (hfsm : w.base.fsm = .charging) (hguard : isSuspendedEV env .charging w = true) :
      Moves env w (doSuspendedEV .charging (enter .suspendedEV w))
  | finish (hfsm : w.base.fsm = .charging ∨ w.base.fsm = .suspendedEV)
      (hguard : isFinishing env w.base.fsm w = true) :
      Moves env w (doFinishing env w.base.fsm (enter .finishing w))
  | keepCharging (hfsm : w.base.fsm = .charging) (hsuspended : isSuspendedEV env .charging w = false)
      (hfinishing : isFinishing env .charging w = false) (hguard : isCharging env .charging w = true) :
      Moves env w (doCharging env .charging (enter .charging w))
  | resume (hfsm : w.base.fsm = .suspendedEV) (hguard : isCharging env .suspendedEV w = true) :
      Moves env w (doCharging env .suspendedEV (enter .charging w))
  | keepSuspended (hfsm : w.base.fsm = .suspendedEV) (hguard : isSuspendedEV env .suspendedEV w = true) :
      Moves env w (doCharging env .suspendedEV (enter .suspendedEV w))

/-- The row from Preparing to Finishing is never taken: its guard asks for a charging state. -/
theorem isFinishing_preparing (env : Env) (w : World) : isFinishing env .preparing w = false := rfl

theorem enter_self {w : World} {state : OcppState} (h : w.base.fsm = state) : enter state w = w := by
  subst h
  rfl

theorem moves (env : Env) (w : World) : Moves env w ((machine env).move w.base.fsm w (transitions env)) := by
  cases hfsm : w.base.fsm with
  | booting =>
      rw [move_booting]
      split_ifs with hboot hun hav hprep
      · exact .boot hfsm
      · exact hfsm ▸ .unavailable (by simp [hfsm]) (fun _ => by simpa using hboot) (hfsm ▸ hun)
      · exact hfsm ▸ .available (by simp [hfsm]) (fun _ => by simpa using hboot) (hfsm ▸ hav)
      · exact hfsm ▸ .preparing (by simp [hfsm]) (fun _ => by simpa using hboot) (hfsm ▸ hprep)
      · exact .stay
  | available =>
      rw [move_available]
      split_ifs with hfault hun hprep hres
      · exact hfsm ▸ .faulted (by simp [hfsm]) (hfsm ▸ hfault)
      · exact hfsm ▸ .unavailable (by simp [hfsm]) (by simp [hfsm]) (hfsm ▸ hun)
      · exact hfsm ▸ .preparing (by simp [hfsm]) (by simp [hfsm]) (hfsm ▸ hprep)
      · exact .reserved hfsm hres
      · exact .stay
  | preparing =>
      simp only [move_preparing, isFinishing_preparing, Bool.false_eq_true, if_false]
      split_ifs with hfault hun hav hrdy hchg
      · exact hfsm ▸ .faulted (by simp [hfsm]) (hfsm ▸ hfault)
      · exact hfsm ▸ .unavailable (by simp [hfsm]) (by simp [hfsm]) (hfsm ▸ hun)
      · exact hfsm ▸ .available (by simp [hfsm]) (by simp [hfsm]) (hfsm ▸ hav)
      · exact .requestTid hfsm hrdy
      · exact .startCharging hfsm hchg
      · exact .stay
  | charging =>
      rw [move_charging]
      split_ifs with hsus hfin hchg
      · exact .suspend hfsm hsus
      · exact hfsm ▸ .finish (.inl hfsm) (hfsm ▸ hfin)
      · exact .keepCharging hfsm (by simpa using hsus) (by simpa using hfin) hchg
      · exact .stay
  | suspendedEV =>
      rw [move_suspendedEV]
      split_ifs with hchg hfin hsus
      · exact .resume hfsm hchg
      · exact hfsm ▸ .finish (.inr hfsm) (hfsm ▸ hfin)
      · exact .keepSuspended hfsm hsus
      · exact .stay
  | suspendedEVSE =>
      rw [move_suspendedEVSE]
      exact .stay
  | finishing =>
      rw [move_finishing]
      split_ifs with hfault hun hav hprep
      · exact hfsm ▸ .faulted (by simp [hfsm]) (hfsm ▸ hfault)
      · exact hfsm ▸ .unavailable (by simp [hfsm]) (by simp [hfsm]) (hfsm ▸ hun)
      · exact hfsm ▸ .available (by simp [hfsm]) (by simp [hfsm]) (hfsm ▸ hav)
      · exact hfsm ▸ .preparing (by simp [hfsm]) (by simp [hfsm]) (hfsm ▸ hprep)
      · exact .stay
  | reserved =>
      rw [move_reserved]
      split_ifs with hfault hun hav hprep
      · exact hfsm ▸ .faulted (by simp [hfsm]) (hfsm ▸ hfault)
      · exact hfsm ▸ .unavailable (by simp [hfsm]) (by simp [hfsm]) (hfsm ▸ hun)
      · exact hfsm ▸ .available (by simp [hfsm]) (by simp [hfsm]) (hfsm ▸ hav)
      · exact hfsm ▸ .preparing (by simp [hfsm]) (by simp [hfsm]) (hfsm ▸ hprep)
      · exact .stay
  | unavailable =>
      rw [move_unavailable, enter_self hfsm]
      split_ifs with hun hfault hav hprep
      · exact .stay
      · exact hfsm ▸ .faulted (by simp [hfsm]) (hfsm ▸ hfault)
      · exact hfsm ▸ .available (by simp [hfsm]) (by simp [hfsm]) (hfsm ▸ hav)
      · exact hfsm ▸ .preparing (by simp [hfsm]) (by simp [hfsm]) (hfsm ▸ hprep)
      · exact .stay
  | faulted =>
      rw [move_faulted, enter_self hfsm]
      split_ifs with hfault hun hav hprep
      · exact .stay
      · exact hfsm ▸ .unavailable (by simp [hfsm]) (by simp [hfsm]) (hfsm ▸ hun)
      · exact hfsm ▸ .available (by simp [hfsm]) (by simp [hfsm]) (hfsm ▸ hav)
      · exact hfsm ▸ .preparing (by simp [hfsm]) (by simp [hfsm]) (hfsm ▸ hprep)
      · exact .stay

/-- A step of `connector_process`, up to the events dispatched. -/
theorem process_moves (env : Env) (w : World) :
    ∃ w', Moves env (stampNow env w) w' ∧ core (process env w) = core w' :=
  ⟨_, moves env (stampNow env w), core_process env w⟩

end Evse.Ocpp
