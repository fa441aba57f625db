import Evse.Ocpp.Faults
import Evse.Ocpp.Power

/-!
# What the CSMS knows of a connector

A CSMS knows the state of a connector from the `StatusNotification.req`s alone. The machine tells each state once, when it enters it, with two exceptions. Preparing is not told after Finishing, so that the CSMS keeps showing a connector that was not unplugged since. And Charging is told only when the relay closes, in the step after the one that enters it.
-/

namespace Evse.Ocpp

open StepRun

/-- The states that the CSMS was told, oldest first. -/
def told (w : World) : List OcppState := (notices w).map (·.1)

/-- What the CSMS is told in a step from `w` to `w'`. -/
def announcedStates (w w' : World) : List OcppState :=
  if w'.base.fsm = w.base.fsm then
    if w.base.isSupplyingPower = false ∧ w'.base.isSupplyingPower = true then [w'.base.fsm] else []
  else if w'.base.fsm = .charging ∨ w.base.fsm = .finishing ∧ w'.base.fsm = .preparing then []
  else [w'.base.fsm]

/-! ### What the actions tell -/

section Actions

variable (env : Env) (state : OcppState) (w : World)

theorem told_of_requests {w w' : World} (h : w'.requests = w.requests) : told w' = told w := by
  rw [told, told, notices, notices, h]

theorem told_csmsRequest {payload : Payload} (h : payload.notice = none) : told (csmsRequest w payload) = told w := by
  simp [told, notices, csmsRequest, h]

theorem told_sendConnectorStatus (info : Option String) :
    told (sendConnectorStatus w info) = told w ++ [w.base.fsm] := by
  simp [told, notices, sendConnectorStatus, csmsRequest, doStatusnotification, Payload.notice]

theorem told_clearSession : told (clearSession w) = told w := told_of_requests rfl

theorem told_doMissingTransaction : told (doMissingTransaction env state w) = told w := by
  unfold doMissingTransaction
  split_ifs
  · rfl
  · rw [told_clearSession, told_csmsRequest _ rfl]
    exact told_of_requests rfl
  · rfl

theorem told_doUnavailable : told (doUnavailable env state w) = told w ++ [w.base.fsm] := by
  rw [doUnavailable, told_doMissingTransaction, told_clearSession, told_sendConnectorStatus]

theorem told_doAvailable : told (doAvailable env state w) = told w ++ [w.base.fsm] := by
  have hraise : ∀ event, told (raiseEvent env w event) = told w ∧ (raiseEvent env w event).base.fsm = w.base.fsm := by
    intro event
    rw [raiseEvent_eq]
    exact ⟨told_of_requests rfl, rfl⟩
  have hoccupied : ∀ w : World, told { w with base.occupied := false } = told w := fun w => told_of_requests rfl
  unfold doAvailable
  dsimp only
  rw [hoccupied, told_doMissingTransaction, told_clearSession, told_sendConnectorStatus]
  split_ifs
  · rw [(hraise _).1, (hraise _).2]
  · rfl

theorem told_doPreparing :
    told (doPreparing env state w) = told w ++ if state = .finishing then [] else [w.base.fsm] := by
  have hoccupied : ∀ w : World, told { w with base.occupied := true } = told w := fun w => told_of_requests rfl
  unfold doPreparing
  dsimp only
  rw [hoccupied, told_doMissingTransaction]
  by_cases hfinishing : state = .finishing
  · rw [if_neg (not_not.2 hfinishing), if_pos hfinishing, List.append_nil]
  · rw [if_pos hfinishing, if_neg hfinishing, told_sendConnectorStatus]

theorem told_doFaulted : told (doFaulted env state w) = told w ++ [w.base.fsm] := by
  rw [doFaulted, told_clearSession, told_sendConnectorStatus]

theorem told_doReserved : told (doReserved state w) = told w ++ [w.base.fsm] := told_sendConnectorStatus w none

theorem told_doRequestTid : told (doRequestTid env state w) = told w := by
  unfold doRequestTid
  rw [setSessionCurrentExpiry_eq]
  exact (told_of_requests rfl).trans (told_csmsRequest (readStartEnergy env w) rfl)

theorem told_sendMetering : told (sendMetering env w) = told w := by
  have hvalues : ∀ w updated measurands, told (sendMeterValues w updated measurands) = told w := by
    intro w updated measurands
    cases updated with
    | none => rfl
    | some v =>
        simp only [sendMeterValues]
        split
        · exact told_csmsRequest { w with session.metering := v } rfl
        · exact told_of_requests rfl
  rw [sendMetering, hvalues, hvalues]

theorem told_doCharging_charging :
    told (doCharging env .charging w) = told w ++ if w.base.isSupplyingPower then [] else [w.base.fsm] := by
  unfold doCharging
  rw [if_pos rfl]
  dsimp only
  rw [told_sendMetering]
  split
  · rw [List.append_nil]
  · rw [told_sendConnectorStatus]
    rfl

theorem told_doCharging_of_ne (h : state ≠ .charging) : told (doCharging env state w) = told w := by
  unfold doCharging
  rw [if_neg h]
  split
  · exact told_of_requests rfl
  · exact told_sendMetering env w

theorem told_doSuspendedEV : told (doSuspendedEV state w) = told w ++ [w.base.fsm] := by
  unfold doSuspendedEV
  dsimp only
  rw [told_sendConnectorStatus]
  split <;> rfl

theorem told_doFinishing : told (doFinishing env state w) = told w ++ [w.base.fsm] := by
  have hduty : ∀ w : World, told { w with base := w.base.stopDuty } = told w := fun w => told_of_requests rfl
  have hstop : ∀ w : World, told (readStopEnergy env w) = told w := fun w => told_of_requests rfl
  unfold doFinishing
  dsimp only
  rw [told_clearSession, told_sendConnectorStatus, hduty]
  split_ifs
  · rw [told_csmsRequest _ rfl, hstop]
    rfl
  · rw [told_csmsRequest _ rfl, hstop]
    rfl
  · rfl

end Actions

/-! ### What a step tells -/

section Steps

variable {w w' : World}

theorem isSupplyingPower_doCharging_charging (env : Env) (w : World) :
    (doCharging env .charging w).base.isSupplyingPower = true := by
  have hview := congrArg (fun v => v.2.isSupplyingPower) (view_doCharging_charging env w)
  exact hview

/-- The step from one world to the other tells the CSMS what it has to. -/
def Tells (w w' : World) : Prop := told w' = told w ++ announcedStates w w'

/-- A row that enters another state than Charging, and Preparing not from Finishing, and tells it first thing. -/
theorem Tells.enter {state : OcppState} (htold : told w' = told (enter state w) ++ [state])
    (hfsm : w'.base.fsm = state) (hne : w.base.fsm ≠ state) (hcharging : state ≠ .charging)
    (hfinishing : ¬ (w.base.fsm = .finishing ∧ state = .preparing)) : Tells w w' := by
  rw [Tells, announcedStates, if_neg (hfsm ▸ hne.symm),
    if_neg (not_or.mpr ⟨hfsm ▸ hcharging, hfsm ▸ hfinishing⟩), hfsm]
  exact htold

/-- A row that stays where it is and does not close the relay. -/
theorem announcedStates_stay (hfsm : w'.base.fsm = w.base.fsm)
    (hrelay : w'.base.isSupplyingPower = true → w.base.isSupplyingPower = true) : announcedStates w w' = [] := by
  rw [announcedStates, if_pos hfsm, if_neg]
  rintro ⟨hoff, hon⟩
  exact absurd (hoff.symm.trans (hrelay hon)) (by decide)

theorem Tells.stay (htold : told w' = told w) (hfsm : w'.base.fsm = w.base.fsm)
    (hrelay : w'.base.isSupplyingPower = true → w.base.isSupplyingPower = true) : Tells w w' := by
  rw [Tells, announcedStates_stay hfsm hrelay, List.append_nil]
  exact htold

theorem tells_self (w : World) : Tells w w := Tells.stay rfl rfl id

section Rows

variable (env : Env) (state : OcppState)

theorem tells_doFaulted (hne : w.base.fsm ≠ .faulted) : Tells w (doFaulted env state (enter .faulted w)) :=
  Tells.enter (told_doFaulted env state _) rfl hne (by decide) (by simp)

theorem tells_doUnavailable (hne : w.base.fsm ≠ .unavailable) :
    Tells w (doUnavailable env state (enter .unavailable w)) := by
  have hfsm : (doUnavailable env state (enter .unavailable w)).base.fsm = .unavailable := by rw [doUnavailable_base]; rfl
  exact Tells.enter (told_doUnavailable env state _) hfsm hne (by decide) (by simp)

theorem tells_doAvailable (hne : w.base.fsm ≠ .available) : Tells w (doAvailable env state (enter .available w)) := by
  have hfsm : (doAvailable env state (enter .available w)).base.fsm = .available := by rw [doAvailable_base]; rfl
  exact Tells.enter (told_doAvailable env state _) hfsm hne (by decide) (by simp)

/-- From Finishing it is entered without a word. -/
theorem tells_doPreparing {state : OcppState} (hstate : w.base.fsm = state) (hne : w.base.fsm ≠ .preparing) :
    Tells w (doPreparing env state (enter .preparing w)) := by
  have htold := told_doPreparing env state (enter .preparing w)
  have hfsm : (doPreparing env state (enter .preparing w)).base.fsm = .preparing := by rw [doPreparing_base]; rfl
  by_cases hfinishing : state = .finishing
  · rw [if_pos hfinishing, List.append_nil] at htold
    rw [Tells, announcedStates, if_neg fun hsame => hne (hsame.symm.trans hfsm),
      if_pos (.inr ⟨hstate.trans hfinishing, hfsm⟩), List.append_nil]
    exact htold
  · rw [if_neg hfinishing] at htold
    exact Tells.enter htold hfsm hne (by decide) fun h => hfinishing (hstate.symm.trans h.1)

theorem tells_doFinishing (hne : w.base.fsm ≠ .finishing) : Tells w (doFinishing env state (enter .finishing w)) :=
  Tells.enter (told_doFinishing env state _) (doFinishing_fsm env state _) hne (by decide) (by simp)

/-- A row into Charging. -/
theorem tells_doCharging {state : OcppState} (hne : w.base.fsm ≠ .charging) (hstate : state ≠ .charging) :
    Tells w (doCharging env state (enter .charging w)) := by
  have hfsm : (doCharging env state (enter .charging w)).base.fsm = .charging := doCharging_fsm env state _
  rw [Tells, announcedStates, if_neg fun hsame => hne (hsame.symm.trans hfsm), if_pos (.inl hfsm), List.append_nil]
  exact told_doCharging_of_ne env state _ hstate

/-- The row that stays in Charging tells it when it closes the relay. -/
theorem tells_doCharging_charging (hstate : w.base.fsm = .charging) :
    Tells w (doCharging env .charging (enter .charging w)) := by
  have hsame : (doCharging env .charging (enter .charging w)).base.fsm = w.base.fsm :=
    (doCharging_fsm env _ _).trans hstate.symm
  have hon := isSupplyingPower_doCharging_charging env (enter .charging w)
  have hrelay : (enter .charging w).base.isSupplyingPower = w.base.isSupplyingPower := rfl
  have htold : told (enter .charging w) = told w := told_of_requests rfl
  rw [Tells, told_doCharging_charging, announcedStates, if_pos hsame, hon, hsame, hstate, hrelay, htold]
  cases w.base.isSupplyingPower <;> rfl

theorem tells_doCharging_suspendedEV (hstate : w.base.fsm = .suspendedEV) :
    Tells w (doCharging env .suspendedEV (enter .suspendedEV w)) := by
  have hbase := doCharging_suspendedEV_base env (enter .suspendedEV w)
  have htold := told_doCharging_of_ne env .suspendedEV (enter .suspendedEV w) (by decide)
  exact Tells.stay htold (by rw [hbase, hstate]; rfl) (by rw [hbase]; exact id)

theorem tells_doRequestTid (hstate : w.base.fsm = .preparing) :
    Tells w (doRequestTid env .preparing (enter .preparing w)) := by
  have hbase := doRequestTid_base env .preparing (enter .preparing w)
  have htold := told_doRequestTid env .preparing (enter .preparing w)
  exact Tells.stay htold (by rw [hbase, hstate]; rfl) (by rw [hbase]; exact id)

end Rows

theorem announced_move (env : Env) (w : World) :
    Tells w ((machine env).move w.base.fsm w (transitions env)) := by
  cases hfsm : w.base.fsm with
  | booting =>
      rw [move_booting]
      split_ifs
      · exact Tells.stay (told_of_requests rfl) hfsm.symm (by simp [Connector.isSupplyingPower])
      · exact tells_doUnavailable env _ (by simp [hfsm])
      · exact tells_doAvailable env _ (by simp [hfsm])
      · exact tells_doPreparing env hfsm (by simp [hfsm])
      · exact tells_self w
  | available =>
      rw [move_available]
      split_ifs
      · exact tells_doFaulted env _ (by simp [hfsm])
      · exact tells_doUnavailable env _ (by simp [hfsm])
      · exact tells_doPreparing env hfsm (by simp [hfsm])
      · exact Tells.enter (told_doReserved _ _) rfl (by simp [hfsm]) (by decide) (by simp)
      · exact tells_self w
  | preparing =>
      rw [move_preparing]
      split_ifs
      · exact tells_doFaulted env _ (by simp [hfsm])
      · exact tells_doUnavailable env _ (by simp [hfsm])
      · exact tells_doAvailable env _ (by simp [hfsm])
      · exact tells_doRequestTid env hfsm
      · exact tells_doCharging env (by simp [hfsm]) (by decide)
      · exact tells_doFinishing env _ (by simp [hfsm])
      · exact tells_self w
  | charging =>
      rw [move_charging]
      split_ifs
      · exact Tells.enter (told_doSuspendedEV _ _) (doSuspendedEV_fsm _ _) (by simp [hfsm]) (by decide) (by simp)
      · exact tells_doFinishing env _ (by simp [hfsm])
      · exact tells_doCharging_charging env hfsm
      · exact tells_self w
  | suspendedEV =>
      rw [move_suspendedEV]
      split_ifs
      · exact tells_doCharging env (by simp [hfsm]) (by decide)
      · exact tells_doFinishing env _ (by simp [hfsm])
      · exact tells_doCharging_suspendedEV env hfsm
      · exact tells_self w
  | suspendedEVSE =>
      rw [move_suspendedEVSE]
      exact tells_self w
  | finishing =>
      rw [move_finishing]
      split_ifs
      · exact tells_doFaulted env _ (by simp [hfsm])
      · exact tells_doUnavailable env _ (by simp [hfsm])
      · exact tells_doAvailable env _ (by simp [hfsm])
      · exact tells_doPreparing env hfsm (by simp [hfsm])
      · exact tells_self w
  | reserved =>
      rw [move_reserved]
      split_ifs
      · exact tells_doFaulted env _ (by simp [hfsm])
      · exact tells_doUnavailable env _ (by simp [hfsm])
      · exact tells_doAvailable env _ (by simp [hfsm])
      · exact tells_doPreparing env hfsm (by simp [hfsm])
      · exact tells_self w
  | unavailable =>
      rw [move_unavailable, enter_self hfsm]
      split_ifs
      · exact tells_self w
      · exact tells_doFaulted env _ (by simp [hfsm])
      · exact tells_doAvailable env _ (by simp [hfsm])
      · exact tells_doPreparing env hfsm (by simp [hfsm])
      · exact tells_self w
  | faulted =>
      rw [move_faulted, enter_self hfsm]
      split_ifs
      · exact tells_self w
      · exact tells_doUnavailable env _ (by simp [hfsm])
      · exact tells_doAvailable env _ (by simp [hfsm])
      · exact tells_doPreparing env hfsm (by simp [hfsm])
      · exact tells_self w

/-- What the relay and the machine do in an event that is not a step of the machine. -/
theorem base_of_not_process {e : Event} (h : ∀ env, e ≠ .process env) :
    (step w e).base.fsm = w.base.fsm ∧
      ((step w e).base.isSupplyingPower = true → w.base.isSupplyingPower = true) := by
  cases hown : e.ofConnector with
  | false =>
      rw [step_base hown]
      exact ⟨rfl, id⟩
  | true =>
      cases e with
      | process env => exact absurd rfl (h env)
      | enable env => simp [step, Connector.isSupplyingPower]
      | disable => exact ⟨rfl, id⟩
      | setReserved reserved => exact ⟨rfl, id⟩
      | _ => simp [Event.ofConnector] at hown

theorem announced_process (env : Env) (w : World) :
    told (process env w) = told w ++ announcedStates w (process env w) := by
  have hmove := announced_move env (stampNow env w)
  have hseen := process_eq_move (f := fun v => (told v, v.base.fsm, v.base.isSupplyingPower)) (fun _ => rfl) env w
  simp only [Prod.mk.injEq] at hseen
  obtain ⟨htold, hfsm, hrelay⟩ := hseen
  have hsame : announcedStates w (process env w) =
      announcedStates (stampNow env w) ((machine env).move w.base.fsm (stampNow env w) (transitions env)) := by
    simp only [announcedStates, hfsm, hrelay]
    rfl
  rw [htold, hsame]
  exact hmove

theorem announced_step (w : World) (e : Event) : told (step w e) = told w ++ announcedStates w (step w e) := by
  by_cases hprocess : ∃ env, e = .process env
  · obtain ⟨env, rfl⟩ := hprocess
    rw [step]
    split
    · exact announced_process env w
    · rw [announcedStates_stay rfl id, List.append_nil]
  · have hother : ∀ env, e ≠ .process env := fun env he => hprocess ⟨env, he⟩
    obtain ⟨hfsm, hrelay⟩ := base_of_not_process (w := w) hother
    rw [announcedStates_stay hfsm hrelay, List.append_nil, told, told, step_notices hother]

/-- Where Booting and Charging are entered from, and how. -/
theorem enters_step (h : PowerInv (view w)) (e : Event) :
    ((step w e).base.fsm = .booting → w.base.fsm = .booting) ∧
      ((step w e).base.fsm = .charging → w.base.fsm ≠ .charging →
        (w.base.fsm = .preparing ∨ w.base.fsm = .suspendedEV) ∧ (step w e).base.isSupplyingPower = false) := by
  by_cases hprocess : ∃ env, e = .process env
  · obtain ⟨env, rfl⟩ := hprocess
    rw [step]
    split
    · obtain ⟨w', hmove, hcore⟩ := process_moves env w
      have hview := view_of_core hcore
      have hfsm : (process env w).base.fsm = w'.base.fsm := congrArg Prod.fst hview
      rw [hfsm]
      constructor
      · intro hbooting
        cases hmove with
        | stay => exact hbooting
        | boot hfrom => exact hfrom
        | _ => simp at hbooting
      · intro hcharging hne
        have hoff := off_of_moves (show PowerInv (view (stampNow env w)) from h) hne hmove
        refine ⟨?_, (congrArg (fun v => v.2.isSupplyingPower) hview).trans hoff⟩
        cases hmove with
        | stay => exact absurd hcharging hne
        | startCharging hpreparing => exact .inl hpreparing
        | resume hsuspended => exact .inr hsuspended
        | keepCharging hfrom => exact absurd hfrom hne
        | _ => simp at hcharging
    · exact ⟨id, fun hcharging hne => absurd hcharging hne⟩
  · have hother : ∀ env, e ≠ .process env := fun env he => hprocess ⟨env, he⟩
    rw [(base_of_not_process hother).1]
    exact ⟨id, fun hcharging hne => absurd hcharging hne⟩

end Steps

/-! ### What is shown -/

/-- What the CSMS takes the connector to be in, by the state it is in. -/
structure Shown (w : World) : Prop where
  booting : w.base.fsm = .booting → told w = []
  preparing : w.base.fsm = .preparing → (told w).getLast? = some .preparing ∨ (told w).getLast? = some .finishing
  supplying : w.base.isSupplyingPower = true → (told w).getLast? = some .charging
  charging : w.base.fsm = .charging → ∃ state, (told w).getLast? = some state ∧
    (state = .charging ∨ state = .preparing ∨ state = .finishing ∨ state = .suspendedEV)
  others : w.base.fsm ≠ .booting → w.base.fsm ≠ .preparing → w.base.fsm ≠ .charging →
    (told w).getLast? = some w.base.fsm

theorem Shown.of_last {w : World} (hlast : (told w).getLast? = some w.base.fsm) (hbooting : w.base.fsm ≠ .booting)
    (hpower : w.base.isSupplyingPower = true → w.base.fsm = .charging) : Shown w where
  booting := fun h => absurd h hbooting
  preparing := fun h => .inl (h ▸ hlast)
  supplying := fun hon => hpower hon ▸ hlast
  charging := fun h => ⟨.charging, h ▸ hlast, .inl rfl⟩
  others := fun _ _ _ => hlast

theorem shown_step {w : World} (h : PowerInv (view w)) (hshown : Shown w) (e : Event) : Shown (step w e) := by
  have htold := announced_step w e
  have hpower := (powerInv_step w e h).charging_of_supplying
  obtain ⟨hbooting, hcharging⟩ := enters_step h e
  generalize step w e = w' at htold hpower hbooting hcharging
  have hlast : told w' = told w ++ [w'.base.fsm] → (told w').getLast? = some w'.base.fsm := by
    intro heq
    rw [heq, List.getLast?_append, List.getLast?_singleton, Option.some_or]
  by_cases hfsm : w'.base.fsm = w.base.fsm
  · rw [announcedStates, if_pos hfsm] at htold
    split at htold
    · rename_i hcloses
      refine .of_last (hlast htold) (fun hboots => ?_) hpower
      exact absurd (hboots.symm.trans (hpower hcloses.2)) (by decide)
    · rename_i hnot
      have hrelay : w'.base.isSupplyingPower = true → w.base.isSupplyingPower = true := by
        intro hon
        by_contra hoff
        exact hnot ⟨Bool.eq_false_iff.mpr hoff, hon⟩
      rw [List.append_nil] at htold
      constructor
      · rw [htold, hfsm]
        exact hshown.booting
      · rw [htold, hfsm]
        exact hshown.preparing
      · rw [htold]
        exact fun hon => hshown.supplying (hrelay hon)
      · rw [htold, hfsm]
        exact hshown.charging
      · rw [htold, hfsm]
        exact hshown.others
  · rw [announcedStates, if_neg hfsm] at htold
    split at htold
    · rename_i huntold
      rw [List.append_nil] at htold
      rcases huntold with hcharges | ⟨hfinishing, hprepares⟩
      · obtain ⟨hfrom, hoff⟩ := hcharging hcharges fun heq => hfsm (hcharges.trans heq.symm)
        refine ⟨?_, ?_, fun hon => absurd (hoff.symm.trans hon) (by decide), fun _ => ?_, fun _ _ hne => absurd hcharges hne⟩
        · exact fun hboots => absurd (hboots.symm.trans hcharges) (by decide)
        · exact fun hprepares => absurd (hprepares.symm.trans hcharges) (by decide)
        · rw [htold]
          rcases hfrom with hpreparing | hsuspended
          · rcases hshown.preparing hpreparing with hlast | hlast
            · exact ⟨_, hlast, .inr (.inl rfl)⟩
            · exact ⟨_, hlast, .inr (.inr (.inl rfl))⟩
          · have hlast := hshown.others (by simp [hsuspended]) (by simp [hsuspended]) (by simp [hsuspended])
            exact ⟨_, hlast, .inr (.inr (.inr hsuspended))⟩
      · have hlast := hshown.others (by simp [hfinishing]) (by simp [hfinishing]) (by simp [hfinishing])
        rw [hfinishing, ← htold] at hlast
        refine ⟨?_, fun _ => .inr hlast, fun hon => ?_, ?_, fun _ hne => absurd hprepares hne⟩
        · exact fun hboots => absurd (hboots.symm.trans hprepares) (by decide)
        · exact absurd (hprepares.symm.trans (hpower hon)) (by decide)
        · exact fun hcharges => absurd (hcharges.symm.trans hprepares) (by decide)
    · refine .of_last (hlast htold) (fun hboots => ?_) hpower
      exact hfsm (hboots.trans (hbooting hboots).symm)

theorem shown_start (boot : Boot) : Shown boot.start := by
  have hfsm : boot.start.base.fsm = .booting := rfl
  refine ⟨fun _ => rfl, ?_, fun hon => absurd (show false = true from hon) Bool.false_ne_true, ?_, ?_⟩
  · exact fun hprepares => absurd (hfsm.symm.trans hprepares) (by decide)
  · exact fun hcharges => absurd (hfsm.symm.trans hcharges) (by decide)
  · exact fun hne => absurd hfsm hne

end Evse.Ocpp
