import Evse.Ocpp.Power
import Evse.Ocpp.Recovery

/-!
# Before the boot notification is accepted

A connector does not know of the boot notification. It knows only the flag that the message about its acceptance sets, and the rows out of Booting wait for that flag. So until then nothing happens, whatever cables are plugged in and whatever cards are presented: there is no power, no transaction, and the only thing that a connector asks the CSMS is whether a card is authorized. What the charger sends for itself, its BootNotification first of all, is not among these requests.
-/

namespace Evse.Ocpp

open StepRun

/-- The flag, what the CSMS was asked besides authorizations, and the transactions it has started. -/
def spoken (w : World) : Bool × List Payload × List (Request × Int) :=
  (w.csmsUp, w.requests.filter fun payload => !payload.isAuthorize, w.started)

/-! ### The calls -/

section Calls

variable (env : Env) (w : World)

theorem spoken_authorize (id : IdToken) : spoken (csmsRequest w (.authorize id)) = spoken w := by
  have hfilter : (w.requests ++ [Payload.authorize id]).filter (fun payload => !payload.isAuthorize) =
      w.requests.filter fun payload => !payload.isAuthorize := by
    rw [List.filter_append]
    exact List.append_nil _
  exact congrArg (fun asked => (w.csmsUp, asked, w.started)) hfilter

theorem spoken_occupy : spoken (occupy env w) = spoken w := by
  rw [occupy_eq]
  rfl

theorem spoken_release (remote : Bool) : spoken (release env w remote) = spoken w := by
  simp only [release]
  split_ifs <;> rfl

theorem spoken_dispatchAuthResult (result : SessionResult) : spoken (dispatchAuthResult env w result) = spoken w := by
  have hdelivers := delivers env w result
  generalize dispatchAuthResult env w result = w' at hdelivers
  cases hdelivers with
  | unregistered => rfl
  | ignored => rfl
  | occupied => exact spoken_occupy env w
  | released => exact spoken_release env w false

theorem spoken_timedOut : spoken (releasePendingRequestIfTimedout env w) = spoken w :=
  releasePendingRequestIfTimedout_frame (f := spoken) env w fun _ => rfl

theorem spoken_tryOccupy (id : IdToken) (remote : Bool) :
    spoken (tryOccupy env w id remote (occupyCb remote)).1 = spoken w := by
  rw [← spoken_timedOut env w]
  have hoccupies := occupies env w id remote (occupyCb_ne_release remote)
  generalize (tryOccupy env w id remote (occupyCb remote)).1 = w' at hoccupies
  generalize releasePendingRequestIfTimedout env w = w₁ at hoccupies
  cases hoccupies with
  | refused => rfl
  | granted => rfl
  | denied => rfl
  | asked => exact spoken_authorize (onTrial env w₁ id (occupyCb remote)) id
  | preAuthorized => exact spoken_authorize (setAuthResultCb (granted env w₁ id) (occupyCb remote) id) .empty

theorem spoken_tryRelease (id : IdToken) : spoken (tryRelease env w id .onReleaseResult).1 = spoken w := by
  rw [← spoken_timedOut env w]
  have hreleases := releases env w id
  generalize (tryRelease env w id .onReleaseResult).1 = w' at hreleases
  generalize releasePendingRequestIfTimedout env w = w₁ at hreleases
  cases hreleases with
  | refused => rfl
  | released => exact spoken_release env (onTrial env w₁ id .onReleaseResult) false
  | asked => exact spoken_authorize (onTrial env w₁ id .onReleaseResult) id

theorem spoken_doAuth (info : IdTagInfo) : spoken (doAuth env w info) = spoken w := by
  refine (spoken_dispatchAuthResult env _ _).trans ?_
  simp only [recordAuthorization]
  split_ifs <;> rfl

theorem spoken_mqSend (msg : ChargerMsg) : spoken (mqSend env w msg) = spoken w := by
  unfold mqSend
  split <;> rfl

end Calls

/-! ### The invariant -/

/-- A connector that the CSMS has not accepted yet. -/
structure Unregistered (w : World) : Prop where
  fsm : w.base.fsm = .booting
  spoken : spoken w = (false, [], [])
  unannounced : ChargerMsg.csmsUp ∉ w.msgq
  quiet : Quiet w

section Unregistered

variable {w w' : World}

theorem Unregistered.of_eq (h : Unregistered w) (hfsm : w'.base.fsm = w.base.fsm) (hspoken : Ocpp.spoken w' = Ocpp.spoken w)
    (hmsgq : w'.msgq = w.msgq) (houtstanding : w'.outstanding = w.outstanding) : Unregistered w' :=
  ⟨hfsm.trans h.fsm, hspoken.trans h.spoken, hmsgq ▸ h.unannounced, h.quiet.of_eq houtstanding hmsgq⟩

theorem Unregistered.of_core (h : Unregistered w) (hcore : core w' = core w) : Unregistered w' := by
  have hfsm : (core w').base.fsm = (core w).base.fsm := congrArg (fun w => w.base.fsm) hcore
  have hspoken : Ocpp.spoken (core w') = Ocpp.spoken (core w) := congrArg Ocpp.spoken hcore
  have hmsgq : (core w').msgq = (core w).msgq := congrArg World.msgq hcore
  have houtstanding : (core w').outstanding = (core w).outstanding := congrArg World.outstanding hcore
  exact h.of_eq hfsm hspoken hmsgq houtstanding

/-- Without the flag there is no row out of Booting. -/
theorem Unregistered.moves (h : Unregistered w) {env : Env} (hmove : Moves env w w') : Unregistered w' := by
  have hdown : w.csmsUp = false := congrArg Prod.fst h.spoken
  cases hmove with
  | stay => exact h
  | boot => exact h.of_eq h.fsm.symm rfl rfl rfl
  | unavailable _ _ hguard => simp [isUnavailable, hdown] at hguard
  | available _ _ hguard => simp [isAvailable, hdown] at hguard
  | preparing _ _ hguard => simp [isPreparing, hdown] at hguard
  | faulted hidle => exact absurd h.fsm hidle.2.2
  | reserved hother | requestTid hother | startCharging hother | suspend hother | keepCharging hother | resume hother
    | keepSuspended hother => exact absurd (h.fsm.symm.trans hother) (by decide)
  | finish hother => rcases hother with hother | hother <;> exact absurd (h.fsm.symm.trans hother) (by decide)

theorem Unregistered.process (h : Unregistered w) (env : Env) : Unregistered (process env w) := by
  obtain ⟨w', hmove, hcore⟩ := process_moves env w
  have hstamped : Unregistered (stampNow env w) := h.of_eq rfl rfl rfl rfl
  exact (hstamped.moves hmove).of_core hcore

/-- The other events, by what they leave of the flag, the requests and the queue. -/
theorem Unregistered.of_spoken (h : Unregistered w) {e : Event} (he : ∀ env, e ≠ .process env)
    (hspoken : Ocpp.spoken (step w e) = Ocpp.spoken w)
    (hmsgq : ChargerMsg.csmsUp ∈ (step w e).msgq → ChargerMsg.csmsUp ∈ w.msgq) :
    Unregistered (step w e) :=
  ⟨(step_fsm_of_not_process w he).trans h.fsm, hspoken.trans h.spoken, fun hmem => h.unannounced (hmsgq hmem),
    h.quiet.step he⟩

theorem csmsUp_mem_mqSend {env : Env} {msg : ChargerMsg} (hmsg : msg ≠ .csmsUp)
    (h : ChargerMsg.csmsUp ∈ (mqSend env w msg).msgq) : ChargerMsg.csmsUp ∈ w.msgq := by
  unfold mqSend at h
  split at h
  · rcases List.mem_append.mp h with hold | hnew
    · exact hold
    · exact absurd (List.mem_singleton.mp hnew).symm hmsg
  · exact h

/-- An answer can only be one to the question whether a card is authorized. -/
theorem Unregistered.receive (h : Unregistered w) (env : Env) (request : Nat) (response : Response) :
    Ocpp.spoken (receive env w request response) = Ocpp.spoken w ∧ (receive env w request response).msgq = w.msgq := by
  unfold Ocpp.receive
  cases hmsg : getMessageById w request with
  | none => exact ⟨rfl, rfl⟩
  | some req =>
      have hauthorize := h.quiet.asked req (List.mem_of_find?_eq_some hmsg)
      simp only [handlerProcess]
      cases hpayload : req.payload with
      | authorize idTag =>
          cases response with
          | authorize info => exact ⟨spoken_doAuth env _ info, (authFrame_doAuth env _ info).msgq⟩
          | _ => exact ⟨rfl, rfl⟩
      | _ =>
          rw [hpayload] at hauthorize
          cases hauthorize

theorem Unregistered.mqRecv (h : Unregistered w) (env : Env) :
    Ocpp.spoken (mqRecv env w) = Ocpp.spoken w ∧
      (ChargerMsg.csmsUp ∈ (mqRecv env w).msgq → ChargerMsg.csmsUp ∈ w.msgq) := by
  have hunannounced := h.unannounced
  have hqueued := h.quiet.queued
  unfold Ocpp.mqRecv
  cases hmsgq : w.msgq with
  | nil => exact ⟨rfl, fun hmem => hmsgq ▸ hmem⟩
  | cons msg msgs =>
      rw [hmsgq] at hunannounced hqueued
      have hbilling := hqueued msg List.mem_cons_self
      cases msg with
      | csmsUp => exact absurd List.mem_cons_self hunannounced
      | billingStarted => cases hbilling
      | billingEnded => cases hbilling
      | _ => exact ⟨rfl, fun hmem => List.mem_cons_of_mem _ hmem⟩

theorem Unregistered.step (h : Unregistered w) {e : Event} (he : ∀ env, e ≠ .bootAccepted env) :
    Unregistered (step w e) := by
  cases e with
  | process env =>
      show Unregistered (if w.base.enabled then Ocpp.process env w else w)
      split
      · exact h.process env
      · exact h
  | enable env => exact h.of_spoken (by simp) rfl id
  | disable => exact h.of_spoken (by simp) rfl id
  | setReserved reserved => exact h.of_spoken (by simp) rfl id
  | tryOccupy env id remote =>
      refine h.of_spoken (by simp) (spoken_tryOccupy env w id remote) fun hmem => ?_
      exact (authFrame_tryOccupy env w id remote (occupyCb remote)).msgq ▸ hmem
  | tryRelease env id =>
      refine h.of_spoken (by simp) (spoken_tryRelease env w id) fun hmem => ?_
      exact (authFrame_tryRelease env w id .onReleaseResult).msgq ▸ hmem
  | occupy env =>
      exact h.of_spoken (by simp) (spoken_occupy env w) fun hmem => (authFrame_occupy env w).msgq ▸ hmem
  | release env remote =>
      exact h.of_spoken (by simp) (spoken_release env w remote) fun hmem => (authFrame_release env w remote).msgq ▸ hmem
  | receive env request response =>
      obtain ⟨hspoken, hmsgq⟩ := h.receive env request response
      exact h.of_spoken (by simp) hspoken fun hmem => hmsgq ▸ hmem
  | drop request => exact h.of_spoken (by simp) rfl id
  | mqRecv env =>
      obtain ⟨hspoken, hmsgq⟩ := h.mqRecv env
      exact h.of_spoken (by simp) hspoken hmsgq
  | bootAccepted env => exact absurd rfl (he env)
  | changeAvailability env available =>
      exact h.of_spoken (by simp) (spoken_mqSend env _ _) (csmsUp_mem_mqSend (by simp))
  | changeConfiguration env => exact h.of_spoken (by simp) (spoken_mqSend env _ _) (csmsUp_mem_mqSend (by simp))
  | clearCache => exact h.of_spoken (by simp) rfl id
  | reset env forced => exact h.of_spoken (by simp) (spoken_mqSend env _ _) (csmsUp_mem_mqSend (by simp))

theorem unregistered_start (boot : Boot) : Unregistered boot.start where
  fsm := rfl
  spoken := rfl
  unannounced := List.not_mem_nil
  quiet := quiet_create _ _ _ _ _

end Unregistered

/-- In every order of events, as long as the CSMS has not accepted the boot notification: the connector stays in Booting with its relay open, no transaction is started, and the connector itself asks the CSMS for nothing but authorizations. -/
theorem idle_before_registration (boot : Boot) (evs : List Event) (hnone : ∀ e ∈ evs, ∀ env, e ≠ .bootAccepted env) :
    EveryState step
      (fun w => w.base.fsm = .booting ∧ w.base.isSupplyingPower = false ∧ w.started = [] ∧
        ∀ payload ∈ w.requests, payload.isAuthorize = true) boot.start evs := by
  refine everyState_of_conditional_invariant (I := fun w => Unregistered w ∧ PowerInv (view w))
    (C := fun _ e => ∀ env, e ≠ .bootAccepted env) (fun w e h he => ⟨h.1.step he, powerInv_step w e h.2⟩) ?_
    ⟨unregistered_start boot, powerInv_start boot⟩ (everyStep_of_forall_mem _ hnone)
  intro w ⟨hunregistered, hpower⟩
  have hspoken := hunregistered.spoken
  simp only [spoken, Prod.mk.injEq] at hspoken
  obtain ⟨-, hasked, hstarted⟩ := hspoken
  refine ⟨hunregistered.fsm, hpower.off (by simp [hunregistered.fsm]), hstarted, fun payload hmem => ?_⟩
  by_contra hother
  have hfound : payload ∈ w.requests.filter fun payload => !payload.isAuthorize :=
    List.mem_filter.mpr ⟨hmem, by simpa using hother⟩
  rw [hasked] at hfound
  exact absurd hfound List.not_mem_nil

/-- A card is presented and a car plugged in at a charger that is connected and not accepted yet. -/
theorem card_before_registration :
    (run step freshBoot.start [.enable {}, .tryOccupy {} cardA false, .process { pilot := ⟨.b, 100⟩ }]).requests =
        [.authorize cardA] ∧
      (run step freshBoot.start [.enable {}, .tryOccupy {} cardA false, .process { pilot := ⟨.b, 100⟩ }]).base.fsm =
        .booting := by
  refine ⟨by decide, ?_⟩
  have hidle := idle_before_registration freshBoot
    [.enable {}, .tryOccupy {} cardA false, .process { pilot := ⟨.b, 100⟩ }] (by simp)
  exact hidle.last.1

end Evse.Ocpp
