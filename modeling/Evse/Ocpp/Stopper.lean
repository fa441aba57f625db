import Evse.Ocpp.Identity

/-!
# Who stopped the transaction

`StopTransaction.req` names the id in the trial slot where there is one and the session's own id otherwise. The trial slot is filled when a card is presented, before it is known whether the card may release the connector, and a stop can come for a reason of its own while the card is still on trial. To say whose session it was, and who was found entitled to end it, the run is watched: beside the world stands what the world itself forgets.
-/

namespace Evse.Ocpp

open StepRun

/-- A connector together with the uid its charging session belongs to and the ids that `on_release_result` has released that session for. -/
structure Watched where
  world : World
  owner : IdToken
  entitled : List IdToken

namespace Watched

/-- Outside a session the owner is whoever occupies the connector; the state in which charging starts fixes it. -/
def step (m : Watched) (e : Event) : Watched :=
  let w := Ocpp.step m.world e
  { world := w
    owner := if inSession m.world.base.fsm then m.owner else w.session.current.uid
    entitled :=
      (if inSession m.world.base.fsm then m.entitled else []) ++ appended m.world.releases w.releases }

def start (boot : Boot) : Watched := ⟨boot.start, .empty, []⟩

/-- The id owned the session or was accepted as entitled to release it. -/
def MayStop (m : Watched) (id : IdToken) : Prop := id = m.owner ∨ id ∈ m.entitled

end Watched

/-- The idTag of a `StopTransaction.req`. -/
def Payload.stopper : Payload → Option IdToken
  | .stopTransaction idTag .. => some idTag
  | _ => none

/-- Leaving the charging states sends no `StopTransaction.req` for an id that may not stop the session. -/
def StopsAsEntitled (m : Watched) (e : Event) : Prop :=
  isExit m.world e = true →
    ∀ payload ∈ appended m.world.requests (step m.world e).requests, ∀ id ∈ payload.stopper, m.MayStop id

/-- The guards under which the machine leaves the charging states. -/
def leavesSession (w : World) : Event → Bool
  | .process env =>
      w.base.enabled &&
        (w.base.fsm = .charging && !isSuspendedEV env .charging (stampNow env w) &&
            isFinishing env .charging (stampNow env w) ||
          w.base.fsm = .suspendedEV && !isCharging env .suspendedEV (stampNow env w) &&
            isFinishing env .suspendedEV (stampNow env w))
  | _ => false

/-- Nobody is on trial but an id that may stop the session, or nobody at all and the session has kept its own. -/
def Watched.Settled (m : Watched) : Prop :=
  (isSessionPending m.world = true → m.MayStop m.world.session.trial.uid) ∧
    (isSessionPending m.world = false → m.MayStop m.world.session.current.uid)

section Exit

variable (env : Env) (w : World)

theorem requests_process :
    (process env w).requests = ((machine env).move w.base.fsm (stampNow env w) (transitions env)).requests :=
  congrArg (fun w => w.requests) (core_process env w)

theorem leavesSession_eq_isExit (e : Event) : leavesSession w e = isExit w e := by
  cases e with
  | process env =>
      simp only [leavesSession, isExit, step]
      by_cases henabled : w.base.enabled = true
      · rw [if_pos henabled, process_fsm]
        simp only [henabled, Bool.true_and]
        cases hfsm : w.base.fsm with
        | charging =>
            rw [move_charging]
            split_ifs <;> simp_all [inSession]
        | suspendedEV =>
            rw [move_suspendedEV]
            split_ifs <;> simp_all [inSession]
        | _ => simp [inSession]
      · rw [if_neg henabled]
        simp [henabled]
  | _ =>
      rw [isExit, step_fsm_of_not_process w (by simp)]
      simp [leavesSession]

/-- `do_stoptransaction` takes the id from the trial slot, if there is one in it. -/
def stopIdTag : IdToken := if isSessionPending w then w.session.trial.uid else w.session.current.uid

/-- The action that ends a session sends a request to stop the transaction and one for the new status. -/
theorem doFinishing_requests {state : OcppState} (h : state = .charging ∨ state = .suspendedEV) :
    ∃ stop status : Payload, stop.stopper = some (stopIdTag w) ∧ status.stopper = none ∧
      (doFinishing env state w).requests = w.requests ++ [stop] ++ [status] := by
  rcases h with rfl | rfl
  · refine ⟨_, _, ?_, ?_, rfl⟩ <;> rfl
  · refine ⟨_, _, ?_, ?_, rfl⟩ <;> rfl

theorem requests_of_leavesSession {e : Event} (h : leavesSession w e = true) :
    ∃ stop status : Payload, stop.stopper = some (stopIdTag w) ∧ status.stopper = none ∧
      appended w.requests (step w e).requests = [stop, status] := by
  cases e with
  | process env =>
      simp only [leavesSession, Bool.and_eq_true, Bool.or_eq_true, decide_eq_true_eq, Bool.not_eq_true'] at h
      obtain ⟨henabled, hguards⟩ := h
      have hrequests : (step w (.process env)).requests =
          (doFinishing env w.base.fsm (enter .finishing (stampNow env w))).requests := by
        simp only [step, henabled, if_true, requests_process]
        rcases hguards with ⟨⟨hfsm, hsuspended⟩, hfinishing⟩ | ⟨⟨hfsm, hcharging⟩, hfinishing⟩
        · rw [hfsm, move_charging, hsuspended, hfinishing]
          rfl
        · rw [hfsm, move_suspendedEV, hcharging, hfinishing]
          rfl
      have hfsm : w.base.fsm = .charging ∨ w.base.fsm = .suspendedEV := hguards.imp (·.1.1) (·.1.1)
      obtain ⟨stop, status, hstop, hstatus, hsent⟩ :=
        doFinishing_requests env (enter .finishing (stampNow env w)) hfsm
      refine ⟨stop, status, hstop, hstatus, ?_⟩
      rw [hrequests, hsent, List.append_assoc]
      exact appended_append w.requests _
  | _ => cases h

end Exit

/-- At a step that ends a session the slots are settled exactly when the request it sends names an id that may stop the session. -/
theorem stopsAsEntitled_iff (m : Watched) (e : Event) :
    StopsAsEntitled m e ↔ (leavesSession m.world e = true → m.Settled) := by
  rw [StopsAsEntitled, ← leavesSession_eq_isExit]
  refine forall_congr' fun hleaves => ?_
  obtain ⟨stop, status, hstop, hstatus, hsent⟩ := requests_of_leavesSession m.world hleaves
  have hnamed : (∀ payload ∈ [stop, status], ∀ id ∈ payload.stopper, m.MayStop id) ↔
      m.MayStop (stopIdTag m.world) := by
    simp [hstop, hstatus]
  rw [hsent, hnamed, Watched.Settled, stopIdTag]
  cases isSessionPending m.world with
  | true => simp
  | false => simp

/-- Along a run every stop names an id that may stop the session exactly when, at each step whose guards end a session, the slots are settled. -/
theorem stopped_as_entitled_iff (boot : Boot) (evs : List Event) :
    EveryStep Watched.step StopsAsEntitled (Watched.start boot) evs ↔
      EveryStep Watched.step (fun m e => leavesSession m.world e = true → m.Settled) (Watched.start boot) evs :=
  everyStep_congr (I := fun _ => True) (fun _ _ _ => trivial) (fun m e _ => stopsAsEntitled_iff m e) trivial evs

/-- Card B is presented during the session of card A, and the car leaves before the CSMS has answered. -/
def leavesOnTrial : List Event :=
  bootEvents ++ startEvents ++ chargeEvents ++ [.tryRelease { now := 20, trialTime := 20 } cardB]

/-- The stop is attributed to card B, which nobody has let release the connector. -/
theorem stopped_by_undecided :
    ¬ EveryStep Watched.step StopsAsEntitled (Watched.start freshBoot)
        (leavesOnTrial ++ [.process { pilot := ⟨.a, 100⟩, now := 21 }]) := by
  intro h
  have hstop := h.last (by decide +kernel)
    (.stopTransaction cardB 0 21 7 .evDisconnected) (by decide +kernel) cardB rfl
  have hnot : ¬ (run Watched.step (Watched.start freshBoot) leavesOnTrial).MayStop cardB := by
    rw [Watched.MayStop]
    decide +kernel
  exact hnot hstop

end Evse.Ocpp
