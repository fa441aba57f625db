import Evse.Ocpp.Matching

/-!
# Calls refused as busy

While an authorization is pending a further call is turned away with `-EBUSY`. The one slot for a result callback is written before the check and emptied by the refusal, so the caller that was waiting is forgotten: a refusal leaves the pending authorization alone exactly where nobody was waiting for it.
-/

namespace Evse.Ocpp

open StepRun

/-- The two calls that ask for an authorization, with the caller's callback. -/
inductive AuthCall where
  | occupy (id : IdToken) (remote : Bool) (cb : ResultCb)
  | release (id : IdToken) (cb : ResultCb)
  deriving DecidableEq

def AuthCall.run (env : Env) (w : World) : AuthCall → World × Errno
  | .occupy id remote cb => tryOccupy env w id remote cb
  | .release id cb => tryRelease env w id cb

/-- The check after which the call returns `-EBUSY`. -/
def AuthCall.turnedAway (w : World) : AuthCall → Bool
  | .occupy .. => hasActiveAuthorization w
  | .release .. => !isSessionEstablished w

/-- The call is made while an authorization is pending that has not timed out. -/
def WhilePending (env : Env) (w : World) : Prop := isSessionPending w = true ∧ timedOut env w = false

/-- The world `w'` a refused call leaves still has the authorization that was pending in `w`, and a response about it goes to the caller that waits for it. -/
structure LeavesPending (w w' : World) : Prop where
  trial : w'.session.trial = w.session.trial
  auth : w'.auth = w.auth
  delivered : ∀ (env : Env) (info : IdTagInfo), ∀ k ∈ w.auth,
    appended w'.delivered (doAuth env w' info).delivered = [(k.presented, info.status.toSessionResult)]

section Calls

variable (env : Env) (w : World)

theorem not_timedOut_kept (h : timedOut env w = false) : releasePendingRequestIfTimedout env w = w := by
  rw [releasePendingRequestIfTimedout_eq, h]
  rfl

theorem run_busy_iff (call : AuthCall) (h : timedOut env w = false) :
    (call.run env w).2 = .busy ↔ call.turnedAway w = true := by
  have hkept := not_timedOut_kept env w h
  cases call with
  | occupy id remote cb =>
      have hactive : hasActiveAuthorization (setAuthResultCb w cb id) = hasActiveAuthorization w := rfl
      simp only [AuthCall.run, AuthCall.turnedAway, tryOccupy, hkept, hactive]
      by_cases hbusy : hasActiveAuthorization w = true
      · simp only [hbusy, if_true]
      · simp only [hbusy, Bool.false_eq_true, if_false, iff_false, occupyOnline, occupyOffline]
        split_ifs <;> decide
  | release id cb =>
      have hestablished : isSessionEstablished (setAuthResultCb w cb id) = isSessionEstablished w := rfl
      simp only [AuthCall.run, AuthCall.turnedAway, tryRelease, hkept, hestablished]
      by_cases hbusy : (!isSessionEstablished w) = true
      · simp only [hbusy, if_true]
      · simp only [hbusy, Bool.false_eq_true, if_false, iff_false]
        split_ifs <;> decide

/-- A call that is turned away overwrites the callback slot and empties it. -/
theorem run_turnedAway (call : AuthCall) (h : timedOut env w = false) (haway : call.turnedAway w = true) :
    ∃ id result, (call.run env w).1 = refused w id result := by
  have hkept := not_timedOut_kept env w h
  cases call with
  | occupy id remote cb =>
      have hactive : hasActiveAuthorization (setAuthResultCb w cb id) = true := haway
      refine ⟨id, .alreadyOccupied, ?_⟩
      simp only [AuthCall.run, tryOccupy, hkept, hactive, if_true]
      exact dispatch_refused env w id (by decide)
  | release id cb =>
      have hestablished : (!isSessionEstablished (setAuthResultCb w cb id)) = true := haway
      refine ⟨id, .pending, ?_⟩
      simp only [AuthCall.run, tryRelease, hkept, hestablished, if_true]
      exact dispatch_refused env w id (by decide)

theorem leavesPending_refused_iff (id : IdToken) (result : SessionResult) :
    LeavesPending w (refused w id result) ↔ w.auth = none := by
  constructor
  · intro h
    exact h.auth.symm
  · intro hnone
    refine ⟨rfl, hnone.symm, ?_⟩
    intro _ _ k hk
    rw [hnone] at hk
    cases hk

end Calls

/-- In any reachable state, a call refused as busy leaves the pending authorization alone exactly when the check turns it away only where no callback is registered. -/
theorem busy_leaves_pending_iff (boot : Boot) (evs : List Event) (env : Env) (call : AuthCall) :
    (WhilePending env (run step boot.start evs) → (call.run env (run step boot.start evs)).2 = .busy →
        LeavesPending (run step boot.start evs) (call.run env (run step boot.start evs)).1) ↔
      (WhilePending env (run step boot.start evs) → call.turnedAway (run step boot.start evs) = true →
        (run step boot.start evs).auth = none) := by
  generalize run step boot.start evs = w
  refine forall_congr' fun hpending => ?_
  rw [run_busy_iff env w call hpending.2]
  refine forall_congr' fun haway => ?_
  obtain ⟨id, result, hrun⟩ := run_turnedAway env w call hpending.2 haway
  rw [hrun]
  exact leavesPending_refused_iff w id result

/-- Card A waits for the answer of the CSMS. -/
def cardAWaits : List Event := bootEvents ++ [.tryOccupy { now := 10, trialTime := 10 } cardA false]

/-- Card B is refused, and card A is no longer told. -/
theorem busy_forgets_waiting :
    ¬ (WhilePending { now := 11 } (run step freshBoot.start cardAWaits) →
        ((AuthCall.release cardB .onReleaseResult).run { now := 11 } (run step freshBoot.start cardAWaits)).2 = .busy →
        LeavesPending (run step freshBoot.start cardAWaits)
          ((AuthCall.release cardB .onReleaseResult).run { now := 11 } (run step freshBoot.start cardAWaits)).1) := by
  intro h
  have hkept := (h ⟨by decide +kernel, by decide +kernel⟩ (by decide +kernel)).auth
  exact absurd hkept (by decide +kernel)

end Evse.Ocpp
