import Evse.Ocpp.Frame
import Mathlib.Algebra.Ring.Int.Defs

/-!
# What the authorization calls do

One inversion lemma for each call, as `process_moves` is for the machine: the ways the call can go, each with the condition that decides for it and the world it leaves. The calls are cut at the two places they share, the timeout of a pending request and the delivery of a result.
-/

namespace Evse.Ocpp

section Delivery

variable (env : Env) (w : World)

/-- `ocpp_connector_dispatch_auth_result`, by the callback registered. -/
inductive Delivers (result : SessionResult) : World → Prop where
  | unregistered (hauth : w.auth = none) : Delivers result w
  | ignored (k : AuthCallback) (hauth : w.auth = some k)
      (hno : result ≠ .ok ∨ k.cb = .onReleaseResult ∧ canUserRelease w = false) :
      Delivers result { w with auth := none, delivered := w.delivered ++ [(k.presented, result)] }
  | occupied (k : AuthCallback) (hauth : w.auth = some k) (hok : result = .ok) (hcb : k.cb ≠ .onReleaseResult) :
      Delivers result { occupy env w with auth := none, delivered := w.delivered ++ [(k.presented, result)] }
  | released (k : AuthCallback) (hauth : w.auth = some k) (hok : result = .ok) (hcb : k.cb = .onReleaseResult)
      (hcan : canUserRelease w = true) :
      Delivers result
        { release env w false with
          auth := none
          delivered := w.delivered ++ [(k.presented, result)]
          releases := w.releases ++ [w.session.trial.uid] }

theorem run_of_ne_ok {cb : ResultCb} {result : SessionResult} (h : result ≠ .ok) : cb.run env w result = w := by
  cases cb with
  | onOccupyResult => exact if_neg h
  | onRemoteStartResult => exact if_neg h
  | onReleaseResult => exact if_neg fun hok => h hok.1

theorem run_occupy {cb : ResultCb} (h : cb ≠ .onReleaseResult) : cb.run env w .ok = occupy env w := by
  cases cb with
  | onOccupyResult => rfl
  | onRemoteStartResult => rfl
  | onReleaseResult => exact absurd rfl h

theorem delivers (result : SessionResult) : Delivers env w result (dispatchAuthResult env w result) := by
  unfold dispatchAuthResult
  split
  · exact .unregistered ‹_›
  · rename_i k hauth
    by_cases hok : result = .ok
    · subst hok
      by_cases hcb : k.cb = .onReleaseResult
      · by_cases hcan : canUserRelease w = true
        · have hrun : k.cb.run env w .ok =
              { release env w false with releases := w.releases ++ [w.session.trial.uid] } := by
            rw [hcb]
            exact if_pos ⟨rfl, hcan⟩
          rw [hrun]
          exact .released k hauth rfl hcb hcan
        · have hrun : k.cb.run env w .ok = w := by
            rw [hcb]
            exact if_neg fun h => hcan h.2
          rw [hrun]
          exact .ignored k hauth (.inr ⟨hcb, by simpa using hcan⟩)
      · rw [run_occupy env w hcb]
        exact .occupied k hauth rfl hcb
    · rw [run_of_ne_ok env w hok]
      exact .ignored k hauth (.inl hok)

/-- The registered callback is one that occupies the connector. -/
def occupying : Bool :=
  match w.auth with
  | none => false
  | some k => k.cb ≠ .onReleaseResult

/-- A pending request that has timed out: its callback is told, and the trial id is gone. -/
def timedOut : Bool :=
  isSessionPending w && decide (((env.now - w.session.authTimestamp) % 2 ^ 32).toNat ≥ env.config.connectionTimeOut)

theorem releasePendingRequestIfTimedout_eq :
    releasePendingRequestIfTimedout env w =
      if timedOut env w then
        { w with
          session.trial := {}
          auth := none
          delivered := w.delivered ++ (w.auth.map fun k => (k.presented, SessionResult.timeout)).toList }
      else w := by
  unfold releasePendingRequestIfTimedout timedOut
  by_cases hpending : isSessionPending w = true
  · by_cases helapsed : ((env.now - w.session.authTimestamp) % 2 ^ 32).toNat ≥ env.config.connectionTimeOut
    · simp only [hpending, helapsed, if_true, decide_true, Bool.and_self]
      generalize hw : dispatchAuthResult env w .timeout = w'
      have hdelivers := delivers env w .timeout
      rw [hw] at hdelivers
      cases hdelivers with
      | unregistered hauth => simp [clearSessionPending, hauth]
      | ignored k hauth => simp [clearSessionPending, hauth]
      | occupied k hauth hok => exact absurd hok (by decide)
      | released k hauth hok => exact absurd hok (by decide)
    · simp only [hpending, helapsed, if_true, if_false, decide_false, Bool.and_false, Bool.false_eq_true]
  · simp [hpending]

theorem releasePendingRequestIfTimedout_frame {β : Type} {f : World → β}
    (h : ∀ delivered, f { w with session.trial := {}, auth := none, delivered := delivered } = f w) :
    f (releasePendingRequestIfTimedout env w) = f w := by
  rw [releasePendingRequestIfTimedout_eq]
  split
  · exact h _
  · rfl

end Delivery

section Occupy

variable (env : Env) (w : World) (id : IdToken)

/-- The id has been put into the trial slot. -/
def onTrial (cb : ResultCb) : World := setSessionPending env (setAuthResultCb w cb id) id

/-- The connector occupied by the id, and the caller told. -/
def granted : World :=
  { w with
    session := { w.session with
      current.uid := id
      trial := {}
      authTimestamp := env.trialTime
      expiry :=
        if env.occupyTime + env.config.connectionTimeOut ≠ 0 then env.occupyTime + env.config.connectionTimeOut
        else w.session.expiry }
    auth := none
    delivered := w.delivered ++ [(id, .ok)]
    occupations := w.occupations ++ [id] }

/-- The id turned down, and the caller told. -/
def denied (result : SessionResult) : World :=
  { w with
    session := { w.session with trial := {}, authTimestamp := env.trialTime }
    auth := none
    delivered := w.delivered ++ [(id, result)] }

/-- The call refused before it touched the trial slot. -/
def refused (result : SessionResult) : World :=
  { w with auth := none, delivered := w.delivered ++ [(id, result)] }

/-- `ocpp_connector_try_occupy` from the world in which a pending request has timed out or not. -/
inductive Occupies (remote : Bool) (cb : ResultCb) : World → Prop where
  | refused (hactive : hasActiveAuthorization w = true) : Occupies remote cb (refused w id .alreadyOccupied)
  | granted (hfree : hasActiveAuthorization w = false)
      (halone : isPreAuthorized env w id remote = true → env.csmsConnected = false) :
      Occupies remote cb (granted env w id)
  | denied (hfree : hasActiveAuthorization w = false)
      (halone : isPreAuthorized env w id remote = true → env.csmsConnected = false)
      (result : SessionResult) (hno : result ≠ .ok) : Occupies remote cb (denied env w id result)
  | asked (hfree : hasActiveAuthorization w = false) (hlocal : isPreAuthorized env w id remote = false) :
      Occupies remote cb (csmsRequest (onTrial env w id cb) (.authorize id))
  | preAuthorized (hfree : hasActiveAuthorization w = false) (hconnected : env.csmsConnected = true)
      (hlocal : isPreAuthorized env w id remote = true) :
      Occupies remote cb (csmsRequest (setAuthResultCb (granted env w id) cb id) (.authorize .empty))

theorem dispatch_onTrial {cb : ResultCb} (hcb : cb ≠ .onReleaseResult) :
    dispatchAuthResult env (onTrial env w id cb) .ok = granted env w id := by
  have hrun : dispatchAuthResult env (onTrial env w id cb) .ok =
      { cb.run env (onTrial env w id cb) .ok with auth := none, delivered := w.delivered ++ [(id, .ok)] } := rfl
  rw [hrun, run_occupy env _ hcb, occupy_eq]
  rfl

theorem dispatch_denied {cb : ResultCb} {result : SessionResult} (h : result ≠ .ok) :
    dispatchAuthResult env (clearSessionPending (onTrial env w id cb)) result = denied env w id result := by
  have hrun : dispatchAuthResult env (clearSessionPending (onTrial env w id cb)) result =
      { cb.run env (clearSessionPending (onTrial env w id cb)) result with
        auth := none, delivered := w.delivered ++ [(id, result)] } := rfl
  rw [hrun, run_of_ne_ok env _ h]
  rfl

theorem dispatch_refused {cb : ResultCb} {result : SessionResult} (h : result ≠ .ok) :
    dispatchAuthResult env (setAuthResultCb w cb id) result = refused w id result := by
  have hrun : dispatchAuthResult env (setAuthResultCb w cb id) result =
      { cb.run env (setAuthResultCb w cb id) result with
        auth := none, delivered := w.delivered ++ [(id, result)] } := rfl
  rw [hrun, run_of_ne_ok env _ h]
  rfl

theorem occupyCb_ne_release (remote : Bool) : occupyCb remote ≠ .onReleaseResult := by
  cases remote <;> decide

theorem occupies (remote : Bool) {cb : ResultCb} (hcb : cb ≠ .onReleaseResult) :
    Occupies env (releasePendingRequestIfTimedout env w) id remote cb (tryOccupy env w id remote cb).1 := by
  unfold tryOccupy
  generalize releasePendingRequestIfTimedout env w = w₁
  have hactive : hasActiveAuthorization (setAuthResultCb w₁ cb id) = hasActiveAuthorization w₁ := rfl
  have htrial : setSessionPending env (setAuthResultCb w₁ cb id) id = onTrial env w₁ id cb := rfl
  have hlocal : isPreAuthorized env (onTrial env w₁ id cb) id remote = isPreAuthorized env w₁ id remote := rfl
  simp only [hactive, htrial]
  split_ifs with hfree hremote hconnected
  · rw [dispatch_refused env w₁ id (by decide)]
    exact .refused hfree
  · have hremote : isPreAuthorized env w₁ id remote = false := by simp [isPreAuthorized, hremote.1]
    rw [dispatch_onTrial env w₁ id hcb]
    exact .granted (by simpa using hfree) fun hpre => absurd (hremote.symm.trans hpre) (by decide)
  · simp only [occupyOnline, hlocal]
    by_cases hpre : isPreAuthorized env w₁ id remote = true
    · rw [if_pos hpre, dispatch_onTrial env w₁ id hcb]
      exact .preAuthorized (by simpa using hfree) hconnected hpre
    · rw [if_neg hpre]
      exact .asked (by simpa using hfree) (by simpa using hpre)
  · have halone : isPreAuthorized env w₁ id remote = true → env.csmsConnected = false := fun _ => by
      simpa using hconnected
    unfold occupyOffline
    split_ifs
    · rw [dispatch_denied env w₁ id (by decide)]
      exact .denied (by simpa using hfree) halone _ (by decide)
    · rw [dispatch_denied env w₁ id (by decide)]
      exact .denied (by simpa using hfree) halone _ (by decide)
    · rw [dispatch_onTrial env w₁ id hcb]
      exact .granted (by simpa using hfree) halone

end Occupy

section Release

variable (env : Env) (w : World) (id : IdToken)

/-- The connector released by the id that occupies it, and the caller told. -/
def releasedBy : World :=
  { release env (onTrial env w id .onReleaseResult) false with
    auth := none
    delivered := w.delivered ++ [(id, .ok)]
    releases := w.releases ++ [id] }

/-- `ocpp_connector_try_release` with the callback of its caller. -/
inductive Releases : World → Prop where
  | refused (result : SessionResult) (hno : result ≠ .ok) (hother : isSessionUidEqual w id = false) :
      Releases (refused w id result)
  | released (hown : isSessionUidEqual w id = true) : Releases (releasedBy env w id)
  | asked (hestablished : isSessionEstablished w = true) (hother : isSessionUidEqual w id = false) :
      Releases (csmsRequest (onTrial env w id .onReleaseResult) (.authorize id))

theorem established_of_uid_equal (h : isSessionUidEqual w id = true) : isSessionEstablished w = true := by
  simp only [isSessionUidEqual, Bool.and_eq_true, decide_eq_true_eq] at h
  rw [isSessionEstablished, h.2]
  exact decide_eq_true h.1

theorem releases :
    Releases env (releasePendingRequestIfTimedout env w) id (tryRelease env w id .onReleaseResult).1 := by
  unfold tryRelease
  generalize releasePendingRequestIfTimedout env w = w₁
  have hestablished : isSessionEstablished (setAuthResultCb w₁ .onReleaseResult id) = isSessionEstablished w₁ := rfl
  have hequal : isSessionUidEqual (setAuthResultCb w₁ .onReleaseResult id) id = isSessionUidEqual w₁ id := rfl
  have htrial : setSessionPending env (setAuthResultCb w₁ .onReleaseResult id) id =
      onTrial env w₁ id .onReleaseResult := rfl
  simp only [hestablished, hequal, htrial]
  split_ifs with hnot hown hconnected
  · rw [dispatch_refused env w₁ id (by decide)]
    refine .refused _ (by decide) (Bool.eq_false_iff.mpr fun hown => ?_)
    rw [established_of_uid_equal w₁ id hown] at hnot
    exact absurd hnot (by decide)
  · have hcan : canUserRelease (onTrial env w₁ id .onReleaseResult) = true := by
      rw [canUserRelease]
      exact Bool.or_eq_true_iff.mpr (.inl hown)
    have hrun : dispatchAuthResult env (onTrial env w₁ id .onReleaseResult) .ok =
        { ResultCb.run env (onTrial env w₁ id .onReleaseResult) .onReleaseResult .ok with
          auth := none, delivered := w₁.delivered ++ [(id, .ok)] } := rfl
    rw [hrun]
    simp only [ResultCb.run, hcan, and_self, if_true]
    exact .released hown
  · exact .asked (by simpa using hnot) (by simpa using hown)
  · rw [dispatch_refused env w₁ id (by decide)]
    exact .refused _ (by decide) (by simpa using hown)

end Release

end Evse.Ocpp
