import Evse.Ocpp.Matching

/-!
# The identity that occupies

`occupy_online` may let an id in from the local list or the cache; the callback then moves the id out of the trial slot, and the request that follows is built from the slot all the same. Together with the responses of the previous module this is every way in which a connector can be occupied by somebody else than the id that was authorized.
-/

namespace Evse.Ocpp

open RowTable StepRun

/-- The event is the one that authorizes the id: a call that presents it, or the acceptance of an `Authorize.req` that carries it. -/
def Authorizes (w : World) (e : Event) (id : IdToken) : Prop :=
  match e with
  | .tryOccupy _ x _ => id = x
  | .receive _ request (.authorize info) =>
      info.status = .accepted ∧ ∃ req, getMessageById w request = some req ∧ req.payload = .authorize id
  | _ => False

/-- The event asks for, and occupies the connector with, the id it is about. A call of `ocpp_connector_occupy` that no callback makes, and calls that present the all-zero id, are left out. -/
structure KeepsIdentity (w : World) (e : Event) : Prop where
  requested : ∀ env x remote, e = .tryOccupy env x remote → x ≠ .empty →
    ∀ payload ∈ appended w.requests (step w e).requests, payload = .authorize x
  occupied : e.isOccupy = false → (∀ env x remote, e = .tryOccupy env x remote → x ≠ .empty) →
    ∀ id ∈ appended w.occupations (step w e).occupations,
      id ≠ .empty ∧ Authorizes w e id ∧ (step w e).session.current.uid = id
  established : OnAuthorizeConf (fun w _ info w' =>
    info.status = .accepted → (∀ k ∈ w.auth, k.cb ≠ .onReleaseResult) →
      isSessionEstablished w = true → isSessionEstablished w' = true) w e

/-- An id that the list or the cache would let in is not presented while the CSMS could be asked and the connector is free, and an accepted response that occupies finds the id it is about in the trial slot. -/
def KeepsTrial (w : World) : Event → Prop
  | .tryOccupy env x remote => x ≠ .empty → env.csmsConnected = true → isPreAuthorized env w x remote = true →
      hasActiveAuthorization (releasePendingRequestIfTimedout env w) = true
  | .receive _ request (.authorize info) => ∀ req x, getMessageById w request = some req →
      req.payload = .authorize x → info.status = .accepted → occupying w = true → w.session.trial.uid = x ∧ x ≠ .empty
  | _ => True

section Identity

variable {w : World}

theorem requests_releasePendingRequestIfTimedout (env : Env) (w : World) :
    (releasePendingRequestIfTimedout env w).requests = w.requests :=
  releasePendingRequestIfTimedout_frame (f := (·.requests)) env w fun _ => rfl

theorem isPreAuthorized_releasePendingRequestIfTimedout (env : Env) (w : World) (id : IdToken) (remote : Bool) :
    isPreAuthorized env (releasePendingRequestIfTimedout env w) id remote = isPreAuthorized env w id remote :=
  releasePendingRequestIfTimedout_frame (f := (isPreAuthorized env · id remote)) env w fun _ => rfl

theorem tryOccupy_occupations (env : Env) (w : World) (x : IdToken) (remote : Bool) :
    ∀ id ∈ appended w.occupations (step w (.tryOccupy env x remote)).occupations,
      id = x ∧ (step w (.tryOccupy env x remote)).session.current.uid = x := by
  have hoccupies := occupies env w x remote (occupyCb_ne_release remote)
  have hbefore : (releasePendingRequestIfTimedout env w).occupations = w.occupations :=
    congrArg (fun r => r.2.2) (records_releasePendingRequestIfTimedout env w)
  rw [← hbefore]
  simp only [step]
  generalize (tryOccupy env w x remote (occupyCb remote)).1 = w' at hoccupies ⊢
  generalize releasePendingRequestIfTimedout env w = w₁ at hoccupies ⊢
  cases hoccupies with
  | refused => simp [refused]
  | granted => simp [granted]
  | denied => simp [denied]
  | asked => simp [csmsRequest, onTrial, setSessionPending, setAuthResultCb]
  | preAuthorized => simp [csmsRequest, setAuthResultCb, granted]

/-- A call asks about the id presented, except where the list or the cache has let it in already. -/
theorem tryOccupy_requests_iff (env : Env) (w : World) {x : IdToken} (hx : x ≠ .empty) (remote : Bool) :
    (∀ payload ∈ appended w.requests (step w (.tryOccupy env x remote)).requests, payload = .authorize x) ↔
      (env.csmsConnected = true → isPreAuthorized env w x remote = true →
        hasActiveAuthorization (releasePendingRequestIfTimedout env w) = true) := by
  have hoccupies := occupies env w x remote (occupyCb_ne_release remote)
  rw [← requests_releasePendingRequestIfTimedout env w, ← isPreAuthorized_releasePendingRequestIfTimedout env w]
  simp only [step]
  generalize (tryOccupy env w x remote (occupyCb remote)).1 = w' at hoccupies ⊢
  generalize releasePendingRequestIfTimedout env w = w₁ at hoccupies ⊢
  cases hoccupies with
  | refused hactive => simp [refused, hactive]
  | granted hfree halone =>
      refine iff_of_true (by simp [granted]) fun hconnected hpre => ?_
      exact absurd (hconnected.symm.trans (halone hpre)) (by decide)
  | denied hfree halone =>
      refine iff_of_true (by simp [denied]) fun hconnected hpre => ?_
      exact absurd (hconnected.symm.trans (halone hpre)) (by decide)
  | asked hfree hlocal =>
      refine iff_of_true (by simp [csmsRequest, onTrial, setSessionPending, setAuthResultCb]) fun _ hpre => ?_
      exact absurd (hlocal.symm.trans hpre) (by decide)
  | preAuthorized hfree hconnected hlocal =>
      refine iff_of_false (fun h => ?_) fun h => ?_
      · have hempty : Payload.authorize .empty = .authorize x := h _ (by simp [csmsRequest, setAuthResultCb, granted])
        exact hx (Payload.authorize.inj hempty).symm
      · exact absurd (hfree.symm.trans (h hconnected hlocal)) (by decide)

/-- An accepted response with an occupying callback moves the trial id to the session, one with no callback leaves the session's id. -/
theorem current_doAuth (env : Env) (w : World) {info : IdTagInfo} (haccepted : info.status = .accepted)
    (hcb : ∀ k ∈ w.auth, k.cb ≠ .onReleaseResult) :
    (doAuth env w info).session.current.uid =
      if occupying w = true then w.session.trial.uid else w.session.current.uid := by
  obtain ⟨hauth, -, -, -, hcurrent⟩ := recordAuthorization_rest w info
  have htrial := recordAuthorization_trial w info haccepted
  have hdelivers := delivers_doAuth env w info
  generalize doAuth env w info = w' at hdelivers ⊢
  cases hdelivers with
  | unregistered hnone =>
      have hno : occupying w = false := by rw [occupying, ← hauth, hnone]
      rw [hcurrent, hno]
      rfl
  | ignored k hsome hno =>
      rcases hno with hne | ⟨hrelease, -⟩
      · exact absurd (toSessionResult_eq_ok.mpr haccepted) hne
      · exact absurd hrelease (hcb k (hauth ▸ hsome))
  | occupied k hsome hok hoccupies =>
      have hoccupying : occupying w = true := by
        rw [occupying, ← hauth, hsome]
        simpa using hoccupies
      rw [occupy_eq, htrial, if_pos hoccupying]
  | released k hsome hok hrelease => exact absurd hrelease (hcb k (hauth ▸ hsome))

theorem cb_of_occupying (h : occupying w = true) : ∀ k ∈ w.auth, k.cb ≠ .onReleaseResult := by
  intro k hk
  rw [occupying, Option.mem_def.mp hk] at h
  simpa using h

/-- Away from the calls that present an id, only the response to an `Authorize.req` occupies. -/
theorem occupations_step {e : Event} (hoccupy : e.isOccupy = false)
    (hcall : ∀ env x remote, e ≠ .tryOccupy env x remote)
    (hconf : ∀ env id info, e ≠ .receive env id (.authorize info)) :
    appended w.occupations (step w e).occupations = [] := by
  have hsame : ∀ {w' : World}, records w' = records w → appended w.occupations w'.occupations = [] := by
    intro w' hrecords
    rw [show w'.occupations = w.occupations from congrArg (fun r => r.2.2) hrecords]
    exact appended_self _
  cases e with
  | process env =>
      simp only [step]
      split
      · exact hsame (untouched_records.process env w)
      · exact hsame rfl
  | tryOccupy env id remote => exact absurd rfl (hcall env id remote)
  | tryRelease env id => exact hsame (records_tryRelease env w id)
  | occupy env => exact absurd hoccupy (by simp [Event.isOccupy])
  | release env remote => exact hsame (records_release env w remote)
  | receive env id response =>
      rcases receive_cases env w id response with ⟨req, x, info, -, -, hresponse, -⟩ | hrecords
      · exact absurd (by rw [hresponse]) (hconf env id info)
      · exact hsame hrecords
  | mqRecv env => exact hsame (records_mqRecv env w)
  | bootAccepted env => exact hsame (records_mqSend env w _)
  | changeAvailability env available => exact hsame (records_mqSend env _ _)
  | changeConfiguration env => exact hsame (records_mqSend env w _)
  | clearCache => exact appended_self _
  | reset env forced => exact hsame (records_mqSend env w _)
  | _ => exact hsame rfl

theorem keepsIdentity_tryOccupy_iff (env : Env) (x : IdToken) (remote : Bool) :
    KeepsIdentity w (.tryOccupy env x remote) ↔ KeepsTrial w (.tryOccupy env x remote) := by
  constructor
  · intro h hx
    exact (tryOccupy_requests_iff env w hx remote).mp (h.requested env x remote rfl hx)
  · intro h
    refine ⟨?_, fun _ hpresented id hid => ?_, trivial⟩
    · intro env' x' remote' heq hx
      obtain ⟨rfl, rfl, rfl⟩ := Event.tryOccupy.inj heq
      exact (tryOccupy_requests_iff env w hx remote).mpr (h hx)
    · obtain ⟨rfl, hcurrent⟩ := tryOccupy_occupations env w x remote id hid
      exact ⟨hpresented env id remote rfl, rfl, hcurrent⟩

theorem keepsIdentity_receive_iff (env : Env) (request : Nat) (info : IdTagInfo) :
    KeepsIdentity w (.receive env request (.authorize info)) ↔
      KeepsTrial w (.receive env request (.authorize info)) := by
  have hstep : ∀ {req x}, getMessageById w request = some req → req.payload = .authorize x →
      step w (.receive env request (.authorize info)) = doAuth env (dropRequest w request) info := by
    intro req x hmsg hpayload
    simp only [step, receive, hmsg, handlerProcess, hpayload]
  have hoccupations : ∀ {req x}, getMessageById w request = some req → req.payload = .authorize x →
      appended w.occupations (step w (.receive env request (.authorize info))).occupations =
        if info.status = .accepted ∧ occupying w = true then [w.session.trial.uid] else [] := by
    intro req x hmsg hpayload
    rw [hstep hmsg hpayload]
    exact occupations_doAuth env (dropRequest w request) info
  constructor
  · intro h req x hmsg hpayload haccepted hoccupying
    have hmem : w.session.trial.uid ∈
        appended w.occupations (step w (.receive env request (.authorize info))).occupations := by
      rw [hoccupations hmsg hpayload, if_pos ⟨haccepted, hoccupying⟩]
      exact List.mem_singleton_self _
    obtain ⟨hne, ⟨-, req', hmsg', hpayload'⟩, -⟩ := h.occupied rfl (fun _ _ _ heq => by simp at heq) _ hmem
    obtain rfl : req = req' := Option.some.inj (hmsg.symm.trans hmsg')
    have hx : x = w.session.trial.uid := Payload.authorize.inj (hpayload.symm.trans hpayload')
    exact ⟨hx.symm, hx ▸ hne⟩
  · intro h
    refine ⟨fun _ _ _ heq => by simp at heq, ?_, ?_⟩
    · intro _ _ id hid
      -- a response that occupies answers an `Authorize.req`
      rcases receive_cases env w request (.authorize info) with ⟨req, x, info', hmsg, hpayload, -, -⟩ | hrecords
      · rw [hoccupations hmsg hpayload] at hid
        split at hid
        · rename_i hboth
          obtain ⟨htrial, hne⟩ := h req x hmsg hpayload hboth.1 hboth.2
          rw [List.mem_singleton, htrial] at hid
          subst hid
          refine ⟨hne, ⟨hboth.1, req, hmsg, hpayload⟩, ?_⟩
          have hcurrent := current_doAuth env (dropRequest w request) hboth.1 (cb_of_occupying hboth.2)
          rw [hstep hmsg hpayload, hcurrent]
          exact (if_pos hboth.2).trans htrial
        · exact absurd hid List.not_mem_nil
      · have hsame : (step w (.receive env request (.authorize info))).occupations = w.occupations :=
          congrArg (fun r => r.2.2) hrecords
        rw [hsame, appended_self] at hid
        exact absurd hid List.not_mem_nil
    · intro req x hmsg hpayload haccepted hcb hestablished
      have hcurrent := current_doAuth env (dropRequest w request) haccepted hcb
      rw [isSessionEstablished, hstep hmsg hpayload, hcurrent]
      split
      · rename_i hoccupying
        obtain ⟨htrial, hne⟩ := h req x hmsg hpayload haccepted hoccupying
        have htrial : (dropRequest w request).session.trial.uid = x := htrial
        rw [htrial]
        exact decide_eq_true hne
      · exact hestablished

theorem keepsIdentity_iff (e : Event) : KeepsIdentity w e ↔ KeepsTrial w e := by
  by_cases hcall : ∃ env x remote, e = .tryOccupy env x remote
  · obtain ⟨env, x, remote, rfl⟩ := hcall
    exact keepsIdentity_tryOccupy_iff env x remote
  · by_cases hconf : ∃ env request info, e = .receive env request (.authorize info)
    · obtain ⟨env, request, info, rfl⟩ := hconf
      exact keepsIdentity_receive_iff env request info
    · have hnocall : ∀ env x remote, e ≠ .tryOccupy env x remote := fun env x remote he =>
        hcall ⟨env, x, remote, he⟩
      have hnoconf : ∀ env request info, e ≠ .receive env request (.authorize info) := fun env request info he =>
        hconf ⟨env, request, info, he⟩
      have htrial : KeepsTrial w e := by
        unfold KeepsTrial
        split
        · exact absurd rfl (hnocall _ _ _)
        · exact absurd rfl (hnoconf _ _ _)
        · trivial
      have hestablished : ∀ Q, OnAuthorizeConf Q w e := by
        intro Q
        unfold OnAuthorizeConf
        split
        · exact absurd rfl (hnoconf _ _ _)
        · trivial
      refine iff_of_true ⟨fun env x remote he => absurd he (hnocall env x remote), ?_, hestablished _⟩ htrial
      intro hoccupy _ id hid
      rw [occupations_step hoccupy hnocall hnoconf] at hid
      exact absurd hid List.not_mem_nil

end Identity

/-- Along a run no event loses the identity of who occupies the connector exactly when every event finds the id it is about in the trial slot: no id is presented that the list or the cache lets in while the CSMS could be asked, and no accepted response with an occupying callback meets another id, or none, in the slot. -/
theorem identity_kept_iff (boot : Boot) (evs : List Event) :
    EveryStep step KeepsIdentity boot.start evs ↔ EveryStep step KeepsTrial boot.start evs :=
  everyStep_congr (I := fun _ => True) (fun _ _ _ => trivial) (fun _ e _ => keepsIdentity_iff e) trivial evs

/-- A charger with card A in its cache. -/
def cachedBoot : Boot :=
  { freshBoot with
    cache := fun id => if id = cardA then some ⟨.empty, .accepted, 0⟩ else none
    cache_empty := by decide }

/-- Card A is let in by the cache, and the CSMS is asked about the all-zero id. -/
def preAuthorized : List Event :=
  bootEvents ++ [
    .tryOccupy
      { now := 10, trialTime := 10, occupyTime := 10,
        config := { localPreAuthorize := true, authorizationCacheEnabled := true } } cardA false]

/-- The acceptance of that request throws card A out again. -/
theorem identity_lost :
    ¬ EveryStep step KeepsIdentity cachedBoot.start
        (preAuthorized ++ [.receive { occupyTime := 11 } 1 (.authorize { status := .accepted })]) := by
  intro h
  have hestablished := h.last.established ⟨1, .authorize .empty, 1⟩ .empty (by decide +kernel) rfl rfl
    (by decide +kernel) (by decide +kernel)
  exact absurd hestablished (by decide +kernel)

end Evse.Ocpp
