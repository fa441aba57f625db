import Evse.Ocpp.Ownership

/-!
# Whose authorization it is

An `Authorize.conf` finds its connector, and the connector finds the id in the trial slot and the caller in the registered callback. Neither is tied to the request answered. This module says exactly when they agree with it.
-/

namespace Evse.Ocpp

open RowTable StepRun

/-- What a list that only grows has gained. -/
def appended {α : Type*} (before after : List α) : List α := after.drop before.length

@[simp] theorem appended_append {α : Type*} (before more : List α) : appended before (before ++ more) = more :=
  List.drop_left

@[simp] theorem appended_self {α : Type*} (before : List α) : appended before before = [] :=
  List.drop_length

/-! ### What the machine leaves alone -/

/-- The cache and what is written about authorizations. -/
def records (w : World) : UidStore × List (IdToken × UidEntry) × List IdToken :=
  (w.cache, w.cacheWrites, w.occupations)

theorem untouched_records : Untouched records :=
  ⟨fun _ _ => rfl, fun _ _ _ => rfl, fun _ _ => rfl, fun _ _ => rfl, fun _ _ => rfl⟩

theorem records_release (env : Env) (w : World) (remote : Bool) : records (release env w remote) = records w := by
  simp only [release]
  split_ifs <;> rfl

/-! ### The response to an `Authorize.req` -/

/-- The cache entry an `idTagInfo` makes. -/
def IdTagInfo.entry (info : IdTagInfo) : UidEntry := ⟨info.parentIdTag, info.status.toUidStatus, info.expiryDate⟩

theorem toSessionResult_eq_ok {status : AuthStatus} : status.toSessionResult = .ok ↔ status = .accepted := by
  cases status <;> decide

section Response

variable (env : Env) (w : World) (info : IdTagInfo)

theorem recordAuthorization_eq :
    recordAuthorization w info =
      if isSessionPending w then
        { w with
          session.trial := if info.status = .accepted then w.session.trial else {}
          cache := uidUpdate w.cache w.session.trial.uid info.parentIdTag info.status.toUidStatus info.expiryDate
          cacheWrites := w.cacheWrites ++ [(w.session.trial.uid, info.entry)] }
      else w := by
  unfold recordAuthorization
  by_cases hpending : isSessionPending w = true
  · rw [if_pos hpending, if_pos hpending]
    by_cases haccepted : info.status = .accepted
    · simp [haccepted, IdTagInfo.entry]
    · simp [haccepted, clearSessionPending, IdTagInfo.entry]
  · rw [if_neg hpending, if_neg hpending]

theorem pending_iff : isSessionPending w = true ↔ w.session.trial.uid ≠ .empty := decide_eq_true_iff

/-- An accepted response leaves the trial slot to the callback. -/
theorem recordAuthorization_trial (h : info.status = .accepted) :
    (recordAuthorization w info).session.trial = w.session.trial := by
  simp only [recordAuthorization_eq, h, if_true]
  split <;> rfl

theorem recordAuthorization_rest :
    (recordAuthorization w info).auth = w.auth ∧ (recordAuthorization w info).delivered = w.delivered ∧
      (recordAuthorization w info).occupations = w.occupations ∧
      (recordAuthorization w info).releases = w.releases ∧
      (recordAuthorization w info).session.current = w.session.current := by
  rw [recordAuthorization_eq]
  split <;> exact ⟨rfl, rfl, rfl, rfl, rfl⟩

theorem delivers_doAuth :
    Delivers env (recordAuthorization w info) info.status.toSessionResult (doAuth env w info) :=
  delivers env _ _

theorem dispatchAuthResult_cache (result : SessionResult) :
    (dispatchAuthResult env w result).cache = w.cache ∧
      (dispatchAuthResult env w result).cacheWrites = w.cacheWrites := by
  have hdelivers := delivers env w result
  generalize dispatchAuthResult env w result = w' at hdelivers ⊢
  cases hdelivers with
  | unregistered => exact ⟨rfl, rfl⟩
  | ignored => exact ⟨rfl, rfl⟩
  | occupied =>
      rw [occupy_eq]
      exact ⟨rfl, rfl⟩
  | released =>
      have hrecords := records_release env w false
      exact ⟨congrArg Prod.fst hrecords, congrArg (fun r => r.2.1) hrecords⟩

theorem cache_doAuth :
    (doAuth env w info).cache =
      if isSessionPending w then
        uidUpdate w.cache w.session.trial.uid info.parentIdTag info.status.toUidStatus info.expiryDate
      else w.cache := by
  rw [doAuth, (dispatchAuthResult_cache env _ _).1, recordAuthorization_eq]
  split <;> rfl

theorem cacheWrites_doAuth :
    appended w.cacheWrites (doAuth env w info).cacheWrites =
      if isSessionPending w then [(w.session.trial.uid, info.entry)] else [] := by
  rw [doAuth, (dispatchAuthResult_cache env _ _).2, recordAuthorization_eq]
  split <;> simp

theorem delivered_doAuth :
    appended w.delivered (doAuth env w info).delivered =
      (w.auth.map fun k => (k.presented, info.status.toSessionResult)).toList := by
  obtain ⟨hauth, hdelivered, -, -, -⟩ := recordAuthorization_rest w info
  have hdelivers := delivers_doAuth env w info
  generalize doAuth env w info = w' at hdelivers ⊢
  cases hdelivers with
  | unregistered hnone =>
      rw [hdelivered, ← hauth, hnone]
      simp
  | ignored k hsome =>
      rw [hdelivered, ← hauth, hsome]
      simp
  | occupied k hsome =>
      rw [hdelivered, ← hauth, hsome]
      simp
  | released k hsome =>
      rw [hdelivered, ← hauth, hsome]
      simp

/-- A response occupies the connector with whatever is in the trial slot. -/
theorem occupations_doAuth :
    appended w.occupations (doAuth env w info).occupations =
      if info.status = .accepted ∧ occupying w = true then [w.session.trial.uid] else [] := by
  obtain ⟨hauth, -, hoccupations, -, -⟩ := recordAuthorization_rest w info
  have hdelivers := delivers_doAuth env w info
  generalize doAuth env w info = w' at hdelivers ⊢
  cases hdelivers with
  | unregistered hnone =>
      have hno : occupying w = false := by rw [occupying, ← hauth, hnone]
      rw [hoccupations]
      simp [hno]
  | ignored k hsome hno =>
      have hno : ¬ (info.status = .accepted ∧ occupying w = true) := by
        rintro ⟨haccepted, hoccupying⟩
        rcases hno with hne | ⟨hcb, -⟩
        · exact hne (toSessionResult_eq_ok.mpr haccepted)
        · rw [occupying, ← hauth, hsome] at hoccupying
          simp [hcb] at hoccupying
      rw [if_neg hno, ← hoccupations]
      exact appended_self _
  | occupied k hsome hok hcb =>
      have haccepted := toSessionResult_eq_ok.mp hok
      have hoccupying : occupying w = true := by
        rw [occupying, ← hauth, hsome]
        simpa using hcb
      rw [if_pos ⟨haccepted, hoccupying⟩, occupy_eq, recordAuthorization_trial w info haccepted, hoccupations]
      exact appended_append _ _
  | released k hsome hok hcb =>
      have hno : ¬ (info.status = .accepted ∧ occupying w = true) := by
        rintro ⟨-, hoccupying⟩
        rw [occupying, ← hauth, hsome] at hoccupying
        simp [hcb] at hoccupying
      have hrecords := congrArg (fun r => r.2.2) (records_release env (recordAuthorization w info) false)
      rw [if_neg hno, ← hoccupations]
      exact (congrArg (appended _) hrecords).trans (appended_self _)

variable {w}

/-- With nothing in the trial slot nobody can release. -/
theorem canUserRelease_of_empty (hcache : w.cache .empty = none) (h : w.session.trial.uid = .empty) :
    canUserRelease w = false := by
  simp [canUserRelease, isSessionUidEqual, isSessionPidEqual, uidParent, h, hcache]

/-- A response releases the connector on behalf of the id in the trial slot, and only if there is one. -/
theorem releases_doAuth (hcache : w.cache .empty = none) :
    ∀ id ∈ appended w.releases (doAuth env w info).releases, id = w.session.trial.uid ∧ id ≠ .empty := by
  obtain ⟨hauth, -, -, hreleases, -⟩ := recordAuthorization_rest w info
  have hdelivers := delivers_doAuth env w info
  generalize doAuth env w info = w' at hdelivers ⊢
  cases hdelivers with
  | unregistered =>
      rw [hreleases]
      simp
  | ignored =>
      rw [hreleases]
      simp
  | occupied =>
      rw [occupy_eq, hreleases]
      simp
  | released k hsome hok hcb hcan =>
      have htrial := recordAuthorization_trial w info (toSessionResult_eq_ok.mp hok)
      intro id hid
      rw [hreleases, htrial] at hid
      rw [appended_append, List.mem_singleton] at hid
      refine ⟨hid, fun hempty => ?_⟩
      have hnone : w.session.trial.uid = .empty := hid.symm.trans hempty
      have hsame : recordAuthorization w info = w := by
        rw [recordAuthorization_eq, if_neg]
        simp [isSessionPending, hnone]
      rw [hsame, canUserRelease_of_empty hcache hnone] at hcan
      exact absurd hcan (by decide)

/-- With nothing in the trial slot, a response leaves the slot empty unless it occupies. -/
theorem trial_doAuth (hcache : w.cache .empty = none) (hempty : w.session.trial.uid = .empty)
    (hno : ¬ (info.status = .accepted ∧ occupying w = true)) : (doAuth env w info).session = w.session := by
  have hsame : recordAuthorization w info = w := by
    rw [recordAuthorization_eq, if_neg]
    simp [isSessionPending, hempty]
  rw [doAuth, hsame]
  have hdelivers := delivers env w info.status.toSessionResult
  generalize dispatchAuthResult env w info.status.toSessionResult = w' at hdelivers ⊢
  cases hdelivers with
  | unregistered => rfl
  | ignored => rfl
  | occupied k hsome hok hcb =>
      refine absurd ⟨toSessionResult_eq_ok.mp hok, ?_⟩ hno
      rw [occupying, hsome]
      simpa using hcb
  | released k hsome hok hcb hcan =>
      rw [canUserRelease_of_empty hcache hempty] at hcan
      exact absurd hcan (by decide)

end Response

/-! ### Responses and the id they are about -/

/-- Handling a response about the id `x` makes of `w` a world `w'` in which nothing has happened to another id: the cache entry that may have changed is that of `x`, the result went to a caller that presented `x`, and nobody else was occupied, released or turned down. -/
structure MatchedTo (x : IdToken) (info : IdTagInfo) (w w' : World) : Prop where
  cacheWrites : ∀ write ∈ appended w.cacheWrites w'.cacheWrites, write = (x, info.entry)
  others : ∀ other, other ≠ x → w'.cache other = w.cache other
  entry : w'.cache x = w.cache x ∨ w'.cache x = some info.entry
  delivered : ∀ result ∈ appended w.delivered w'.delivered, result.1 = x
  occupations : ∀ id ∈ appended w.occupations w'.occupations, id = x
  releases : ∀ id ∈ appended w.releases w'.releases, id = x
  trial : w.session.trial.uid ≠ x → w'.session.trial = w.session.trial

/-- The connector is waiting for a response about the id `x`: the trial slot and the registered callback, as far as there are any, are for `x`, and an occupying callback that is told yes does find `x` in the slot. -/
structure WaitsFor (x : IdToken) (status : AuthStatus) (w : World) : Prop where
  trial : w.session.trial.uid = .empty ∨ w.session.trial.uid = x
  presented : ∀ k ∈ w.auth, k.presented = x
  occupying : status = .accepted → occupying w = true → w.session.trial.uid = x

theorem matchedTo_doAuth_iff {w : World} (hcache : w.cache .empty = none) (env : Env) (x : IdToken)
    (info : IdTagInfo) : MatchedTo x info w (doAuth env w info) ↔ WaitsFor x info.status w := by
  constructor
  · intro h
    refine ⟨?_, ?_, ?_⟩
    · by_cases hpending : isSessionPending w = true
      · have hwrite := h.cacheWrites (w.session.trial.uid, info.entry) (by simp [cacheWrites_doAuth, hpending])
        exact .inr (congrArg Prod.fst hwrite)
      · exact .inl (by simpa [isSessionPending] using hpending)
    · intro k hk
      refine h.delivered (k.presented, info.status.toSessionResult) ?_
      rw [delivered_doAuth, Option.mem_def.mp hk]
      simp
    · intro haccepted hoccupying
      exact h.occupations _ (by simp [occupations_doAuth, haccepted, hoccupying])
  · intro h
    have hpending : isSessionPending w = true → w.session.trial.uid = x := fun hpending =>
      h.trial.resolve_left ((pending_iff w).mp hpending)
    refine ⟨?_, ?_, ?_, ?_, ?_, ?_, ?_⟩
    · intro write hwrite
      rw [cacheWrites_doAuth] at hwrite
      split at hwrite
      · rename_i hset
        rw [List.mem_singleton.mp hwrite, hpending hset]
      · exact absurd hwrite List.not_mem_nil
    · intro other hother
      rw [cache_doAuth]
      split
      · rename_i hset
        rw [hpending hset]
        exact if_neg hother
      · rfl
    · rw [cache_doAuth]
      split
      · rename_i hset
        rw [hpending hset]
        exact .inr (if_pos rfl)
      · exact .inl rfl
    · intro result hresult
      rw [delivered_doAuth, Option.mem_toList, Option.map_eq_some_iff] at hresult
      obtain ⟨k, hk, rfl⟩ := hresult
      exact h.presented k hk
    · intro id hid
      rw [occupations_doAuth] at hid
      split at hid
      · rename_i hboth
        rw [List.mem_singleton.mp hid]
        exact h.occupying hboth.1 hboth.2
      · exact absurd hid List.not_mem_nil
    · intro id hid
      obtain ⟨rfl, hne⟩ := releases_doAuth env info hcache id hid
      exact h.trial.resolve_left hne
    · intro hother
      have hempty := h.trial.resolve_right hother
      rw [trial_doAuth env info hcache hempty fun hboth => hother (h.occupying hboth.1 hboth.2)]

/-! ### The records along a run -/

section Calls

variable (env : Env) (w : World)

theorem records_releasePendingRequestIfTimedout : records (releasePendingRequestIfTimedout env w) = records w :=
  releasePendingRequestIfTimedout_frame env w fun _ => rfl

theorem records_tryRelease (id : IdToken) : records (tryRelease env w id .onReleaseResult).1 = records w := by
  have hreleases := releases env w id
  rw [← records_releasePendingRequestIfTimedout env w]
  generalize (tryRelease env w id .onReleaseResult).1 = w' at hreleases ⊢
  cases hreleases with
  | refused => rfl
  | released => exact records_release env (onTrial env _ id .onReleaseResult) false
  | asked => rfl

/-- The cache and the record of what was written to it. -/
def caching (w : World) : UidStore × List (IdToken × UidEntry) := (w.cache, w.cacheWrites)

theorem caching_of_records {w w' : World} (h : records w' = records w) : caching w' = caching w :=
  congrArg (fun r => (r.1, r.2.1)) h

theorem caching_tryOccupy (id : IdToken) (remote : Bool) :
    caching (tryOccupy env w id remote (occupyCb remote)).1 = caching w := by
  have hoccupies := occupies env w id remote (occupyCb_ne_release remote)
  rw [← caching_of_records (records_releasePendingRequestIfTimedout env w)]
  generalize (tryOccupy env w id remote (occupyCb remote)).1 = w' at hoccupies ⊢
  cases hoccupies with
  | refused => rfl
  | granted => rfl
  | denied => rfl
  | asked => rfl
  | preAuthorized => rfl

theorem records_mqSend (msg : ChargerMsg) : records (mqSend env w msg) = records w := by
  unfold mqSend
  split <;> rfl

theorem records_doStartTransaction (req : Request) (info : IdTagInfo) (transactionId : Int) :
    records (doStartTransaction env w req info transactionId) = records w := by
  by_cases h : info.status = .accepted
  · rw [doStartTransaction_accepted env w req h]
    rfl
  · rw [doStartTransaction_rejected env w req h]
    rfl

theorem records_mqRecv : records (mqRecv env w) = records w := by
  unfold mqRecv
  split
  · rfl
  · simp only [msgHandler, procStartTransaction, procStopTransaction, raiseEvent_eq]
    split <;> rfl

/-- Of the responses only one to an `Authorize.req` is written down. -/
theorem receive_cases (id : Nat) (response : Response) :
    (∃ req x info, getMessageById w id = some req ∧ req.payload = .authorize x ∧ response = .authorize info ∧
        receive env w id response = doAuth env (dropRequest w id) info) ∨
      records (receive env w id response) = records w := by
  unfold receive
  cases hmsg : getMessageById w id with
  | none => exact .inr rfl
  | some req =>
      simp only [handlerProcess]
      cases hpayload : req.payload with
      | authorize idTag =>
          cases response with
          | authorize info => exact .inl ⟨req, idTag, info, rfl, hpayload, rfl, rfl⟩
          | _ => exact .inr rfl
      | startTransaction connectorId idTag meterStart timestamp reservationId =>
          cases response with
          | startTransaction info transactionId => exact .inr (records_doStartTransaction env _ req info transactionId)
          | _ => exact .inr rfl
      | stopTransaction idTag meterStop timestamp transactionId reason =>
          cases response with
          | stopTransaction => exact .inr (records_mqSend env _ _)
          | _ => exact .inr rfl
      | _ => exact .inr rfl

end Calls

/-- What an event does to the cache: an answer to an `Authorize.req` writes the entry of the trial id, if there is one, and nothing else writes. -/
theorem caching_step_cases (w : World) (e : Event) :
    (∃ env id info req x, e = .receive env id (.authorize info) ∧ getMessageById w id = some req ∧
        req.payload = .authorize x ∧ isSessionPending w = true ∧
        caching (step w e) =
          (uidUpdate w.cache w.session.trial.uid info.parentIdTag info.status.toUidStatus info.expiryDate,
            w.cacheWrites ++ [(w.session.trial.uid, info.entry)])) ∨
      caching (step w e) = caching w ∨ e = .clearCache := by
  have hsame : records (step w e) = records w → caching (step w e) = caching w ∨ e = .clearCache :=
    fun hrecords => .inl (caching_of_records hrecords)
  cases e with
  | process env =>
      simp only [step] at hsame ⊢
      split at hsame
      next henabled =>
        rw [if_pos henabled]
        exact .inr (hsame (untouched_records.process env w))
      next hdisabled =>
        rw [if_neg hdisabled]
        exact .inr (.inl rfl)
  | tryOccupy env id remote => exact .inr (.inl (caching_tryOccupy env w id remote))
  | tryRelease env id => exact .inr (hsame (records_tryRelease env w id))
  | occupy env =>
      refine .inr (.inl ?_)
      simp only [step, occupy_eq]
      rfl
  | release env remote => exact .inr (hsame (records_release env w remote))
  | receive env id response =>
      rcases receive_cases env w id response with ⟨req, x, info, hmsg, hpayload, rfl, heq⟩ | hrecords
      · have hcache := cache_doAuth env (dropRequest w id) info
        have hwrites : (doAuth env (dropRequest w id) info).cacheWrites =
            w.cacheWrites ++ if isSessionPending w then [(w.session.trial.uid, info.entry)] else [] := by
          rw [doAuth, (dispatchAuthResult_cache env _ _).2, recordAuthorization_eq]
          show (if isSessionPending w then _ else _ : World).cacheWrites = _
          split
          · rfl
          · exact (List.append_nil _).symm
        have hstep : caching (step w (.receive env id (.authorize info))) =
            ((doAuth env (dropRequest w id) info).cache, (doAuth env (dropRequest w id) info).cacheWrites) := by
          simp only [step, heq, caching]
        by_cases hpending : isSessionPending w = true
        · refine .inl ⟨env, id, info, req, x, rfl, hmsg, hpayload, hpending, ?_⟩
          rw [hstep, hcache, hwrites, if_pos hpending]
          exact congrArg (·, _) (if_pos hpending)
        · refine .inr (.inl ?_)
          rw [hstep, hcache, hwrites, if_neg hpending, List.append_nil]
          exact congrArg (·, _) (if_neg hpending)
      · exact .inr (hsame hrecords)
  | mqRecv env => exact .inr (hsame (records_mqRecv env w))
  | bootAccepted env => exact .inr (hsame (records_mqSend env w _))
  | changeAvailability env available => exact .inr (hsame (records_mqSend env _ _))
  | changeConfiguration env => exact .inr (hsame (records_mqSend env w _))
  | clearCache => exact .inr (.inr rfl)
  | reset env forced => exact .inr (hsame (records_mqSend env w _))
  | _ => exact .inr (.inl rfl)

/-- Nothing puts the all-zero id into the cache. -/
theorem cache_empty_step (w : World) (e : Event) (h : w.cache .empty = none) : (step w e).cache .empty = none := by
  obtain ⟨env, id, info, req, x, -, -, -, hpending, hcaching⟩ | hsame | rfl := caching_step_cases w e
  · have hcache : (step w e).cache = _ := congrArg Prod.fst hcaching
    have hne : IdToken.empty ≠ w.session.trial.uid := ((pending_iff _).mp hpending).symm
    rw [hcache]
    exact (if_neg hne).trans h
  · have hcache : (step w e).cache = w.cache := congrArg Prod.fst hsame
    rw [hcache]
    exact h
  · rfl

/-- `Q` holds of the id an event is about, where it is the response to an `Authorize.req`. -/
def OnAuthorizeConf (Q : World → IdToken → IdTagInfo → World → Prop) (w : World) : Event → Prop
  | .receive env id (.authorize info) =>
      ∀ req x, getMessageById w id = some req → req.payload = .authorize x →
        Q w x info (step w (.receive env id (.authorize info)))
  | _ => True

/-- Along a run every response to an `Authorize.req` is matched to the id it is about exactly when, whenever one is handled, the connector waits for a response about that id. -/
theorem authorize_matched_iff (boot : Boot) (evs : List Event) :
    EveryStep step (OnAuthorizeConf fun w x info w' => MatchedTo x info w w') boot.start evs ↔
      EveryStep step (OnAuthorizeConf fun w x info _ => WaitsFor x info.status w) boot.start evs := by
  refine everyStep_congr (I := fun w => w.cache .empty = none) cache_empty_step ?_ boot.cache_empty evs
  intro w e hcache
  cases e with
  | receive env id response =>
      cases response with
      | authorize info =>
          refine forall₄_congr fun req x hmsg hpayload => ?_
          have hstep : step w (.receive env id (.authorize info)) = doAuth env (dropRequest w id) info := by
            simp only [step, receive, hmsg, handlerProcess, hpayload]
          have hiff := matchedTo_doAuth_iff (w := dropRequest w id) hcache env x info
          rw [hstep]
          -- the answered request is the only thing in which the two worlds differ
          constructor
          · intro h
            have hwaits := hiff.mp
              ⟨h.cacheWrites, h.others, h.entry, h.delivered, h.occupations, h.releases, h.trial⟩
            exact ⟨hwaits.trial, hwaits.presented, hwaits.occupying⟩
          · intro h
            have hmatched := hiff.mpr ⟨h.trial, h.presented, h.occupying⟩
            exact ⟨hmatched.cacheWrites, hmatched.others, hmatched.entry, hmatched.delivered, hmatched.occupations,
              hmatched.releases, hmatched.trial⟩
      | _ => exact Iff.rfl
  | _ => exact Iff.rfl

/-- The request of card A times out, and card B is presented. -/
def twoCards : List Event :=
  bootEvents ++ [
    .tryOccupy { now := 10, trialTime := 10 } cardA false,
    .tryOccupy { now := 80, trialTime := 80 } cardB false]

/-- The late answer about card A is taken for one about card B, which it lets in. -/
theorem authorized_by_another :
    ¬ EveryStep step (OnAuthorizeConf fun w x info w' => MatchedTo x info w w') freshBoot.start
        (twoCards ++ [.receive { occupyTime := 81 } 1 (.authorize { status := .accepted })]) := by
  intro h
  have hmatched := h.last ⟨1, .authorize cardA, 1⟩ cardA (by decide +kernel) rfl
  have hoccupied : cardB = cardA := hmatched.occupations cardB (by decide +kernel)
  exact absurd hoccupied (by decide)

end Evse.Ocpp
