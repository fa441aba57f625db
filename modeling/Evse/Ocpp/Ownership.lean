import Evse.Ocpp.Stops

/-!
# Who a transaction belongs to

A `StartTransaction.conf` finds its connector through the request it answers, but not the session that sent the request. The session a request was sent in is told by how often the session had been cleared. Outside the charging states a session is either idle, without a transaction and without a request for one, or it belongs to an id: its requests carry that id, and no answer to an `Authorize.req` can put another id in its place.
-/

namespace Evse.Ocpp

open RowTable StepRun

/-- The id a `StartTransaction.req` carries. -/
def Payload.starter : Payload → Option IdToken
  | .startTransaction _ idTag _ _ _ => some idTag
  | _ => none

def Payload.isAuthorize : Payload → Bool
  | .authorize _ => true
  | _ => false

/-- The transaction of the session was started by a request that carried the session's id, in this very session. -/
def Owned (w : World) : Prop :=
  ∃ p ∈ w.started, p.2 = w.session.transactionId ∧ p.1.payload.starter = some w.session.current.uid ∧
    p.1.sentIn = w.cleared

instance (w : World) : Decidable (Owned w) :=
  inferInstanceAs (Decidable (∃ p ∈ w.started, p.2 = w.session.transactionId ∧
    p.1.payload.starter = some w.session.current.uid ∧ p.1.sentIn = w.cleared))

/-! ### The invariant -/

def Timely (w : World) : Prop := ∀ r ∈ w.outstanding, r.sentIn ≤ w.cleared

structure Idle (w : World) : Prop where
  transactionId : w.session.transactionId = 0
  requests : ∀ r ∈ w.outstanding, r.payload.starter ≠ none → r.sentIn < w.cleared

structure Bound (w : World) : Prop where
  established : w.session.current.uid ≠ .empty
  requests : ∀ r ∈ w.outstanding, r.sentIn = w.cleared → ∀ idTag, r.payload.starter = some idTag →
    idTag = w.session.current.uid
  transaction : w.session.transactionId ≠ 0 → Owned w
  authorize : occupying w = true → ∀ r ∈ w.outstanding, r.payload.isAuthorize = false

/-- Nothing hangs on the session's id: it charges already, or is idle. -/
def Unclaimed (w : World) : Prop := inSession w.base.fsm = true ∨ Idle w

structure OwnerInv (w : World) : Prop where
  timely : Timely w
  tenure : Unclaimed w ∨ Bound w

/-- The step sends no request for a transaction and leaves the one there is. -/
structure Keeps (w w' : World) : Prop where
  cleared : w'.cleared = w.cleared
  transactionId : w'.session.transactionId = w.session.transactionId
  outstanding : ∀ r ∈ w'.outstanding, r ∈ w.outstanding ∨ r.payload.starter = none ∧ r.sentIn = w.cleared
  inSession : inSession w.base.fsm = true → inSession w'.base.fsm = true

/-- The step also leaves the session to its id. -/
structure OwnerFrame (w w' : World) : Prop extends Keeps w w' where
  uid : w'.session.current.uid = w.session.current.uid
  started : w'.started = w.started
  occupying : occupying w' = true →
    occupying w = true ∧ ∀ r ∈ w'.outstanding, r.payload.isAuthorize = true → r ∈ w.outstanding

section Frames

variable {w w' : World}

theorem Keeps.timely (h : Keeps w w') (htimely : Timely w) : Timely w' := by
  intro r hr
  rw [h.cleared]
  rcases h.outstanding r hr with hold | ⟨-, hnew⟩
  · exact htimely r hold
  · exact Nat.le_of_eq hnew

theorem Keeps.idle (h : Keeps w w') (hidle : Idle w) : Idle w' := by
  refine ⟨h.transactionId.trans hidle.transactionId, fun r hr hstarter => ?_⟩
  rw [h.cleared]
  rcases h.outstanding r hr with hold | ⟨hnone, -⟩
  · exact hidle.requests r hold hstarter
  · exact absurd hnone hstarter

theorem Keeps.unclaimed (h : Keeps w w') (hunclaimed : Unclaimed w) : Unclaimed w' := by
  rcases hunclaimed with hin | hidle
  · exact .inl (h.inSession hin)
  · exact .inr (h.idle hidle)

/-- A step that may change the id of the session is harmless where nothing hangs on it. -/
theorem Keeps.ownerInv (h : Keeps w w') (htimely : Timely w) (hunclaimed : Unclaimed w) : OwnerInv w' :=
  ⟨h.timely htimely, .inl (h.unclaimed hunclaimed)⟩

theorem OwnerFrame.bound (h : OwnerFrame w w') (hbound : Bound w) : Bound w' := by
  refine ⟨?_, ?_, ?_, ?_⟩
  · rw [h.uid]
    exact hbound.established
  · intro r hr hsent idTag hstarter
    rw [h.uid]
    rcases h.outstanding r hr with hold | ⟨hnone, -⟩
    · exact hbound.requests r hold (hsent.trans h.cleared) idTag hstarter
    · rw [hnone] at hstarter
      exact absurd hstarter (by simp)
  · intro htid
    rw [h.transactionId] at htid
    simpa only [Owned, h.started, h.transactionId, h.uid, h.cleared] using hbound.transaction htid
  · intro hoccupying r hr
    obtain ⟨hbefore, hold⟩ := h.occupying hoccupying
    by_contra hauthorize
    have hauthorize : r.payload.isAuthorize = true := by simpa using hauthorize
    have hnone := hbound.authorize hbefore r (hold r hr hauthorize)
    exact absurd (hauthorize.symm.trans hnone) (by decide)

theorem OwnerFrame.ownerInv (h : OwnerFrame w w') (hinv : OwnerInv w) : OwnerInv w' := by
  refine ⟨h.timely hinv.timely, ?_⟩
  rcases hinv.tenure with hunclaimed | hbound
  · exact .inl (h.unclaimed hunclaimed)
  · exact .inr (h.bound hbound)

/-- No request is sent, and no callback registered. -/
theorem OwnerFrame.of_eq (hcleared : w'.cleared = w.cleared)
    (hsession : w'.session.transactionId = w.session.transactionId ∧ w'.session.current.uid = w.session.current.uid)
    (houtstanding : ∀ r ∈ w'.outstanding, r ∈ w.outstanding) (hstarted : w'.started = w.started)
    (hauth : Ocpp.occupying w' = true → Ocpp.occupying w = true)
    (hfsm : Ocpp.inSession w.base.fsm = true → Ocpp.inSession w'.base.fsm = true) : OwnerFrame w w' where
  cleared := hcleared
  transactionId := hsession.1
  outstanding r hr := .inl (houtstanding r hr)
  inSession := hfsm
  uid := hsession.2
  started := hstarted
  occupying h := ⟨hauth h, fun r hr _ => houtstanding r hr⟩

theorem OwnerInv.of_eq (h : OwnerInv w) (hcleared : w'.cleared = w.cleared)
    (hsession : w'.session.transactionId = w.session.transactionId ∧ w'.session.current.uid = w.session.current.uid)
    (houtstanding : ∀ r ∈ w'.outstanding, r ∈ w.outstanding) (hstarted : w'.started = w.started)
    (hauth : occupying w' = true → occupying w = true)
    (hfsm : inSession w.base.fsm = true → inSession w'.base.fsm = true) : OwnerInv w' :=
  (OwnerFrame.of_eq hcleared hsession houtstanding hstarted hauth hfsm).ownerInv h

/-- The same where no request is answered either, and the callback stays or goes. -/
theorem OwnerInv.congr (h : OwnerInv w) (hcleared : w'.cleared = w.cleared)
    (hsession : w'.session.transactionId = w.session.transactionId ∧ w'.session.current.uid = w.session.current.uid)
    (houtstanding : w'.outstanding = w.outstanding) (hstarted : w'.started = w.started)
    (hauth : w'.auth = w.auth ∨ w'.auth = none) (hfsm : w'.base.fsm = w.base.fsm) : OwnerInv w' := by
  refine h.of_eq hcleared hsession (fun r hr => houtstanding ▸ hr) hstarted (fun hoccupying => ?_) fun hin => ?_
  · rw [occupying] at hoccupying ⊢
    rcases hauth with hsame | hnone
    · rw [hsame] at hoccupying
      exact hoccupying
    · simp [hnone] at hoccupying
  · rw [hfsm]
    exact hin

theorem timely_csmsRequest (h : Timely w) (payload : Payload) : Timely (csmsRequest w payload) := by
  intro r hr
  rcases List.mem_append.mp hr with hr | hr
  · exact h r hr
  · rw [List.mem_singleton.mp hr]
    exact Nat.le_refl _

theorem keeps_csmsRequest (w : World) (payload : Payload) (h : payload.starter = none) :
    Keeps w (csmsRequest w payload) := by
  refine ⟨rfl, rfl, fun r hr => ?_, id⟩
  rcases List.mem_append.mp hr with hr | hr
  · exact .inl hr
  · rw [List.mem_singleton.mp hr]
    exact .inr ⟨h, rfl⟩

/-- A request that is neither for a transaction nor for an authorization that could occupy the connector. -/
theorem ownerFrame_csmsRequest (w : World) {payload : Payload} (hstarter : payload.starter = none)
    (hauthorize : payload.isAuthorize = true → occupying w = false) : OwnerFrame w (csmsRequest w payload) where
  toKeeps := keeps_csmsRequest w payload hstarter
  uid := rfl
  started := rfl
  occupying hoccupying := by
    refine ⟨hoccupying, fun r hr hr' => ?_⟩
    rcases List.mem_append.mp hr with hr | hr
    · exact hr
    · rw [List.mem_singleton.mp hr] at hr'
      exact absurd (hoccupying.symm.trans (hauthorize hr')) (by decide)

theorem ownerInv_clearSession (h : Timely w) : OwnerInv (clearSession w) := by
  have hsent : ∀ r ∈ w.outstanding, r.sentIn < w.cleared + 1 := fun r hr => Nat.lt_succ_of_le (h r hr)
  exact ⟨fun r hr => Nat.le_of_lt (hsent r hr), .inl (.inr ⟨rfl, fun r hr _ => hsent r hr⟩)⟩

end Frames

/-! ### The machine -/

section Machine

variable {env : Env} {w w' : World}

theorem ownerInv_sendConnectorStatus (h : OwnerInv w) (info : Option String) :
    OwnerInv (sendConnectorStatus w info) := by
  have hother : (doStatusnotification w info).isAuthorize = false := rfl
  exact (ownerFrame_csmsRequest w rfl fun h => absurd (hother.symm.trans h) (by decide)).ownerInv h

theorem timely_sendMeterValues (h : Timely w) (updated : Option SessionMetering) (measurands : Nat) :
    Timely (sendMeterValues w updated measurands) := by
  unfold sendMeterValues
  split
  · exact h
  · dsimp only
    split
    · exact timely_csmsRequest h _
    · exact h

theorem timely_sendMetering (h : Timely w) : Timely (sendMetering env w) :=
  timely_sendMeterValues (timely_sendMeterValues h _ _) _ _

theorem timely_doCharging (h : Timely w) (state : OcppState) : Timely (doCharging env state w) := by
  simp only [doCharging]
  split_ifs
  · exact timely_sendMetering h
  · exact timely_sendMetering (timely_csmsRequest h _)
  · exact h
  · exact timely_sendMetering h

theorem ownerInv_doMissingTransaction (h : OwnerInv w) (state : OcppState) :
    OwnerInv (doMissingTransaction env state w) := by
  simp only [doMissingTransaction]
  split_ifs
  · exact h
  · exact ownerInv_clearSession (timely_csmsRequest h.timely _)
  · exact h

theorem ownerInv_doUnavailable (h : Timely w) (state : OcppState) : OwnerInv (doUnavailable env state w) :=
  ownerInv_doMissingTransaction (ownerInv_clearSession (timely_csmsRequest h _)) state

theorem ownerInv_doAvailable (h : Timely w) (state : OcppState) : OwnerInv (doAvailable env state w) := by
  have hraised : Timely
      (if state = .preparing ∧ isSessionEstablished w = false then raiseEvent env w .unplugged else w) := by
    rw [raiseEvent_eq]
    split <;> exact h
  exact (ownerInv_doUnavailable hraised state).congr rfl ⟨rfl, rfl⟩ rfl rfl (.inl rfl) rfl

theorem ownerInv_doPreparing (h : OwnerInv w) (state : OcppState) : OwnerInv (doPreparing env state w) := by
  have hstatus : OwnerInv (if state ≠ .finishing then sendConnectorStatus w none else w) := by
    split
    · exact ownerInv_sendConnectorStatus h none
    · exact h
  exact (ownerInv_doMissingTransaction hstatus state).congr rfl ⟨rfl, rfl⟩ rfl rfl (.inl rfl) rfl

theorem timely_doFinishing (h : Timely w) (state : OcppState) : OwnerInv (doFinishing env state w) := by
  refine ownerInv_clearSession (timely_csmsRequest ?_ _)
  split_ifs
  · exact timely_csmsRequest h _
  · exact timely_csmsRequest h _
  · exact h

/-- The request for a transaction is sent with no other request outstanding, by the id the session belongs to. -/
theorem ownerInv_doRequestTid (hguard : isChargingRdy env .preparing w = true) (state : OcppState) :
    OwnerInv (doRequestTid env state w) := by
  simp only [isChargingRdy, ne_eq, not_true_eq_false, if_false, Bool.and_eq_true, isSessionActive,
    isSessionEstablished, isTransactionStarted, decide_eq_true_eq, Bool.not_eq_true', decide_eq_false_iff_not,
    not_not, countPendingRequests] at hguard
  obtain ⟨⟨⟨-, hestablished, -⟩, htid⟩, hpending⟩ := hguard
  have hnone : w.outstanding = [] := List.eq_nil_of_length_eq_zero (by
    have hcount := of_decide_eq_true hpending
    omega)
  have hrequest : ∀ r ∈ (doRequestTid env state w).outstanding,
      r.payload.starter = some w.session.current.uid ∧ r.payload.isAuthorize = false ∧ r.sentIn = w.cleared := by
    intro r hr
    simp only [doRequestTid, setSessionCurrentExpiry_eq, csmsRequest, readStartEnergy, hnone, List.nil_append,
      List.mem_singleton] at hr
    rw [hr]
    exact ⟨rfl, rfl, rfl⟩
  have hsame : (doRequestTid env state w).cleared = w.cleared ∧
      (doRequestTid env state w).session.current.uid = w.session.current.uid ∧
      (doRequestTid env state w).session.transactionId = w.session.transactionId := by
    simp only [doRequestTid, setSessionCurrentExpiry_eq]
    exact ⟨rfl, rfl, rfl⟩
  obtain ⟨hcleared, huid, htransaction⟩ := hsame
  refine ⟨fun r hr => ?_, .inr ⟨?_, ?_, ?_, ?_⟩⟩
  · rw [hcleared]
    exact Nat.le_of_eq (hrequest r hr).2.2
  · rw [huid]
    exact hestablished
  · intro r hr _ idTag hstarter
    rw [huid]
    exact Option.some.inj (hstarter.symm.trans (hrequest r hr).1)
  · intro hstarted
    exact absurd (htransaction.trans htid) hstarted
  · exact fun _ r hr => (hrequest r hr).2.1

theorem ownerInv_moves (h : OwnerInv w) (hmove : Moves env w w') : OwnerInv w' := by
  have hidle : ∀ {state}, w.base.fsm ≠ .charging ∧ w.base.fsm ≠ .suspendedEV →
      OwnerFrame w (enter state w) := by
    intro state hidle
    refine .of_eq rfl ⟨rfl, rfl⟩ (fun _ hr => hr) rfl id fun hin => ?_
    simp [inSession, hidle] at hin
  cases hmove with
  | stay => exact h
  | boot hfsm => exact h.of_eq rfl ⟨rfl, rfl⟩ (fun _ hr => hr) rfl id (by simp [hfsm, inSession])
  | unavailable => exact ownerInv_doUnavailable (w := enter .unavailable w) h.timely _
  | available => exact ownerInv_doAvailable (w := enter .available w) h.timely _
  | preparing hnot => exact ownerInv_doPreparing ((hidle ⟨hnot.1, hnot.2.1⟩).ownerInv h) _
  | faulted => exact ownerInv_clearSession (timely_csmsRequest (w := enter .faulted w) h.timely _)
  | reserved hfsm => exact ownerInv_sendConnectorStatus ((hidle (by simp [hfsm])).ownerInv h) none
  | requestTid hfsm hguard =>
      rw [enter_self hfsm]
      exact ownerInv_doRequestTid hguard .preparing
  | startCharging =>
      exact ⟨timely_doCharging (w := enter .charging w) h.timely _, .inl (.inl (by simp [inSession]))⟩
  | suspend =>
      have htimely : Timely (doSuspendedEV .charging (enter .suspendedEV w)) := timely_csmsRequest h.timely _
      exact ⟨htimely, .inl (.inl (by simp [inSession]))⟩
  | finish => exact timely_doFinishing (w := enter .finishing w) h.timely _
  | keepCharging =>
      exact ⟨timely_doCharging (w := enter .charging w) h.timely _, .inl (.inl (by simp [inSession]))⟩
  | resume => exact ⟨timely_doCharging (w := enter .charging w) h.timely _, .inl (.inl (by simp [inSession]))⟩
  | keepSuspended =>
      exact ⟨timely_doCharging (w := enter .suspendedEV w) h.timely _, .inl (.inl (by simp [inSession]))⟩

theorem ownerInv_core (w : World) : OwnerInv (core w) ↔ OwnerInv w := by
  constructor
  · exact fun h => h.congr rfl ⟨rfl, rfl⟩ rfl rfl (.inl rfl) rfl
  · exact fun h => h.congr rfl ⟨rfl, rfl⟩ rfl rfl (.inl rfl) rfl

theorem ownerInv_process (env : Env) (h : OwnerInv w) : OwnerInv (process env w) := by
  obtain ⟨w', hmove, hcore⟩ := process_moves env w
  have hstamp : OwnerInv (stampNow env w) := h.congr rfl ⟨rfl, rfl⟩ rfl rfl (.inl rfl) rfl
  rw [← ownerInv_core, hcore, ownerInv_core]
  exact ownerInv_moves hstamp hmove

end Machine

/-! ### The calls and the responses -/

section Calls

variable {env : Env} {w w' : World}

theorem OwnerInv.unclaimed_of_free (h : OwnerInv w) (hfree : hasActiveAuthorization w = false) : Unclaimed w := by
  rcases h.tenure with hunclaimed | hbound
  · exact hunclaimed
  · simp only [hasActiveAuthorization, isSessionEstablished, Bool.or_eq_false_iff, decide_eq_false_iff_not,
      not_not] at hfree
    exact absurd hfree.1 hbound.established

theorem OwnerInv.unclaimed_of_authorize (h : OwnerInv w) (hoccupying : occupying w = true) {req : Request}
    (hreq : req ∈ w.outstanding) (hauthorize : req.payload.isAuthorize = true) : Unclaimed w := by
  rcases h.tenure with hunclaimed | hbound
  · exact hunclaimed
  · exact absurd (hauthorize.symm.trans (hbound.authorize hoccupying req hreq)) (by decide)

theorem ownerInv_releasePendingRequestIfTimedout (h : OwnerInv w) :
    OwnerInv (releasePendingRequestIfTimedout env w) := by
  rw [releasePendingRequestIfTimedout_eq]
  split
  · exact h.congr rfl ⟨rfl, rfl⟩ rfl rfl (.inr rfl) rfl
  · exact h

theorem ownerInv_refused (h : OwnerInv w) (id : IdToken) (result : SessionResult) : OwnerInv (refused w id result) :=
  h.congr rfl ⟨rfl, rfl⟩ rfl rfl (.inr rfl) rfl

theorem ownerInv_tryOccupy (h : OwnerInv w) (id : IdToken) (remote : Bool) :
    OwnerInv (tryOccupy env w id remote (occupyCb remote)).1 := by
  have hoccupies := occupies env w id remote (occupyCb_ne_release remote)
  have h₁ : OwnerInv (releasePendingRequestIfTimedout env w) := ownerInv_releasePendingRequestIfTimedout h
  generalize (tryOccupy env w id remote (occupyCb remote)).1 = w' at hoccupies ⊢
  generalize releasePendingRequestIfTimedout env w = w₁ at hoccupies h₁
  -- all but a refusal need a session without an id
  have hfree : hasActiveAuthorization w₁ = false → Keeps w₁ w' → OwnerInv w' := fun hfree hkeeps =>
    hkeeps.ownerInv h₁.timely (h₁.unclaimed_of_free hfree)
  cases hoccupies with
  | refused => exact ownerInv_refused h₁ id _
  | granted hnone => exact hfree hnone ⟨rfl, rfl, fun r hr => .inl hr, fun hin => hin⟩
  | denied hnone => exact hfree hnone ⟨rfl, rfl, fun r hr => .inl hr, fun hin => hin⟩
  | asked hnone =>
      have hkeeps := keeps_csmsRequest (onTrial env w₁ id (occupyCb remote)) (.authorize id) rfl
      exact hfree hnone ⟨hkeeps.cleared, hkeeps.transactionId, hkeeps.outstanding, hkeeps.inSession⟩
  | preAuthorized hnone =>
      have hkeeps := keeps_csmsRequest (setAuthResultCb (granted env w₁ id) (occupyCb remote) id)
        (.authorize .empty) rfl
      exact hfree hnone ⟨hkeeps.cleared, hkeeps.transactionId, hkeeps.outstanding, hkeeps.inSession⟩

theorem ownerInv_release (h : OwnerInv w) (remote : Bool) : OwnerInv (release env w remote) := by
  have hin : w.base.fsm = .charging ∨ w.base.fsm = .suspendedEV → inSession w.base.fsm = true := by simp [inSession]
  simp only [release]
  split_ifs with hcharging hpending
  · exact ⟨h.timely, .inl (.inl (hin hcharging))⟩
  · exact ⟨h.timely, .inl (.inl (hin hcharging))⟩
  · exact ownerInv_clearSession h.timely

theorem ownerInv_onTrial (h : OwnerInv w) (id : IdToken) : OwnerInv (onTrial env w id .onReleaseResult) := by
  have hno : occupying (onTrial env w id .onReleaseResult) = false := rfl
  exact h.of_eq rfl ⟨rfl, rfl⟩ (fun _ hr => hr) rfl (fun hyes => absurd (hno.symm.trans hyes) (by decide)) fun hin => hin

theorem ownerInv_tryRelease (h : OwnerInv w) (id : IdToken) :
    OwnerInv (tryRelease env w id .onReleaseResult).1 := by
  have hreleases := releases env w id
  have h₁ : OwnerInv (releasePendingRequestIfTimedout env w) := ownerInv_releasePendingRequestIfTimedout h
  generalize (tryRelease env w id .onReleaseResult).1 = w' at hreleases ⊢
  generalize releasePendingRequestIfTimedout env w = w₁ at hreleases h₁
  cases hreleases with
  | refused result => exact ownerInv_refused h₁ id result
  | released =>
      have hreleased : OwnerInv (release env (onTrial env w₁ id .onReleaseResult) false) :=
        ownerInv_release (ownerInv_onTrial h₁ id) false
      exact hreleased.congr rfl ⟨rfl, rfl⟩ rfl rfl (.inr rfl) rfl
  | asked => exact (ownerFrame_csmsRequest _ rfl fun _ => rfl).ownerInv (ownerInv_onTrial h₁ id)

theorem ownerInv_dropRequest (h : OwnerInv w) (id : Nat) : OwnerInv (dropRequest w id) :=
  h.of_eq rfl ⟨rfl, rfl⟩ (fun _ hr => (List.mem_filter.mp hr).1) rfl (fun hoccupying => hoccupying) fun hin => hin

theorem ownerInv_mqSend (h : OwnerInv w) (msg : ChargerMsg) : OwnerInv (mqSend env w msg) := by
  unfold mqSend
  split
  · exact h.congr rfl ⟨rfl, rfl⟩ rfl rfl (.inl rfl) rfl
  · exact h

/-- The answer to an `Authorize.req` occupies the connector only while the session belongs to nobody. -/
theorem ownerInv_dispatchAuthResult (h : OwnerInv w) (hfree : occupying w = true → Unclaimed w)
    (result : SessionResult) : OwnerInv (dispatchAuthResult env w result) := by
  have hdelivers := delivers env w result
  generalize dispatchAuthResult env w result = w' at hdelivers ⊢
  cases hdelivers with
  | unregistered => exact h
  | ignored k => exact h.congr rfl ⟨rfl, rfl⟩ rfl rfl (.inr rfl) rfl
  | occupied k hauth hok hcb =>
      have hkeeps : Keeps w
          { occupy env w with auth := none, delivered := w.delivered ++ [(k.presented, result)] } := by
        rw [occupy_eq]
        exact ⟨rfl, rfl, fun r hr => .inl hr, fun hin => hin⟩
      exact hkeeps.ownerInv h.timely (hfree (by simp [occupying, hauth, hcb]))
  | released k =>
      have hreleased : OwnerInv (release env w false) := ownerInv_release h false
      exact hreleased.congr rfl ⟨rfl, rfl⟩ rfl rfl (.inr rfl) rfl

theorem ownerInv_doAuth (h : OwnerInv w) {req : Request} (hreq : req ∈ w.outstanding)
    (hauthorize : req.payload.isAuthorize = true) (id : Nat) (info : IdTagInfo) :
    OwnerInv (doAuth env (dropRequest w id) info) := by
  have hrecord : OwnerFrame w (recordAuthorization (dropRequest w id) info) := by
    have hfilter : ∀ r ∈ (dropRequest w id).outstanding, r ∈ w.outstanding := fun _ hr =>
      (List.mem_filter.mp hr).1
    simp only [recordAuthorization]
    split_ifs <;> exact .of_eq rfl ⟨rfl, rfl⟩ hfilter rfl (fun hoccupying => hoccupying) fun hin => hin
  refine ownerInv_dispatchAuthResult (hrecord.ownerInv h) (fun hoccupying => ?_) _
  exact hrecord.unclaimed (h.unclaimed_of_authorize (hrecord.occupying hoccupying).1 hreq hauthorize)

/-- An accepted transaction of a request that was sent in the session belongs to the id of the session. -/
theorem Bound.started (h : Bound w) {req : Request} (hreq : req ∈ w.outstanding) {idTag : IdToken}
    (hstarter : req.payload.starter = some idTag) {info : IdTagInfo} (haccepted : info.status = .accepted) (id : Nat)
    {transactionId : Int} (hsent : transactionId ≠ 0 → req.sentIn = w.cleared) :
    Bound (doStartTransaction env (dropRequest w id) req info transactionId) := by
  have hfilter : ∀ r ∈ (dropRequest w id).outstanding, r ∈ w.outstanding := fun _ hr => (List.mem_filter.mp hr).1
  rw [doStartTransaction_accepted env (dropRequest w id) req haccepted]
  refine ⟨h.established, fun r hr => h.requests r (hfilter r hr), fun hne => ?_, fun hoccupying r hr =>
    h.authorize hoccupying r (hfilter r hr)⟩
  have hidTag := h.requests req hreq (hsent hne) idTag hstarter
  refine ⟨(req, transactionId), List.mem_append_right _ List.mem_cons_self, rfl, ?_, hsent hne⟩
  exact hstarter.trans (congrArg some hidTag)

/-- No request for a transaction was sent in an idle session, so none that starts it is of the session. -/
theorem Idle.started (h : Idle w) {req : Request} (hreq : req ∈ w.outstanding)
    (hstarter : req.payload.starter ≠ none) {info : IdTagInfo} (haccepted : info.status = .accepted) (id : Nat)
    {transactionId : Int} (hsent : transactionId ≠ 0 → req.sentIn = w.cleared) :
    Idle (doStartTransaction env (dropRequest w id) req info transactionId) := by
  have hzero : transactionId = 0 := by
    by_contra hne
    have hlt := h.requests req hreq hstarter
    have heq := hsent hne
    omega
  rw [doStartTransaction_accepted env (dropRequest w id) req haccepted]
  exact ⟨hzero, fun r hr => h.requests r (List.mem_filter.mp hr).1⟩

theorem ownerInv_doStartTransaction (h : OwnerInv w) {req : Request} (hreq : req ∈ w.outstanding) {idTag : IdToken}
    (hstarter : req.payload.starter = some idTag) (id : Nat) (info : IdTagInfo) (transactionId : Int)
    (hown : info.status = .accepted → transactionId ≠ 0 → inSession w.base.fsm = false →
      req.sentIn = w.cleared) :
    OwnerInv (doStartTransaction env (dropRequest w id) req info transactionId) := by
  have htimely : Timely (dropRequest w id) := (ownerInv_dropRequest h id).timely
  by_cases haccepted : info.status = .accepted
  · refine ⟨?_, ?_⟩
    · rw [doStartTransaction_accepted env (dropRequest w id) req haccepted]
      exact htimely
    · by_cases hin : inSession w.base.fsm = true
      · refine .inl (.inl ?_)
        rw [doStartTransaction_base]
        exact hin
      · have hsent : transactionId ≠ 0 → req.sentIn = w.cleared := fun hne =>
          hown haccepted hne (by simpa using hin)
        rcases h.tenure with (hin' | hidle) | hbound
        · exact absurd hin' hin
        · exact .inl (.inr (hidle.started hreq (by simp [hstarter]) haccepted id hsent))
        · exact .inr (hbound.started hreq hstarter haccepted id hsent)
  · rw [doStartTransaction_rejected env (dropRequest w id) req haccepted]
    exact ownerInv_clearSession htimely

end Calls

/-! ### Every transition to Charging -/

/-- A call of `ocpp_connector_occupy` that no result callback makes. -/
def Event.isOccupy : Event → Bool
  | .occupy _ => true
  | _ => false

/-- An accepted `StartTransaction.conf` answers a request sent in the present session, unless it comes in a charging state. -/
def AnswersOwn (w : World) : Event → Prop
  | .receive _ id (.startTransaction info transactionId) =>
      info.status = .accepted → transactionId ≠ 0 → inSession w.base.fsm = false →
        ∀ req ∈ getMessageById w id, req.payload.starter ≠ none → req.sentIn = w.cleared
  | _ => True

instance (w : World) (e : Event) : Decidable (AnswersOwn w e) := by
  unfold AnswersOwn
  split <;> infer_instance

theorem ownerInv_receive {w : World} (env : Env) (h : OwnerInv w) (id : Nat) (response : Response)
    (hown : AnswersOwn w (.receive env id response)) : OwnerInv (receive env w id response) := by
  unfold receive
  cases hmsg : getMessageById w id with
  | none => exact h
  | some req =>
      have hreq : req ∈ w.outstanding := List.mem_of_find?_eq_some hmsg
      simp only [handlerProcess]
      cases hpayload : req.payload with
      | authorize idTag =>
          cases response with
          | authorize info => exact ownerInv_doAuth h hreq (by rw [hpayload]; rfl) id info
          | _ => exact ownerInv_dropRequest h id
      | startTransaction connectorId idTag meterStart timestamp reservationId =>
          cases response with
          | startTransaction info transactionId =>
              have hstarter : req.payload.starter = some idTag := by rw [hpayload]; rfl
              refine ownerInv_doStartTransaction h hreq hstarter id info transactionId fun haccepted hne hout => ?_
              exact hown haccepted hne hout req hmsg (by simp [hstarter])
          | _ => exact ownerInv_dropRequest h id
      | stopTransaction idTag meterStop timestamp transactionId reason =>
          cases response with
          | stopTransaction => exact ownerInv_mqSend (ownerInv_dropRequest h id) .billingEnded
          | _ => exact ownerInv_dropRequest h id
      | _ => exact ownerInv_dropRequest h id

theorem ownerInv_mqRecv {w : World} (env : Env) (h : OwnerInv w) : OwnerInv (mqRecv env w) := by
  unfold mqRecv
  split
  · exact h
  · simp only [msgHandler, procStartTransaction, procStopTransaction, raiseEvent_eq]
    split <;> exact h.congr rfl ⟨rfl, rfl⟩ rfl rfl (.inl rfl) rfl

theorem ownerInv_step (w : World) (e : Event) (h : OwnerInv w) (hC : e.isOccupy = false ∧ AnswersOwn w e) :
    OwnerInv (step w e) := by
  cases e with
  | process env =>
      simp only [step]
      split
      · exact ownerInv_process env h
      · exact h
  | enable env => exact h.congr rfl ⟨rfl, rfl⟩ rfl rfl (.inl rfl) (w.base.enable_fsm env.toReadings)
  | disable => exact h.congr rfl ⟨rfl, rfl⟩ rfl rfl (.inl rfl) rfl
  | setReserved reserved => exact h.congr rfl ⟨rfl, rfl⟩ rfl rfl (.inl rfl) rfl
  | tryOccupy env id remote => exact ownerInv_tryOccupy h id remote
  | tryRelease env id => exact ownerInv_tryRelease h id
  | occupy env => exact absurd hC.1 (by simp [Event.isOccupy])
  | release env remote => exact ownerInv_release h remote
  | receive env id response => exact ownerInv_receive env h id response hC.2
  | drop id => exact ownerInv_dropRequest h id
  | mqRecv env => exact ownerInv_mqRecv env h
  | bootAccepted env => exact ownerInv_mqSend h _
  | changeAvailability env available =>
      have hchanged : OwnerInv { w with checkpoint.unavailable := !available } :=
        h.congr rfl ⟨rfl, rfl⟩ rfl rfl (.inl rfl) rfl
      exact ownerInv_mqSend hchanged _
  | changeConfiguration env => exact ownerInv_mqSend h _
  | clearCache => exact h.congr rfl ⟨rfl, rfl⟩ rfl rfl (.inl rfl) rfl
  | reset env forced => exact ownerInv_mqSend h _

theorem owned_core (w : World) : Owned (core w) ↔ Owned w := Iff.rfl

/-- The row from Preparing to Charging is taken with a transaction started, and leaves the session as it is. -/
theorem owned_of_charging {w : World} (h : OwnerInv w) (e : Event) (hpreparing : w.base.fsm = .preparing)
    (hcharging : (step w e).base.fsm = .charging) : Owned (step w e) := by
  by_cases hprocess : ∃ env, e = .process env
  · obtain ⟨env, rfl⟩ := hprocess
    simp only [step] at hcharging ⊢
    split at hcharging
    · rename_i henabled
      rw [if_pos henabled]
      obtain ⟨w', hmove, hcore⟩ := process_moves env w
      have hfsm : w'.base.fsm = .charging := by
        have hsame : (core (process env w)).base.fsm = (core w').base.fsm := by rw [hcore]
        exact hsame.symm.trans hcharging
      have howned : Owned w' := by
        cases hmove with
        | startCharging hfsm' hguard =>
            have hstarted : w.session.transactionId ≠ 0 := by
              simp only [isCharging, isTransactionStarted, if_true, Bool.and_eq_true, decide_eq_true_eq] at hguard
              exact hguard.2
            rcases h.tenure with (hin | hidle) | hbound
            · rw [hpreparing] at hin
              exact absurd hin (by decide)
            · exact absurd hidle.transactionId hstarted
            · exact hbound.transaction hstarted
        | stay => exact absurd (hpreparing.symm.trans hfsm) (by decide)
        | keepCharging hfsm' => exact absurd (hpreparing.symm.trans hfsm') (by decide)
        | resume hfsm' => exact absurd (hpreparing.symm.trans hfsm') (by decide)
        | _ => simp at hfsm
      rw [← owned_core, hcore, owned_core]
      exact howned
    · exact absurd (hpreparing.symm.trans hcharging) (by decide)
  · rw [step_fsm_of_not_process w fun env he => hprocess ⟨env, he⟩] at hcharging
    exact absurd (hpreparing.symm.trans hcharging) (by decide)

/-- In a run in which every accepted `StartTransaction.conf` that comes outside the charging states answers a request of the present session, each transition to Charging is made with a transaction of the id and the session that charge. -/
theorem charging_owned_of_answers_own (boot : Boot) (evs : List Event)
    (h : EveryStep step (fun w e => e.isOccupy = false ∧ AnswersOwn w e) boot.start evs) :
    EveryStep step (fun w e => w.base.fsm = .preparing → (step w e).base.fsm = .charging → Owned (step w e))
      boot.start evs := by
  have hstart : OwnerInv boot.start :=
    ⟨fun r hr => absurd hr List.not_mem_nil, .inl (.inr ⟨rfl, fun r hr => absurd hr List.not_mem_nil⟩)⟩
  exact everyStep_of_conditional_invariant ownerInv_step (fun w e hinv _ => owned_of_charging hinv e) hstart h

/-- A session from boot to charging is such a run. -/
theorem charging_owned_in_session :
    (run step freshBoot.start (bootEvents ++ startEvents ++ chargeEvents)).base.fsm = .charging ∧
      EveryStep step (fun w e => w.base.fsm = .preparing → (step w e).base.fsm = .charging → Owned (step w e))
        freshBoot.start (bootEvents ++ startEvents ++ chargeEvents) :=
  ⟨by decide +kernel, charging_owned_of_answers_own freshBoot _ (by decide +kernel)⟩

/-- The car of card A is unplugged before the answer to its `StartTransaction.req` comes. Card B occupies the connector, and the late answer starts its session with the transaction of card A. -/
def lateAnswer : List Event :=
  bootEvents ++ [
    .tryOccupy { now := 10, trialTime := 10 } cardA false,
    .receive { occupyTime := 10 } 1 (.authorize { status := .accepted }),
    .process { pilot := ⟨.b, 100⟩, now := 11 }, .drop 2,
    .process { pilot := ⟨.b, 100⟩, now := 12 },
    .process { pilot := ⟨.a, 100⟩, now := 13 }, .drop 4,
    .tryOccupy { now := 14, trialTime := 14 } cardB false,
    .receive { occupyTime := 14 } 5 (.authorize { status := .accepted }),
    .process { pilot := ⟨.b, 100⟩, now := 15 }, .drop 6,
    .receive {} 3 (.startTransaction { status := .accepted } 7),
    .process { pilot := ⟨.b, 100⟩, now := 16 }]

theorem charging_with_transaction_of_another :
    ¬ EveryStep step (fun w e => w.base.fsm = .preparing → (step w e).base.fsm = .charging → Owned (step w e))
        freshBoot.start lateAnswer := by
  decide +kernel

end Evse.Ocpp
