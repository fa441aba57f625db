import Evse.Ocpp.Calls
import Evse.Ocpp.System

/-!
# Authorization while the CSMS is down

`occupy_offline` decides on what the local list and the cache say of an id. The first enabled source that has an entry decides by its status, and without an entry a setting does. The expiry stored with an entry is not asked for. A connector that is taken refuses before any of this.
-/

namespace Evse.Ocpp

/-- `csms_is_up` answers no. -/
def Env.offline (env : Env) : Env := { env with csmsConnected := false }

section Decision

variable (env : Env) (w : World) (id : IdToken)

/-- What a store says of an id. A stored status of `UID_STATUS_NO_ENTRY` says nothing. -/
def heeded (store : UidStore) : Option UidEntry := (store id).filter (·.status ≠ .noEntry)

/-- The entry of the first enabled source that has one: the list, then the cache. -/
def consulted : Option UidEntry :=
  (if env.config.localAuthListEnabled then heeded id w.localList else none).or
    (if env.config.authorizationCacheEnabled then heeded id w.cache else none)

/-- The decision, by what makes an entry good. -/
def OfflineDecision (good : UidEntry → Prop) : Prop :=
  env.config.localAuthorizeOffline = true ∧
    (consulted env w id).elim (env.config.allowOfflineTxForUnknownId = true) good

def Accepted (entry : UidEntry) : Prop := entry.status = .accepted

/-- Accepted, with no expiry or one that is still to come. -/
def AcceptedAt (now : Int) (entry : UidEntry) : Prop := Accepted entry ∧ (entry.expiry = 0 ∨ now < entry.expiry)

/-- The caller is told the result last. -/
def Reports (result : SessionResult) : Prop := w.delivered.getLast? = some (id, result)

variable {id}

theorem uidStatus_eq_heeded (store : UidStore) :
    uidStatus store id = ((heeded id store).map UidEntry.status).getD .noEntry := by
  unfold uidStatus heeded
  cases store id with
  | none => rfl
  | some entry =>
      by_cases hnone : entry.status = .noEntry
      · rw [Option.filter_some, if_neg (by simpa using hnone)]
        exact hnone
      · rw [Option.filter_some, if_pos (by simpa using hnone)]
        rfl

theorem status_heeded {store : UidStore} {entry : UidEntry} (h : heeded id store = some entry) :
    entry.status ≠ .noEntry := by
  simpa using (Option.filter_eq_some_iff.1 h).2

theorem authorizeLocally_eq :
    authorizeLocally env w id = ((consulted env w id).map UidEntry.status).getD .noEntry := by
  have hlist : (if env.config.localAuthListEnabled then uidStatus w.localList id else .noEntry) =
      ((if env.config.localAuthListEnabled then heeded id w.localList else none).map UidEntry.status).getD .noEntry := by
    split
    · exact uidStatus_eq_heeded w.localList
    · rfl
  unfold authorizeLocally consulted
  rw [hlist]
  cases hfirst : (if env.config.localAuthListEnabled then heeded id w.localList else none) with
  | none =>
      simp only [Option.map_none, Option.getD_none, true_and, Option.none_or]
      split
      · exact uidStatus_eq_heeded w.cache
      · rfl
  | some entry =>
      -- An entry of the list is one whose status is not `noEntry`, so the cache is not asked.
      have hentry : entry.status ≠ .noEntry := by
        split at hfirst
        · exact status_heeded hfirst
        · cases hfirst
      simp only [Option.map_some, Option.getD_some, Option.some_or]
      rw [if_neg fun hboth => hentry hboth.1]

theorem offlineStatus_accepted_iff :
    offlineStatus env w id = .accepted ↔
      (consulted env w id).elim (env.config.allowOfflineTxForUnknownId = true) Accepted := by
  have hnone : ∀ entry, consulted env w id = some entry → entry.status ≠ .noEntry := by
    intro entry hentry
    unfold consulted at hentry
    rw [Option.or_eq_some_iff] at hentry
    obtain hlist | ⟨-, hcache⟩ := hentry
    · split at hlist
      · exact status_heeded hlist
      · cases hlist
    · split at hcache
      · exact status_heeded hcache
      · cases hcache
  unfold offlineStatus
  simp only [authorizeLocally_eq]
  cases hconsulted : consulted env w id with
  | none => simp
  | some entry =>
      have hentry := hnone entry hconsulted
      simp only [Option.map_some, Option.getD_some, Option.elim_some]
      rw [if_neg fun hboth => hentry hboth.1]
      rfl

end Decision

/-! ### The call -/

section Call

variable (env : Env) (w : World) (id : IdToken) (cb : ResultCb)

/-- What `occupy_offline` makes of an id that is on trial. -/
theorem occupyOffline_onTrial :
    (Reports (occupyOffline env (onTrial env w id cb) id).1 id .ok ↔ OfflineDecision env w id Accepted) ∧
      ((occupyOffline env (onTrial env w id cb) id).2 = .ok ↔ OfflineDecision env w id Accepted) ∧
      (¬ OfflineDecision env w id Accepted → (occupyOffline env (onTrial env w id cb) id).1.session.trial = {}) := by
  have hstatus : offlineStatus env (onTrial env w id cb) id = .accepted ↔ _ := offlineStatus_accepted_iff env w
  have hdenied : ∀ result, result ≠ .ok → ¬ Reports (denied env w id result) id .ok := by
    intro result hresult hreports
    simp only [Reports, denied, List.getLast?_append, List.getLast?_singleton, Option.some_or, Option.some.injEq,
      Prod.mk.injEq, true_and] at hreports
    exact hresult hreports
  unfold OfflineDecision occupyOffline
  by_cases hallowed : env.config.localAuthorizeOffline = true
  · rw [if_neg (by simpa using hallowed)]
    simp only [hallowed, true_and, ← hstatus]
    by_cases haccepted : offlineStatus env (onTrial env w id cb) id = .accepted
    · rw [if_neg (not_not.2 haccepted)]
      refine ⟨iff_of_true ?_ haccepted, iff_of_true rfl haccepted, fun hnot => absurd haccepted hnot⟩
      show (w.delivered ++ [(id, SessionResult.ok)]).getLast? = _
      simp
    · rw [if_pos haccepted, dispatch_denied env w id (by decide)]
      exact ⟨iff_of_false (hdenied _ (by decide)) haccepted, iff_of_false (nomatch ·) haccepted, fun _ => rfl⟩
  · rw [if_pos (by simpa using hallowed), dispatch_denied env w id (by decide)]
    exact ⟨iff_of_false (hdenied _ (by decide)) fun hboth => hallowed hboth.1,
      iff_of_false (nomatch ·) fun hboth => hallowed hboth.1, fun _ => rfl⟩

theorem tryOccupy_offline :
    tryOccupy env.offline w id false cb =
      if hasActiveAuthorization (releasePendingRequestIfTimedout env.offline w) then
        (refused (releasePendingRequestIfTimedout env.offline w) id .alreadyOccupied, .busy)
      else
        occupyOffline env.offline (onTrial env.offline (releasePendingRequestIfTimedout env.offline w) id cb) id := by
  unfold tryOccupy
  generalize releasePendingRequestIfTimedout env.offline w = w₁
  have hactive : hasActiveAuthorization (setAuthResultCb w₁ cb id) = hasActiveAuthorization w₁ := rfl
  have hdown : env.offline.csmsConnected = false := rfl
  simp only [hactive, hdown, Bool.false_eq_true, false_and, if_false]
  rw [dispatch_refused env.offline w₁ id (by decide)]
  rfl

/-- While the CSMS is down, a call on a free connector succeeds exactly if offline authorization is allowed and the first enabled source with an entry says accepted, or there is no entry and unknown ids are allowed; otherwise the pending id is cleared and an error returned. A connector that is taken refuses, and what was pending stays. -/
theorem offline_decision :
    (hasActiveAuthorization (releasePendingRequestIfTimedout env.offline w) = false →
      (Reports (tryOccupy env.offline w id false cb).1 id .ok ↔ OfflineDecision env w id Accepted) ∧
        ((tryOccupy env.offline w id false cb).2 = .ok ↔ OfflineDecision env w id Accepted) ∧
        (¬ OfflineDecision env w id Accepted → (tryOccupy env.offline w id false cb).1.session.trial = {})) ∧
      (hasActiveAuthorization (releasePendingRequestIfTimedout env.offline w) = true →
        Reports (tryOccupy env.offline w id false cb).1 id .alreadyOccupied ∧
          (tryOccupy env.offline w id false cb).2 = .busy ∧
          (tryOccupy env.offline w id false cb).1.session =
            (releasePendingRequestIfTimedout env.offline w).session) := by
  have hstores : OfflineDecision env (releasePendingRequestIfTimedout env.offline w) id Accepted =
      OfflineDecision env w id Accepted :=
    releasePendingRequestIfTimedout_frame env.offline w (f := fun w => OfflineDecision env w id Accepted) fun _ => rfl
  rw [tryOccupy_offline, ← hstores]
  generalize releasePendingRequestIfTimedout env.offline w = w₁
  constructor
  · intro hfree
    rw [if_neg (by simp [hfree])]
    exact occupyOffline_onTrial env.offline w₁ id cb
  · intro htaken
    rw [if_pos htaken]
    refine ⟨?_, rfl, rfl⟩
    simp [Reports, refused]

end Call

/-- Offline authorization from the cache. -/
def fromCache : Env := { now := 10, config := { localAuthorizeOffline := true, authorizationCacheEnabled := true } }

/-- A connector whose cache has card A accepted until 5. -/
def lapsed : World := { freshBoot.start with cache := uidUpdate freshBoot.cache cardA .empty .accepted 5 }

/-- Card A is presented at 10, and accepted. -/
theorem lapsed_entry_accepted :
    hasActiveAuthorization (releasePendingRequestIfTimedout fromCache.offline lapsed) = false ∧
      Reports (tryOccupy fromCache.offline lapsed cardA false .onOccupyResult).1 cardA .ok ∧
      ¬ OfflineDecision fromCache lapsed cardA (AcceptedAt fromCache.now) := by
  refine ⟨by decide, by unfold Reports; decide +kernel, ?_⟩
  have hconsulted : consulted fromCache lapsed cardA = some ⟨.empty, .accepted, 5⟩ := by decide +kernel
  rintro ⟨-, hgood⟩
  rw [hconsulted] at hgood
  exact absurd hgood.2 (by decide)

end Evse.Ocpp
