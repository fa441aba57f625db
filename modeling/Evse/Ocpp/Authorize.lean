import Evse.Ocpp.Connector
import Mathlib.Algebra.Ring.Int.Defs

/-!
# Authorization

The calls of `ocpp_connector.c` that occupy and release a connector, with the result callbacks of their callers: `cmd_idtag.c` for a card, `handler.c` for a remote start. A callback takes the id it acts for from the session's trial slot, so the order in which the calls write that slot is kept as it is in the source.
-/

namespace Evse.Ocpp

/-- What the calls return: 0 or a negative error number. -/
inductive Errno where
  | ok | busy | notSup | perm
  deriving DecidableEq, Repr

section Session

variable (env : Env) (w : World)

def isSessionUidEqual (uid : IdToken) : Bool := uid ≠ .empty && w.session.current.uid = uid

def isSessionPidEqual (pid : IdToken) : Bool := pid ≠ .empty && w.session.current.pid = pid

def hasActiveAuthorization : Bool := isSessionEstablished w || isSessionPending w

def canUserRelease : Bool :=
  isSessionUidEqual w w.session.trial.uid ||
    isSessionPidEqual w (uidParent w.cache w.session.trial.uid)

def occupy : World :=
  let w := setSessionUid w w.session.trial.uid
  let w := clearSessionPending w
  let w := setSessionCurrentExpiry w (env.occupyTime + env.config.connectionTimeOut)
  { w with occupations := w.occupations ++ [w.session.current.uid] }

/-- In a charging session the trial id is left for the `StopTransaction.req` to carry. -/
def release (remote : Bool) : World :=
  if w.base.fsm = .charging ∨ w.base.fsm = .suspendedEV then
    let w := if isSessionPending w then w else setSessionPending env w w.session.current.uid
    { w with session.current := {}, session.remoteStop := remote }
  else clearSession w

/-- `on_occupy_result` and `on_remote_start_result` do the same. -/
def ResultCb.run (cb : ResultCb) (result : SessionResult) : World :=
  match cb with
  | .onOccupyResult | .onRemoteStartResult => if result = .ok then occupy env w else w
  | .onReleaseResult =>
      if result = .ok ∧ canUserRelease w = true then
        { release env w false with releases := w.releases ++ [w.session.trial.uid] }
      else w

def setAuthResultCb (cb : ResultCb) (presented : IdToken) : World := { w with auth := some ⟨cb, presented⟩ }

def dispatchAuthResult (result : SessionResult) : World :=
  match w.auth with
  | none => w
  | some k =>
      { k.cb.run env w result with auth := none, delivered := w.delivered ++ [(k.presented, result)] }

def authorizeLocally (uid : IdToken) : UidStatus :=
  let status := if env.config.localAuthListEnabled then uidStatus w.localList uid else .noEntry
  if status = .noEntry ∧ env.config.authorizationCacheEnabled = true then uidStatus w.cache uid else status

end Session

section Calls

variable (env : Env) (w : World)

/-- The condition under which `occupy_online` answers from the local list or the cache. -/
def isPreAuthorized (id : IdToken) (remote : Bool) : Bool :=
  !remote && env.config.localPreAuthorize && authorizeLocally env w id = .accepted

/-- A local result does not end the call: the callback is registered again and the request sent. -/
def occupyOnline (id : IdToken) (remote : Bool) (cb : ResultCb) : World × Errno :=
  let w := if isPreAuthorized env w id remote then dispatchAuthResult env w .ok else w
  let w := setAuthResultCb w cb id
  (csmsRequest w (doAuthorize w), .ok)

def offlineStatus (id : IdToken) : UidStatus :=
  let status := authorizeLocally env w id
  if status = .noEntry ∧ env.config.allowOfflineTxForUnknownId = true then .accepted else status

def occupyOffline (id : IdToken) : World × Errno :=
  if !env.config.localAuthorizeOffline then
    (dispatchAuthResult env (clearSessionPending w) .notSupported, .notSup)
  else if offlineStatus env w id ≠ .accepted then
    (dispatchAuthResult env (clearSessionPending w) .rejected, .perm)
  else (dispatchAuthResult env w .ok, .ok)

/-- The elapsed time is cut to 32 bits. -/
def releasePendingRequestIfTimedout : World :=
  if isSessionPending w then
    let elapsed := ((env.now - w.session.authTimestamp) % 2 ^ 32).toNat
    if elapsed ≥ env.config.connectionTimeOut then clearSessionPending (dispatchAuthResult env w .timeout)
    else w
  else w

def tryOccupy (id : IdToken) (remote : Bool) (cb : ResultCb) : World × Errno :=
  let w := releasePendingRequestIfTimedout env w
  let w := setAuthResultCb w cb id
  if hasActiveAuthorization w then (dispatchAuthResult env w .alreadyOccupied, .busy)
  else
    let w := setSessionPending env w id
    if remote = true ∧ env.config.authorizeRemoteTxRequests = false then (dispatchAuthResult env w .ok, .ok)
    else if env.csmsConnected then occupyOnline env w id remote cb
    else occupyOffline env w id

def tryRelease (id : IdToken) (cb : ResultCb) : World × Errno :=
  let w := releasePendingRequestIfTimedout env w
  let w := setAuthResultCb w cb id
  if !isSessionEstablished w then (dispatchAuthResult env w .pending, .busy)
  else if isSessionUidEqual w id then
    (dispatchAuthResult env (setSessionPending env w id) .ok, .ok)
  else if env.csmsConnected then
    let w := setSessionPending env w id
    (csmsRequest w (doAuthorize w), .ok)
  else (dispatchAuthResult env w .notMatched, .perm)

end Calls

end Evse.Ocpp
