import Evse.Ocpp.Charger
import Evse.Ocpp.Told

/-!
# Rebooting and charging sessions

For a reboot the updater asks for, `ext_post_process` looks at the states of the connectors. For a soft reset it does not: it relies on the flag that the reset sets in each connector, which takes a connector out of its session, and on the requests that are then pending. The flag is in every connector by the end of the iteration in which the reset comes in, and a session that is under way is left with a request. But one that is about to begin begins silently: the rows from Preparing and from SuspendedEV into Charging do not look at the flag, and need not send anything.
-/

namespace Evse.Ocpp

open StepRun RowTable

/-! ### All connectors -/

/-- The pending requests of a list of connectors. -/
def total (ws : List World) : Nat := (ws.map (·.outstanding.length)).sum

theorem total_cons (w : World) (ws : List World) : total (w :: ws) = pending w + total ws := rfl

namespace Charger

/-- The connectors with their readings in an iteration that finds no request pending. -/
def alone (envs : Nat → Env) : List World → List (Env × World)
  | [] => []
  | w :: ws => ((envs 0).amid 0, w) :: alone (fun n => envs (n + 1)) ws

/-- No enabled connector sends a request. -/
def AllSilent (envs : Nat → Env) (ws : List World) : Prop :=
  ∀ p ∈ alone envs ws, p.2.base.enabled = true → silent p.1 (stampNow p.1 p.2) = true

/-- An enabled connector goes into Charging. -/
def SomeEnters (envs : Nat → Env) (ws : List World) : Prop :=
  ∃ p ∈ alone envs ws, p.2.base.enabled = true ∧ entersCharging p.1 (stampNow p.1 p.2) = true

/-- An enabled connector is in a session. -/
def SomeCharging (ws : List World) : Prop :=
  ∃ w ∈ ws, w.base.enabled = true ∧ (w.base.fsm = .charging ∨ w.base.fsm = .suspendedEV)

section Connectors

variable {envs : Nat → Env} {n : Nat} {w : World} {ws : List World}

theorem processConnectors_cons :
    processConnectors envs n (w :: ws) =
      connectorProcess ((envs 0).amid (n + total ws)) w ::
        processConnectors (fun i => envs (i + 1))
          (n + pending (connectorProcess ((envs 0).amid (n + total ws)) w)) ws := rfl

theorem allSilent_cons :
    AllSilent envs (w :: ws) ↔
      (w.base.enabled = true → silent ((envs 0).amid 0) (stampNow ((envs 0).amid 0) w) = true) ∧
        AllSilent (fun i => envs (i + 1)) ws :=
  List.forall_mem_cons

theorem someEnters_cons :
    SomeEnters envs (w :: ws) ↔
      (w.base.enabled = true ∧ entersCharging ((envs 0).amid 0) (stampNow ((envs 0).amid 0) w) = true) ∨
        SomeEnters (fun i => envs (i + 1)) ws :=
  List.exists_mem_cons_iff _ _ _

theorem someCharging_cons :
    SomeCharging (w :: ws) ↔
      (w.base.enabled = true ∧ (w.base.fsm = .charging ∨ w.base.fsm = .suspendedEV)) ∨ SomeCharging ws :=
  List.exists_mem_cons_iff _ _ _

theorem told_connectorProcess (hflag : w.remoteResetRequested = true) (env : Env) (henabled : w.base.enabled = true) :
    Told env (stampNow env w) (connectorProcess env w) := by
  rw [connectorProcess, Ocpp.step, if_pos henabled]
  exact told_process env hflag

theorem connectorProcess_disabled (env : Env) (hdisabled : ¬ w.base.enabled = true) : connectorProcess env w = w := by
  rw [connectorProcess, Ocpp.step, if_neg hdisabled]

theorem connectorProcess_enabled (env : Env) : (connectorProcess env w).base.enabled = w.base.enabled := by
  by_cases henabled : w.base.enabled = true
  · rw [connectorProcess, Ocpp.step, if_pos henabled]
    exact congrArg Prod.fst (wiring_process env w)
  · rw [connectorProcess_disabled env henabled]

/-- Nothing is pending after the connectors have been stepped exactly when nothing was and none of them sends anything. -/
theorem total_processConnectors (envs : Nat → Env) (n : Nat) (hflag : ∀ w ∈ ws, w.remoteResetRequested = true) :
    n + total (processConnectors envs n ws) = 0 ↔ n + total ws = 0 ∧ AllSilent envs ws := by
  induction ws generalizing envs n with
  | nil => exact ⟨fun h => ⟨h, by intro p hp; cases hp⟩, fun h => h.1⟩
  | cons w ws ih =>
      obtain ⟨hflag, hflags⟩ := List.forall_mem_cons.mp hflag
      have hrest := ih (fun i => envs (i + 1)) (n + pending (connectorProcess ((envs 0).amid (n + total ws)) w)) hflags
      rw [processConnectors_cons, total_cons, total_cons, ← Nat.add_assoc, hrest, allSilent_cons, ← and_assoc]
      refine and_congr_left fun _ => ?_
      by_cases henabled : w.base.enabled = true
      · by_cases hothers : n + total ws = 0
        · rw [hothers]
          have htold := told_connectorProcess hflag ((envs 0).amid 0) henabled
          cases htold with
          | sends hsilent hless =>
              have hmore : 0 < pending (connectorProcess ((envs 0).amid 0) w) :=
                Nat.lt_of_le_of_lt (Nat.zero_le _) hless
              refine iff_of_false (by omega) fun h => ?_
              rw [h.2 henabled] at hsilent
              cases hsilent
          | silent hsilent hsame =>
              have hsame : pending (connectorProcess ((envs 0).amid 0) w) = pending w := hsame
              rw [hsame]
              constructor
              · intro h
                exact ⟨by omega, fun _ => hsilent⟩
              · intro h
                have hnone := h.1
                omega
        · exact iff_of_false (by omega) fun h => absurd h.1 (by omega)
      · rw [connectorProcess_disabled _ henabled]
        constructor
        · intro h
          exact ⟨by omega, fun h => absurd h henabled⟩
        · intro h
          have hnone := h.1
          omega

/-- If so, a connector is in a session afterwards exactly when one has gone into Charging. -/
theorem someCharging_processConnectors (hflag : ∀ w ∈ ws, w.remoteResetRequested = true) (hnone : n + total ws = 0)
    (hsilent : AllSilent envs ws) : SomeCharging (processConnectors envs n ws) ↔ SomeEnters envs ws := by
  induction ws generalizing envs n with
  | nil => exact ⟨fun ⟨w, hw, _⟩ => absurd hw List.not_mem_nil, fun ⟨p, hp, _⟩ => absurd hp List.not_mem_nil⟩
  | cons w ws ih =>
      obtain ⟨hflag, hflags⟩ := List.forall_mem_cons.mp hflag
      obtain ⟨hfirst, hothers⟩ := allSilent_cons.mp hsilent
      rw [total_cons] at hnone
      have hzero : n + total ws = 0 := by omega
      rw [processConnectors_cons, hzero, someCharging_cons, someEnters_cons, connectorProcess_enabled]
      by_cases henabled : w.base.enabled = true
      · have htold := told_connectorProcess hflag ((envs 0).amid 0) henabled
        cases htold with
        | sends hloud => exact absurd ((hfirst henabled).symm.trans hloud) (by decide)
        | silent _ hsame hfsm =>
            have hsame : pending (connectorProcess ((envs 0).amid 0) w) = pending w := hsame
            exact or_congr (and_congr_right fun _ => hfsm) (ih hflags (by rw [hsame]; omega) hothers)
      · rw [connectorProcess_disabled _ henabled]
        exact or_congr (iff_of_false (fun h => henabled h.1) fun h => henabled h.1) (ih hflags (by omega) hothers)

end Connectors

end Charger

/-! ### The flag and the queue -/

/-- The flag and the queue, through which the news of a reset spreads. -/
def news (w : World) : Bool × List ChargerMsg := (w.remoteResetRequested, w.msgq)

theorem AuthFrame.news {w w' : World} (h : AuthFrame w w') : news w' = news w :=
  Prod.ext h.remoteReset h.msgq

/-- The flag is left alone, and the queue has at most one message more. -/
structure Discreet (w w' : World) : Prop where
  flag : w'.remoteResetRequested = w.remoteResetRequested
  msgq : w'.msgq.length ≤ w.msgq.length + 1

theorem Discreet.of_news {w w' : World} (h : news w' = news w) : Discreet w w' := by
  refine ⟨congrArg Prod.fst h, ?_⟩
  rw [show w'.msgq = w.msgq from congrArg Prod.snd h]
  exact Nat.le_succ _

theorem discreet_mqSend (env : Env) (w : World) (msg : ChargerMsg) : Discreet w (mqSend env w msg) := by
  unfold mqSend
  split
  · exact ⟨rfl, Nat.le_of_eq (List.length_append)⟩
  · exact ⟨rfl, Nat.le_succ _⟩

theorem discreet_doStartTransaction (env : Env) (w : World) (req : Request) (info : IdTagInfo) (transactionId : Int) :
    Discreet w (doStartTransaction env w req info transactionId) := by
  by_cases h : info.status = .accepted
  · rw [doStartTransaction_accepted env w req h]
    refine ⟨rfl, ?_⟩
    show (if env.msgqRoom then w.msgq ++ [_] else w.msgq).length ≤ _
    split
    · exact Nat.le_of_eq List.length_append
    · exact Nat.le_succ _
  · rw [doStartTransaction_rejected env w req h]
    exact ⟨rfl, Nat.le_succ _⟩

theorem discreet_receive (env : Env) (w : World) (id : Nat) (response : Response) :
    Discreet w (receive env w id response) := by
  unfold receive
  split
  · exact ⟨rfl, Nat.le_succ _⟩
  · unfold handlerProcess
    split
    · exact ⟨(authFrame_doAuth env _ _).remoteReset, (Discreet.of_news (authFrame_doAuth env _ _).news).msgq⟩
    · exact ⟨(discreet_doStartTransaction env _ _ _ _).flag, (discreet_doStartTransaction env _ _ _ _).msgq⟩
    · exact ⟨(discreet_mqSend env _ _).flag, (discreet_mqSend env _ _).msgq⟩
    · exact ⟨rfl, Nat.le_succ _⟩

theorem news_untouched : Untouched news :=
  ⟨fun _ _ => rfl, fun _ _ _ => rfl, fun _ _ => rfl, fun _ _ => rfl, fun _ _ => rfl⟩

theorem news_raiseEvent (env : Env) (w : World) (event : ConnectorEvent) : news (raiseEvent env w event) = news w := by
  rw [raiseEvent_eq]
  rfl

theorem news_localCall (w : World) (call : LocalCall) : news (step w call.event) = news w := by
  cases call with
  | enable env => rfl
  | disable => rfl
  | setReserved reserved => rfl
  | tryOccupy env id => exact (authFrame_tryOccupy env w id false _).news
  | tryRelease env id => exact (authFrame_tryRelease env w id _).news
  | release env => exact (authFrame_release env w false).news

namespace Charger

/-- Every connector knows of a soft reset, and no message waits. -/
structure Informed (c : Charger) : Prop where
  queue : c.msgq = []
  worlds : ∀ w ∈ c.connectors, w.msgq = []
  flagged : c.rebootRequired = .requiredRemotely → ∀ w ∈ c.connectors, w.remoteResetRequested = true

/-- A message has come in: the news of a soft reset may still be in the queue, alone. -/
structure Arriving (c : Charger) : Prop where
  queue : c.msgq.length ≤ 1
  worlds : ∀ w ∈ c.connectors, w.msgq = []
  flagged : c.rebootRequired = .requiredRemotely →
    (∀ w ∈ c.connectors, w.remoteResetRequested = true) ∨ ∃ forced, c.msgq = [⟨.remoteReset forced, .null⟩]

section Informed

variable {c : Charger} (h : Informed c)

theorem forall_put {p : World → Prop} (hcache : ∀ (w : World) cache, p w → p { w with cache := cache }) (place : Nat)
    {w' : World} (hold : ∀ w ∈ c.connectors, p w) (hnew : p { w' with msgq := [] }) :
    ∀ w ∈ (c.put place w').connectors, p w := by
  intro w hw
  obtain ⟨other, hother, rfl⟩ := List.mem_map.mp hw
  refine hcache other _ ?_
  rcases List.mem_or_eq_of_mem_set hother with hmem | heq
  · exact hold other hmem
  · rw [heq]
    exact hnew

/-- The message of a reset sets the flag in every connector. -/
theorem informed_remoteReset (hqueue : c.msgq = []) (hworlds : ∀ w ∈ c.connectors, w.msgq = []) (env : Env)
    (forced : Bool) : Informed (c.iterateConnectors (msgHandler env · (.remoteReset forced))) := by
  refine ⟨hqueue, ?_, fun _ => ?_⟩
  · intro w hw
    obtain ⟨other, hother, rfl⟩ := List.mem_map.mp hw
    exact hworlds other hother
  · intro w hw
    obtain ⟨other, -, rfl⟩ := List.mem_map.mp hw
    rfl

include h

theorem Informed.arriving : Arriving c :=
  ⟨by rw [h.queue]; exact Nat.zero_le 1, h.worlds, fun htype => .inl (h.flagged htype)⟩

theorem arriving_put {place : Nat} {w w' : World} (hw : w ∈ c.connectors) (hcall : Discreet w w') :
    Arriving (c.put place w') := by
  refine ⟨?_, forall_put (fun _ _ hp => hp) place h.worlds rfl, fun htype => .inl ?_⟩
  · show (c.msgq ++ _).length ≤ 1
    rw [h.queue, List.nil_append, List.length_map]
    have hone := hcall.msgq
    rw [h.worlds w hw] at hone
    exact hone
  · exact forall_put (fun _ _ hp => hp) place (h.flagged htype) (hcall.flag.trans (h.flagged htype w hw))

theorem arriving_on (place : Nat) {call : World → World} (hcall : ∀ w, Discreet w (call w)) :
    Arriving (c.on place call) := by
  unfold on
  split
  · exact h.arriving
  · next w hw => exact arriving_put h (List.mem_of_getElem? hw) (hcall w)

theorem informed_put {place : Nat} {w w' : World} (hw : w ∈ c.connectors) (hcall : news w' = news w) :
    Informed (c.put place w') := by
  refine ⟨?_, forall_put (fun _ _ hp => hp) place h.worlds rfl, fun htype => ?_⟩
  · have hnone : w'.msgq = [] := (congrArg Prod.snd hcall).trans (h.worlds w hw)
    show c.msgq ++ w'.msgq.map _ = []
    rw [h.queue, hnone]
    rfl
  · exact forall_put (fun _ _ hp => hp) place (h.flagged htype)
      ((congrArg Prod.fst hcall).trans (h.flagged htype w hw))

theorem informed_on (place : Nat) {call : World → World} (hcall : ∀ w, news (call w) = news w) :
    Informed (c.on place call) := by
  unfold on
  split
  · exact h
  · next w hw => exact informed_put h (List.mem_of_getElem? hw) (hcall w)

theorem informed_iterateConnectors {cb : World → World} (hcb : ∀ w, news (cb w) = news w) :
    Informed (c.iterateConnectors cb) := by
  refine ⟨h.queue, ?_, fun htype => ?_⟩
  · intro w hw
    obtain ⟨other, hother, rfl⟩ := List.mem_map.mp hw
    exact (congrArg Prod.snd (hcb other)).trans (h.worlds other hother)
  · intro w hw
    obtain ⟨other, hother, rfl⟩ := List.mem_map.mp hw
    exact (congrArg Prod.fst (hcb other)).trans (h.flagged htype other hother)

theorem mqSend_of_empty (msg : QueuedMsg) : c.mqSend msg = { c with msgq := [msg] } := by
  have hroom : c.mqRoom = true := by
    rw [mqRoom, h.queue]
    rfl
  rw [mqSend, if_pos hroom, h.queue]
  rfl

theorem arriving_mqSend (msg : QueuedMsg) : Arriving (c.mqSend msg) := by
  rw [mqSend_of_empty h]
  exact ⟨Nat.le_refl 1, h.worlds, fun htype => .inl (h.flagged htype)⟩

theorem arriving_doChangeAvailability (connectorId : Int) (unavailable : Bool) :
    Arriving (c.doChangeAvailability connectorId unavailable).1 := by
  have hset : ∀ available w, news (setAvailability available w) = news w := fun _ _ => rfl
  have hiterated := informed_iterateConnectors h (hset !unavailable)
  have hall : Informed { c.iterateConnectors (setAvailability !unavailable) with unavailable := unavailable } :=
    ⟨hiterated.queue, hiterated.worlds, hiterated.flagged⟩
  rw [doChangeAvailability]
  by_cases hzero : connectorId = 0
  · rw [if_pos hzero]
    exact arriving_mqSend hall _
  · rw [if_neg hzero]
    split
    · exact h.arriving
    · split
      · exact h.arriving
      · split_ifs
        · exact arriving_mqSend (informed_on h _ (hset !unavailable)) _
        · exact h.arriving

theorem arriving_doRemoteStart (env : Env) (readings : Nat → Readings) (connectorId : Int) (idTag : IdToken) :
    Arriving (c.doRemoteStart env readings connectorId idTag).1 := by
  simp only [doRemoteStart]
  split
  · exact h.arriving
  · split
    · exact h.arriving
    · next w hw => exact arriving_put h (List.mem_of_getElem? hw) (.of_news (authFrame_tryOccupy env w idTag true _).news)

theorem arriving_doRemoteStop (env : Env) (transactionId : Int) : Arriving (c.doRemoteStop env transactionId).1 := by
  unfold doRemoteStop
  split
  · exact h.arriving
  · exact arriving_on h _ fun w => .of_news (authFrame_release env w true).news

theorem arriving_doReset (hard : Bool) : Arriving (c.doReset hard) := by
  have hroom : (c.requestReboot (if hard then .forced else .requiredRemotely)).mqRoom = true := by
    show decide (c.msgq.length < maxMessages) = true
    rw [h.queue]
    rfl
  rw [doReset, mqSend, if_pos hroom]
  have hqueue : c.msgq ++ [⟨.remoteReset hard, .null⟩] = [⟨.remoteReset hard, .null⟩] := by rw [h.queue]; rfl
  exact ⟨by show (c.msgq ++ _).length ≤ 1; rw [hqueue]; exact Nat.le_refl 1, h.worlds, fun _ => .inr ⟨hard, hqueue⟩⟩

theorem arriving_handlerProcess (incoming : Incoming) : Arriving (c.handlerProcess incoming) := by
  cases incoming with
  | response place env id response => exact arriving_on h place fun w => discreet_receive _ w id response
  | bootNotificationConf accepted =>
      have hanswered : Informed c.answered := ⟨h.queue, h.worlds, h.flagged⟩
      simp only [handlerProcess, doBootnoti]
      split_ifs
      · exact arriving_mqSend hanswered _
      · exact ⟨hanswered.arriving.queue, hanswered.worlds, hanswered.arriving.flagged⟩
  | otherConf => exact Informed.arriving ⟨h.queue, h.worlds, h.flagged⟩
  | changeAvailability connectorId inoperative => exact arriving_doChangeAvailability h connectorId inoperative
  | changeConfiguration stored =>
      simp only [handlerProcess]
      split_ifs
      · exact arriving_mqSend h _
      · exact h.arriving
  | clearCache =>
      simp only [handlerProcess, doClearCache]
      split
      · exact h.arriving
      · exact arriving_on h _ fun w => ⟨rfl, Nat.le_succ _⟩
  | remoteStart env readings connectorId idTag => exact arriving_doRemoteStart h env readings connectorId idTag
  | remoteStop env transactionId => exact arriving_doRemoteStop h env transactionId
  | reset hard => exact arriving_doReset h hard
  | otherCall => exact h.arriving

theorem arriving_ocppStep (incoming : Option Incoming) (heartbeat : Bool) :
    Arriving (c.ocppStep incoming heartbeat) := by
  have hhandled : Arriving (incoming.elim c c.handlerProcess) := by
    cases incoming with
    | none => exact h.arriving
    | some incoming => exact arriving_handlerProcess h incoming
  simp only [ocppStep]
  split_ifs
  · exact ⟨hhandled.queue, hhandled.worlds, hhandled.flagged⟩
  · exact hhandled

theorem informed_procMsg (env : Env) (queued : QueuedMsg) : Informed (c.procMsg env queued) := by
  have hcsmsUp : ∀ w, news (msgHandler env w .csmsUp) = news w := fun _ => rfl
  unfold procMsg
  split
  · simp only [procAvailability]
    split_ifs <;> exact ⟨h.queue, h.worlds, h.flagged⟩
  · exact ⟨h.queue, h.worlds, h.flagged⟩
  · exact informed_on h _ fun w => news_raiseEvent env _ _
  · exact informed_on h _ fun w => news_raiseEvent env _ _
  · have hall := informed_iterateConnectors h hcsmsUp
    exact ⟨hall.queue, hall.worlds, hall.flagged⟩
  · exact informed_remoteReset h.queue h.worlds env _
  · exact h
  · exact h

end Informed

/-- Taking the one message out of the queue brings the news to every connector. -/
theorem informed_mqRecv {c : Charger} (h : Arriving c) (env : Env) : Informed (c.mqRecv env) := by
  cases hqueue : c.msgq with
  | nil =>
      have hflagged : c.rebootRequired = .requiredRemotely → ∀ w ∈ c.connectors, w.remoteResetRequested = true := by
        intro htype
        rcases h.flagged htype with hall | ⟨forced, hwaits⟩
        · exact hall
        · rw [hqueue] at hwaits
          cases hwaits
      rw [mqRecv, hqueue]
      exact ⟨hqueue, h.worlds, hflagged⟩
  | cons queued msgs =>
      have hlast : msgs = [] := by
        have hone := h.queue
        rw [hqueue] at hone
        exact List.length_eq_zero_iff.mp (Nat.le_zero.mp (Nat.le_of_succ_le_succ hone))
      rw [mqRecv, hqueue, hlast]
      by_cases hflagged : c.rebootRequired = .requiredRemotely → ∀ w ∈ c.connectors, w.remoteResetRequested = true
      · exact informed_procMsg (c := { c with msgq := [] }) ⟨rfl, h.worlds, hflagged⟩ env queued
      · -- the message is the news itself
        push Not at hflagged
        obtain ⟨htype, w, hw, hflag⟩ := hflagged
        rcases h.flagged htype with hall | ⟨forced, hwaits⟩
        · exact absurd (hall w hw) hflag
        · obtain ⟨rfl, -⟩ := List.cons.inj (hqueue.symm.trans hwaits)
          exact informed_remoteReset (c := { c with msgq := [] }) rfl h.worlds env forced

theorem informed_preProcess {c : Charger} (h : Informed c) (it : Iteration) : Informed (c.preProcess it) :=
  informed_mqRecv (arriving_ocppStep h it.incoming it.heartbeat) it.queueEnv

theorem forall_processConnectors {p : World → Prop} (hp : ∀ env w, p w → p (connectorProcess env w))
    (envs : Nat → Env) (n : Nat) {ws : List World} (hws : ∀ w ∈ ws, p w) :
    ∀ w ∈ processConnectors envs n ws, p w := by
  induction ws generalizing envs n with
  | nil => exact fun w hw => absurd hw List.not_mem_nil
  | cons w ws ih =>
      obtain ⟨hw, hws⟩ := List.forall_mem_cons.mp hws
      rw [processConnectors_cons]
      exact List.forall_mem_cons.mpr ⟨hp _ w hw, ih _ _ hws⟩

theorem news_connectorProcess (env : Env) (w : World) : news (connectorProcess env w) = news w := by
  by_cases henabled : w.base.enabled = true
  · rw [connectorProcess, Ocpp.step, if_pos henabled]
    exact news_untouched.process env w
  · rw [connectorProcess_disabled env henabled]

theorem informed_processConnectors {c : Charger} (h : Informed c) (envs : Nat → Env) :
    Informed { c with connectors := processConnectors envs c.pendingOwn c.connectors } := by
  refine ⟨h.queue, ?_, fun htype => ?_⟩
  · refine forall_processConnectors (fun env w hw => ?_) envs c.pendingOwn h.worlds
    exact (congrArg Prod.snd (news_connectorProcess env w)).trans hw
  · refine forall_processConnectors (fun env w hw => ?_) envs c.pendingOwn (h.flagged htype)
    exact (congrArg Prod.fst (news_connectorProcess env w)).trans hw

/-! ### The end of an iteration -/

/-- The reboot event is dispatched. -/
def dispatchesReboot (c : Charger) : Bool :=
  c.getPendingRebootType ≠ .none && c.countPendingRequests = 0 &&
    !(c.getPendingRebootType = .required && c.isCharging)

theorem postProcess_dispatches {c : Charger} (h : c.dispatchesReboot = true) (downtime : Nat) :
    c.postProcess downtime = c.dispatchEvent .rebootRequired := by
  simp only [dispatchesReboot, Bool.and_eq_true, decide_eq_true_eq, Bool.not_eq_true', Bool.and_eq_false_iff] at h
  obtain ⟨⟨hpending, hnone⟩, hcharging⟩ := h
  have hgoes : ¬ (c.getPendingRebootType = .required ∧ c.isCharging = true) := by
    rintro ⟨htype, hbusy⟩
    rcases hcharging with hother | hidle
    · exact (decide_eq_false_iff_not.mp hother) htype
    · exact absurd (hidle.symm.trans hbusy) (by decide)
  rw [postProcess, if_neg hpending, if_pos hnone, if_neg hgoes]

theorem postProcess_quiet {c : Charger} (h : c.dispatchesReboot = false) (downtime : Nat) :
    ∃ type, (type = c.rebootRequired ∨ type = .required) ∧ c.postProcess downtime = c.requestReboot type := by
  simp only [dispatchesReboot, Bool.and_eq_false_iff, Bool.not_eq_false', decide_eq_false_iff_not, not_not,
    Bool.and_eq_true, decide_eq_true_eq] at h
  have hsame : c = c.requestReboot c.rebootRequired := rfl
  unfold postProcess
  split_ifs with htype hdown hnone hcharging
  · exact ⟨.required, .inr rfl, rfl⟩
  · exact ⟨_, .inl rfl, hsame⟩
  · exact ⟨_, .inl rfl, hsame⟩
  · rcases h with (hty | hpending) | hboth
    · exact absurd hty htype
    · exact absurd hnone hpending
    · exact absurd hboth hcharging
  · exact ⟨_, .inl rfl, hsame⟩

theorem informed_process {c : Charger} (h : Informed c) (it : Iteration) : Informed (c.process it) := by
  have hstepped := informed_processConnectors (informed_preProcess h it) it.envs
  show Informed (postProcess { c.preProcess it with
    connectors := processConnectors it.envs (c.preProcess it).pendingOwn (c.preProcess it).connectors } it.downtime)
  generalize ({ c.preProcess it with connectors := _ } : Charger) = d at hstepped
  cases hdispatch : d.dispatchesReboot with
  | true =>
      rw [postProcess_dispatches hdispatch]
      exact ⟨hstepped.queue, hstepped.worlds, hstepped.flagged⟩
  | false =>
      obtain ⟨type, htype, heq⟩ := postProcess_quiet hdispatch it.downtime
      rw [heq]
      refine ⟨hstepped.queue, hstepped.worlds, fun hremote => ?_⟩
      rcases htype with rfl | rfl
      · exact hstepped.flagged hremote
      · cases hremote

theorem informed_step (c : Charger) (op : ChargerOp) (h : Informed c) : Informed (c.step op) := by
  cases op with
  | process it => exact informed_process h it
  | updaterEvent event =>
      rw [step]
      cases event <;> first | exact h | exact ⟨h.queue, h.worlds, h.flagged⟩ | exact ⟨h.queue, h.worlds, nofun⟩
  | connector place call => exact informed_on h place fun w => news_localCall w call

theorem informed_create (boots : List Boot) : Informed (create boots) := by
  refine ⟨rfl, fun w hw => ?_, nofun⟩
  obtain ⟨boot, -, rfl⟩ := List.mem_map.mp hw
  rfl

/-! ### No reboot in a session -/

/-- How often the reboot event was dispatched. -/
def reboots (c : Charger) : Nat := c.events.count .rebootRequired

section Reboots

variable (c : Charger)

theorem events_mqSend (msg : QueuedMsg) : (c.mqSend msg).events = c.events := by
  unfold mqSend
  split <;> rfl

theorem events_on (place : Nat) (call : World → World) : (c.on place call).events = c.events := by
  unfold on
  split <;> rfl

theorem events_handlerProcess (incoming : Incoming) : (c.handlerProcess incoming).events = c.events := by
  cases incoming with
  | response place env id response => exact events_on c place _
  | bootNotificationConf accepted =>
      simp only [handlerProcess, doBootnoti]
      split_ifs
      · exact events_mqSend _ _
      · rfl
  | otherConf => rfl
  | changeAvailability connectorId inoperative =>
      simp only [handlerProcess, doChangeAvailability]
      split
      · exact events_mqSend _ _
      · split
        · rfl
        · split
          · rfl
          · split_ifs
            · exact (events_mqSend _ _).trans (events_on c _ _)
            · rfl
  | changeConfiguration stored =>
      simp only [handlerProcess]
      split_ifs
      · exact events_mqSend _ _
      · rfl
  | clearCache =>
      simp only [handlerProcess, doClearCache]
      split
      · rfl
      · exact events_on c _ _
  | remoteStart env readings connectorId idTag =>
      simp only [handlerProcess, doRemoteStart]
      split
      · rfl
      · split <;> rfl
  | remoteStop env transactionId =>
      simp only [handlerProcess, doRemoteStop]
      split
      · rfl
      · exact events_on c _ _
  | reset hard => exact events_mqSend _ _
  | otherCall => rfl

theorem reboots_dispatchEvent {event : ChargerEvent} (h : event ≠ .rebootRequired) :
    (c.dispatchEvent event).reboots = c.reboots := by
  show (c.events ++ [event]).count .rebootRequired = c.events.count .rebootRequired
  rw [List.count_append, List.count_singleton, if_neg (by simpa using h), Nat.add_zero]

theorem reboots_procMsg (env : Env) (queued : QueuedMsg) : (c.procMsg env queued).reboots = c.reboots := by
  unfold procMsg
  split
  · simp only [procAvailability]
    split_ifs
    · exact reboots_dispatchEvent c.csmsRequest (by decide)
    · exact reboots_dispatchEvent c (by decide)
  · exact reboots_dispatchEvent c (by decide)
  · exact congrArg (List.count .rebootRequired) (events_on c _ _)
  · exact congrArg (List.count .rebootRequired) (events_on c _ _)
  · rfl
  · rfl
  · rfl
  · rfl

theorem reboots_preProcess (it : Iteration) : (c.preProcess it).reboots = c.reboots := by
  have hstepped : (c.ocppStep it.incoming it.heartbeat).events = c.events := by
    have hhandled : (it.incoming.elim c c.handlerProcess).events = c.events := by
      cases it.incoming with
      | none => rfl
      | some incoming => exact events_handlerProcess c incoming
    simp only [ocppStep]
    split_ifs
    · exact hhandled
    · exact hhandled
  have hreboots : (c.ocppStep it.incoming it.heartbeat).reboots = c.reboots := by rw [reboots, hstepped, reboots]
  rw [preProcess, mqRecv]
  split
  · exact hreboots
  · exact (reboots_procMsg _ _ _).trans hreboots

end Reboots

/-- No reboot is dispatched for an update or a soft reset in an iteration that leaves an enabled connector in a session. -/
def SparesSessions (c : Charger) (op : ChargerOp) : Prop :=
  (c.step op).reboots ≠ c.reboots →
    (c.step op).rebootRequired = .required ∨ (c.step op).rebootRequired = .requiredRemotely →
    ∀ w ∈ (c.step op).connectors, w.base.enabled = true → w.base.fsm ≠ .charging ∧ w.base.fsm ≠ .suspendedEV

instance instDecidableSparesSessions (c : Charger) (op : ChargerOp) : Decidable (SparesSessions c op) :=
  inferInstanceAs (Decidable ((c.step op).reboots ≠ c.reboots →
    (c.step op).rebootRequired = .required ∨ (c.step op).rebootRequired = .requiredRemotely →
    ∀ w ∈ (c.step op).connectors, w.base.enabled = true → w.base.fsm ≠ .charging ∧ w.base.fsm ≠ .suspendedEV))

/-- With the messages of the iteration handled, a soft reset waits and no request is pending; no enabled connector is going to send one, and one of them is going into Charging. -/
def BeginsSilently (c : Charger) : ChargerOp → Prop
  | .process it =>
      (c.preProcess it).rebootRequired = .requiredRemotely ∧ (c.preProcess it).countPendingRequests = 0 ∧
        AllSilent it.envs (c.preProcess it).connectors ∧ SomeEnters it.envs (c.preProcess it).connectors
  | .updaterEvent _ | .connector _ _ => False

/-- The end of the iteration, once the connectors have been stepped. -/
theorem spares_postProcess (c : Charger) (downtime : Nat) :
    ((c.postProcess downtime).reboots ≠ c.reboots →
        (c.postProcess downtime).rebootRequired = .required ∨
          (c.postProcess downtime).rebootRequired = .requiredRemotely →
        ∀ w ∈ (c.postProcess downtime).connectors, w.base.enabled = true →
          w.base.fsm ≠ .charging ∧ w.base.fsm ≠ .suspendedEV) ↔
      ¬ (c.rebootRequired = .requiredRemotely ∧ c.countPendingRequests = 0 ∧ SomeCharging c.connectors) := by
  cases hdispatch : c.dispatchesReboot with
  | true =>
      rw [postProcess_dispatches hdispatch]
      simp only [dispatchesReboot, Bool.and_eq_true, decide_eq_true_eq, Bool.not_eq_true', Bool.and_eq_false_iff,
        decide_eq_false_iff_not] at hdispatch
      obtain ⟨⟨-, hnone⟩, hchecked⟩ := hdispatch
      have hmore : (c.dispatchEvent .rebootRequired).reboots ≠ c.reboots := by
        show (c.events ++ [ChargerEvent.rebootRequired]).count .rebootRequired ≠ c.events.count .rebootRequired
        rw [List.count_append, List.count_singleton_self]
        omega
      constructor
      · rintro hspares ⟨hremote, -, w, hw, henabled, hfsm⟩
        have hidle := hspares hmore (.inr hremote) w hw henabled
        exact hfsm.elim hidle.1 hidle.2
      · intro hnever _ htype w hw henabled
        rcases htype with hrequired | hremote
        · -- for an update the states were looked at
          have hidle : c.isCharging = false := hchecked.resolve_left fun hother => hother hrequired
          rw [isCharging, List.any_eq_false] at hidle
          have hstate := hidle w hw
          simp only [Bool.or_eq_true, decide_eq_true_eq, not_or] at hstate
          exact hstate.1
        · have hnot : ¬ (w.base.fsm = .charging ∨ w.base.fsm = .suspendedEV) :=
            fun hfsm => hnever ⟨hremote, hnone, w, hw, henabled, hfsm⟩
          exact not_or.mp hnot
  | false =>
      obtain ⟨type, -, heq⟩ := postProcess_quiet hdispatch downtime
      rw [heq]
      refine iff_of_true (fun hmore => absurd rfl hmore) ?_
      rintro ⟨hremote, hnone, -⟩
      have hgoes : c.dispatchesReboot = true := by
        simp [dispatchesReboot, getPendingRebootType, hremote, hnone]
      rw [hgoes] at hdispatch
      cases hdispatch

theorem spares_process {c : Charger} (h : Informed c) (it : Iteration) :
    SparesSessions c (.process it) ↔ ¬ BeginsSilently c (.process it) := by
  have hinformed := informed_preProcess h it
  have hreboots := reboots_preProcess c it
  have hpost := spares_postProcess
    { c.preProcess it with
      connectors := processConnectors it.envs (c.preProcess it).pendingOwn (c.preProcess it).connectors }
    it.downtime
  have hspares : SparesSessions c (.process it) ↔ _ := hreboots ▸ hpost
  rw [hspares, BeginsSilently, not_iff_not]
  refine and_congr_right fun hremote => ?_
  have hflagged := hinformed.flagged hremote
  have hnone := total_processConnectors it.envs (c.preProcess it).pendingOwn hflagged
  constructor
  · rintro ⟨hpending, hcharging⟩
    obtain ⟨hbefore, hsilent⟩ := hnone.mp hpending
    exact ⟨hbefore, hsilent, (someCharging_processConnectors hflagged hbefore hsilent).mp hcharging⟩
  · rintro ⟨hbefore, hsilent, henters⟩
    exact ⟨hnone.mpr ⟨hbefore, hsilent⟩, (someCharging_processConnectors hflagged hbefore hsilent).mpr henters⟩

/-- Along any run of a charger, no reboot for an update or a soft reset comes in a session exactly when no connector goes silently into Charging while a soft reset waits. -/
theorem spares_sessions_iff (boots : List Boot) (ops : List ChargerOp) :
    EveryStep step SparesSessions (create boots) ops ↔
      EveryStep step (fun c op => ¬ BeginsSilently c op) (create boots) ops := by
  refine everyStep_congr informed_step (fun c op h => ?_) (informed_create boots) ops
  cases op with
  | process it => exact spares_process h it
  | updaterEvent event =>
      refine iff_of_true (fun hdispatched => absurd ?_ hdispatched) id
      cases event <;> rfl
  | connector place call =>
      refine iff_of_true (fun hdispatched => absurd ?_ hdispatched) id
      exact congrArg (List.count .rebootRequired) (events_on c place _)

/-- A soft reset comes while a `StartTransaction.req` is pending; with the answer the connector goes into Charging and the charger reboots. -/
def resetAtStart : List ChargerOp := [
  .connector 0 (.enable {}),
  .process { incoming := some (.bootNotificationConf true), envs := fun _ => { pilot := ⟨.a, 100⟩, now := 10 } },
  .process { incoming := some .otherConf, envs := fun _ => { pilot := ⟨.a, 100⟩, now := 10 } },
  .process { incoming := some (.response 0 {} 0 .other), envs := fun _ => { pilot := ⟨.a, 100⟩, now := 10 } },
  .connector 0 (.tryOccupy { now := 10, trialTime := 10 } cardA),
  .process {
    incoming := some (.response 0 { occupyTime := 10 } 1 (.authorize { status := .accepted }))
    envs := fun _ => { pilot := ⟨.b, 100⟩, now := 11 } },
  .process { incoming := some (.response 0 {} 2 .other), envs := fun _ => { pilot := ⟨.b, 100⟩, now := 12 } },
  .process { incoming := some (.reset false), envs := fun _ => { pilot := ⟨.b, 100⟩, now := 12 } },
  .process {
    incoming := some (.response 0 {} 3 (.startTransaction { status := .accepted } 7))
    envs := fun _ => { pilot := ⟨.b, 100⟩, now := 13 } }]

theorem reboot_at_start_of_session : ¬ EveryStep step SparesSessions (create [freshBoot]) resetAtStart := by
  decide +kernel

end Charger

end Evse.Ocpp
