import Evse.Ocpp.Ownership
import Evse.Ocpp.PowerCut

/-!
# Recovery after a power cut

A connector that comes up with a transaction in its checkpoint has it until it leaves Booting: nothing is pending yet that could start or end one, so no message about billing can come to the queue. The step that leaves Booting asks for the transaction to be stopped, for loss of power, and that is the first request of its kind.
-/

namespace Evse.Ocpp

open StepRun Config

/-! ### A connector that boots -/

/-- Nothing is under way that could start or end a transaction. -/
structure Quiet (w : World) : Prop where
  asked : ∀ r ∈ w.outstanding, r.payload.isAuthorize = true
  queued : ∀ msg ∈ w.msgq, msg.isBilling = false

section Quiet

variable {w w' : World}

theorem Quiet.of_eq (h : Quiet w) (hasked : w'.outstanding = w.outstanding) (hqueued : w'.msgq = w.msgq) : Quiet w' :=
  ⟨hasked ▸ h.asked, hqueued ▸ h.queued⟩

theorem Quiet.authorize (h : Quiet w) {payload : Payload} (hpayload : payload.isAuthorize = true) :
    Quiet (csmsRequest w payload) := by
  refine ⟨fun r hr => ?_, h.queued⟩
  rcases List.mem_append.mp hr with hold | hnew
  · exact h.asked r hold
  · rw [List.mem_singleton.mp hnew]
    exact hpayload

theorem Quiet.drop (h : Quiet w) (id : Nat) : Quiet (dropRequest w id) :=
  ⟨fun r hr => h.asked r (List.mem_filter.mp hr).1, h.queued⟩

theorem Quiet.mqSend (h : Quiet w) (env : Env) {msg : ChargerMsg} (hmsg : msg.isBilling = false) :
    Quiet (mqSend env w msg) := by
  unfold Ocpp.mqSend
  split
  · refine ⟨h.asked, fun queued hmem => ?_⟩
    rcases List.mem_append.mp hmem with hold | hnew
    · exact h.queued queued hold
    · rw [List.mem_singleton.mp hnew]
      exact hmsg
  · exact h

theorem outstanding_occupy (env : Env) (w : World) : (occupy env w).outstanding = w.outstanding := by
  rw [occupy_eq]

theorem outstanding_release (env : Env) (w : World) (remote : Bool) :
    (release env w remote).outstanding = w.outstanding := by
  simp only [release]
  split_ifs <;> rfl

theorem outstanding_dispatchAuthResult (env : Env) (w : World) (result : SessionResult) :
    (dispatchAuthResult env w result).outstanding = w.outstanding := by
  have hdelivers := delivers env w result
  generalize dispatchAuthResult env w result = w' at hdelivers
  cases hdelivers with
  | unregistered => rfl
  | ignored => rfl
  | occupied => exact outstanding_occupy env w
  | released => exact outstanding_release env w false

theorem Quiet.timedOut (h : Quiet w) (env : Env) : Quiet (releasePendingRequestIfTimedout env w) :=
  h.of_eq (releasePendingRequestIfTimedout_frame (f := (·.outstanding)) env w fun _ => rfl)
    (authFrame_releasePendingRequestIfTimedout env w).msgq

theorem Quiet.tryOccupy (h : Quiet w) (env : Env) (id : IdToken) (remote : Bool) :
    Quiet (tryOccupy env w id remote (occupyCb remote)).1 := by
  have htimedOut := h.timedOut env
  have htrial : Quiet (onTrial env (releasePendingRequestIfTimedout env w) id (occupyCb remote)) := htimedOut.of_eq rfl rfl
  have hgranted : Quiet (setAuthResultCb (granted env (releasePendingRequestIfTimedout env w) id) (occupyCb remote) id) :=
    htimedOut.of_eq rfl rfl
  have hoccupies := occupies env w id remote (occupyCb_ne_release remote)
  generalize (Ocpp.tryOccupy env w id remote (occupyCb remote)).1 = w' at hoccupies
  cases hoccupies with
  | refused => exact htimedOut.of_eq rfl rfl
  | granted => exact htimedOut.of_eq rfl rfl
  | denied => exact htimedOut.of_eq rfl rfl
  | asked => exact htrial.authorize rfl
  | preAuthorized => exact hgranted.authorize rfl

theorem Quiet.tryRelease (h : Quiet w) (env : Env) (id : IdToken) : Quiet (tryRelease env w id .onReleaseResult).1 := by
  have htimedOut := h.timedOut env
  have htrial : Quiet (onTrial env (releasePendingRequestIfTimedout env w) id .onReleaseResult) := htimedOut.of_eq rfl rfl
  have hreleases := releases env w id
  generalize (Ocpp.tryRelease env w id .onReleaseResult).1 = w' at hreleases
  cases hreleases with
  | refused => exact htimedOut.of_eq rfl rfl
  | released => exact htrial.of_eq (outstanding_release env _ false) (authFrame_release env _ false).msgq
  | asked => exact htrial.authorize rfl

theorem Quiet.receive (h : Quiet w) (env : Env) (id : Nat) (response : Response) : Quiet (receive env w id response) := by
  unfold Ocpp.receive
  cases hmsg : getMessageById w id with
  | none => exact h
  | some req =>
      have hauthorize := h.asked req (List.mem_of_find?_eq_some hmsg)
      simp only [handlerProcess]
      cases hpayload : req.payload with
      | authorize idTag =>
          cases response with
          | authorize info =>
              refine (h.drop id).of_eq ?_ (authFrame_doAuth env _ info).msgq
              refine (outstanding_dispatchAuthResult env _ _).trans ?_
              simp only [recordAuthorization]
              split_ifs <;> rfl
          | _ => exact h.drop id
      | _ =>
          rw [hpayload] at hauthorize
          cases hauthorize

/-- Every event but a step of the machine keeps it so. -/
theorem Quiet.step (h : Quiet w) {e : Event} (he : ∀ env, e ≠ .process env) : Quiet (step w e) := by
  cases e with
  | process env => exact absurd rfl (he env)
  | enable env => exact h.of_eq rfl rfl
  | disable => exact h.of_eq rfl rfl
  | setReserved reserved => exact h.of_eq rfl rfl
  | tryOccupy env id remote => exact h.tryOccupy env id remote
  | tryRelease env id => exact h.tryRelease env id
  | occupy env => exact h.of_eq (outstanding_occupy env w) (authFrame_occupy env w).msgq
  | release env remote => exact h.of_eq (outstanding_release env w remote) (authFrame_release env w remote).msgq
  | receive env id response => exact h.receive env id response
  | drop id => exact h.drop id
  | mqRecv env =>
      show Quiet (mqRecv env w)
      unfold mqRecv
      cases hmsgq : w.msgq with
      | nil => exact h
      | cons msg msgs =>
          have hqueued := h.queued
          rw [hmsgq] at hqueued
          obtain ⟨hmsg, hmsgs⟩ := List.forall_mem_cons.mp hqueued
          cases msg with
          | billingStarted transactionId => cases hmsg
          | billingEnded => cases hmsg
          | _ => exact ⟨h.asked, hmsgs⟩
  | bootAccepted env => exact h.mqSend env rfl
  | changeAvailability env available =>
      have hset : Quiet { w with checkpoint.unavailable := !available } := h.of_eq rfl rfl
      exact hset.mqSend env rfl
  | changeConfiguration env => exact h.mqSend env rfl
  | clearCache => exact h.of_eq rfl rfl
  | reset env forced => exact h.mqSend env rfl

end Quiet

/-- The connector boots with that transaction in its checkpoint, and has asked for nothing to be stopped. -/
structure Booting (transactionId : Int) (w : World) : Prop where
  fsm : w.base.fsm = .booting
  stops : stops w = []
  checkpoint : w.checkpoint.transactionId = transactionId
  quiet : Quiet w

/-- It has left Booting, and that transaction is the first it has asked to be stopped. -/
structure Recovered (transactionId : Int) (w : World) : Prop where
  fsm : w.base.fsm ≠ .booting
  stops : (stops w).head? = some transactionId

section Booting

variable {transactionId : Int} {w w' : World}

/-- What the step leaves of the fields that dispatching events does not touch. -/
theorem Booting.of_eq (h : Booting transactionId w) (hfsm : w'.base.fsm = w.base.fsm)
    (hrequests : w'.requests = w.requests) (hcheckpoint : w'.checkpoint = w.checkpoint)
    (houtstanding : w'.outstanding = w.outstanding) (hmsgq : w'.msgq = w.msgq) : Booting transactionId w' where
  fsm := hfsm.trans h.fsm
  stops := (congrArg (List.filterMap Payload.stopped) hrequests).trans h.stops
  checkpoint := (congrArg Checkpoint.transactionId hcheckpoint).trans h.checkpoint
  quiet := h.quiet.of_eq houtstanding hmsgq

theorem Booting.of_core (h : Booting transactionId w) (hcore : core w' = core w) : Booting transactionId w' :=
  h.of_eq (congrArg (fun w => w.base.fsm) hcore) (congrArg (fun w => w.requests) hcore)
    (congrArg (fun w => w.checkpoint) hcore) (congrArg (fun w => w.outstanding) hcore)
    (congrArg (fun w => w.msgq) hcore)

/-- The request that closes a transaction of before a power cut. -/
def AsksForStop (transactionId : Int) (w : World) : Prop :=
  ∃ idTag meterStop timestamp, Payload.stopTransaction idTag meterStop timestamp transactionId .powerLoss ∈ w.requests

theorem asksForStop_doMissingTransaction (env : Env) (hcheckpoint : w.checkpoint.transactionId = transactionId)
    (hne : transactionId ≠ 0) : AsksForStop transactionId (doMissingTransaction env .booting w) := by
  subst hcheckpoint
  have hmissing : hasMissingTransaction w = true := decide_eq_true hne
  simp only [doMissingTransaction, hmissing, ne_eq, not_true, if_false, if_true]
  exact ⟨_, _, _, List.mem_append_right _ List.mem_cons_self⟩

/-- The machine stays in Booting, or leaves it with the request. -/
theorem Booting.moves (h : Booting transactionId w) (hne : transactionId ≠ 0) {env : Env} (hmove : Moves env w w') :
    Booting transactionId w' ∨ w'.base.fsm ≠ .booting ∧ AsksForStop transactionId w' := by
  have hfsm := h.fsm
  cases hmove with
  | stay => exact .inl h
  | boot => exact .inl (h.of_eq hfsm.symm rfl rfl rfl rfl)
  | unavailable =>
      right
      rw [hfsm]
      exact ⟨by simp, asksForStop_doMissingTransaction env h.checkpoint hne⟩
  | available =>
      right
      rw [hfsm]
      refine ⟨by simp, ?_⟩
      simp only [doAvailable, reduceCtorEq, false_and, if_false]
      exact asksForStop_doMissingTransaction env h.checkpoint hne
  | preparing =>
      right
      rw [hfsm]
      refine ⟨by simp, ?_⟩
      simp only [doPreparing, ne_eq, reduceCtorEq, not_false_eq_true, if_true]
      exact asksForStop_doMissingTransaction env h.checkpoint hne
  | faulted hidle => exact absurd hfsm hidle.2.2
  | reserved hother | requestTid hother | startCharging hother | suspend hother | keepCharging hother | resume hother
    | keepSuspended hother => exact absurd (hfsm.symm.trans hother) (by decide)
  | finish hother => rcases hother with hother | hother <;> exact absurd (hfsm.symm.trans hother) (by decide)

/-- An event asks for no more to be stopped than its operation on the ledger. -/
theorem stops_step (w : World) (e : Event) : ∃ more, stops (step w e) = stops w ++ more ∧
    (txOp w e = .recover → more = [w.checkpoint.transactionId]) ∧ ((txOp w e).stops = false → more = []) := by
  have hstops : stops (step w e) = ((ledger w).apply (txOp w e)).stopped := congrArg Ledger.stopped (ledger_step w e)
  rw [hstops]
  cases txOp w e with
  | stop => exact ⟨_, rfl, nofun, nofun⟩
  | recover => exact ⟨_, rfl, fun _ => rfl, nofun⟩
  | _ => exact ⟨[], (List.append_nil _).symm, nofun, fun _ => rfl⟩

theorem Recovered.step (h : Recovered transactionId w) (e : Event) : Recovered transactionId (step w e) := by
  obtain ⟨more, hmore, -⟩ := stops_step w e
  refine ⟨not_booting_step w e h.fsm, ?_⟩
  rw [hmore, List.head?_append, h.stops]
  rfl

/-- A step out of Booting is one that recovers. -/
theorem isRecovery_of_leaving (h : Booting transactionId w) (hne : transactionId ≠ 0) {e : Event}
    (hleft : (Ocpp.step w e).base.fsm ≠ .booting) : isRecovery w e = true := by
  have hcheckpoint := h.checkpoint
  subst hcheckpoint
  simp [isRecovery, h.fsm, hleft, hne]

/-- A connector that boots has no session to stop. -/
theorem txOp_of_stops (h : Booting transactionId w) {env : Env} (hstops : (txOp w (.process env)).stops = true) :
    txOp w (.process env) = .recover := by
  have hfsm : (stampNow env w).base.fsm = .booting := h.fsm
  simp only [txOp, processOp, hfsm] at hstops ⊢
  split_ifs at hstops ⊢ <;> first | rfl | cases hstops

/-- Without a message about billing the id in the checkpoint stays. -/
theorem checkpoint_step (h : Quiet w) (e : Event) :
    (Ocpp.step w e).checkpoint.transactionId = w.checkpoint.transactionId := by
  have hsaved : (Ocpp.step w e).checkpoint.transactionId = ((ledger w).apply (txOp w e)).saved :=
    congrArg Ledger.saved (ledger_step w e)
  rw [hsaved]
  have hcases := txOp_cases w e
  generalize txOp w e = op at hcases
  cases hcases with
  | save transactionId hmsg => exact absurd (h.queued _ hmsg) Bool.noConfusion
  | forget hmsg => exact absurd (h.queued _ hmsg) (by decide)
  | _ => rfl

/-- Whatever happens to a connector that boots: it still boots, or it has left Booting with the request. -/
theorem Booting.step (h : Booting transactionId w) (hne : transactionId ≠ 0) (e : Event) :
    Booting transactionId (step w e) ∨
      Recovered transactionId (step w e) ∧ AsksForStop transactionId (step w e) := by
  obtain ⟨more, hmore, hrecover, hnone⟩ := stops_step w e
  rw [h.stops, List.nil_append] at hmore
  by_cases hprocess : ∃ env, e = .process env
  · obtain ⟨env, rfl⟩ := hprocess
    by_cases henabled : w.base.enabled = true
    · have hstep : Ocpp.step w (.process env) = process env w := if_pos henabled
      obtain ⟨w', hmove, hcore⟩ := process_moves env w
      have hstamped : Booting transactionId (stampNow env w) := h.of_eq rfl rfl rfl rfl rfl
      rcases hstamped.moves hne hmove with hboots | ⟨hleft, hasks⟩
      · exact .inl (hstep ▸ hboots.of_core hcore)
      · right
        have hfsm : (Ocpp.step w (.process env)).base.fsm ≠ .booting := by
          rw [hstep]
          exact fun hsame => hleft ((congrArg (fun w => w.base.fsm) hcore).symm.trans hsame)
        have hrequests : (Ocpp.step w (.process env)).requests = w'.requests := by
          rw [hstep]
          exact congrArg (fun w => w.requests) hcore
        refine ⟨⟨hfsm, ?_⟩, ?_⟩
        · have hrecovers := txOp_stops w (.process env)
          rw [isRecovery_of_leaving h hne hfsm, Bool.or_true] at hrecovers
          rw [hmore, hrecover (txOp_of_stops h hrecovers), h.checkpoint]
          rfl
        · rw [AsksForStop, hrequests]
          exact hasks
    · left
      have hstep : Ocpp.step w (.process env) = w := if_neg henabled
      rw [hstep]
      exact h
  · left
    have hother : ∀ env, e ≠ .process env := fun env he => hprocess ⟨env, he⟩
    refine ⟨(step_fsm_of_not_process w hother).trans h.fsm, ?_, ?_, h.quiet.step hother⟩
    · rw [hmore, hnone (txOp_stops_of_not_process w hother)]
    · exact (checkpoint_step h.quiet e).trans h.checkpoint

end Booting

/-! ### The device -/

/-- The checkpoint, the configuration and what a restart finds have the transaction. -/
def Everywhere (transactionId : Int) (d : Device) : Prop :=
  d.world.checkpoint.transactionId = transactionId ∧ readTid (checkpointIn d.config.mgr.basic) = transactionId ∧
    readTid (checkpointIn d.config.saved) = transactionId

section Device

variable {ext : Externals} {transactionId : Int} {d : Device}

theorem everywhere_saveCheckpoint (h : Sound ext d) (heverywhere : Everywhere transactionId d) :
    Everywhere transactionId (saveCheckpoint ext d) := by
  have heq := (sound_saveCheckpoint h).2
  obtain ⟨hcheckpoint, hram, hflash⟩ := heverywhere
  have hstaged := congrArg DurableLedger.staged heq
  have hwritten := congrArg DurableLedger.flash heq
  unfold saveOps at hstaged hwritten
  refine ⟨hcheckpoint, ?_, ?_⟩
  · refine Eq.trans hstaged ?_
    split <;> exact hcheckpoint
  · refine Eq.trans hwritten ?_
    split
    · exact hcheckpoint
    · exact hflash

theorem everywhere_deliver (h : Sound ext d) (heverywhere : Everywhere transactionId d) (sent : List ConnectorEvent) :
    Everywhere transactionId (sent.foldl (onConnectorEvent ext) d) := by
  induction sent generalizing d with
  | nil => exact heverywhere
  | cons events sent ih =>
      refine ih (sound_onConnectorEvent h events).1 ?_
      unfold onConnectorEvent
      split
      · exact everywhere_saveCheckpoint h heverywhere
      · exact heverywhere

theorem everywhere_afterEvent (h : Sound ext d) (heverywhere : Everywhere transactionId d) {e : Event}
    (hkept : (step d.world e.stored).checkpoint.transactionId = transactionId) :
    Everywhere transactionId (afterEvent ext d e) := by
  have hevent := sound_event h e
  have hheld : Everywhere transactionId { d with world := step d.world e.stored } :=
    ⟨hkept, heverywhere.2.1, heverywhere.2.2⟩
  have hdelivered := everywhere_deliver hevent hheld (delivered d.world (step d.world e.stored))
  unfold afterEvent onChargerEvent
  dsimp only
  split
  · exact everywhere_saveCheckpoint (sound_deliver hevent _).1 hdelivered
  · exact hdelivered

/-- What has come of the transaction that the flash held when the device came up. -/
def Recovering (transactionId : Int) (w : World) : Prop := Booting transactionId w ∨ Recovered transactionId w

/-- As long as the connector boots, the transaction is everywhere. -/
def Holding (transactionId : Int) (d : Device) : Prop := d.world.base.fsm = .booting → Everywhere transactionId d

/-- The step out of Booting asks for the transaction to be stopped. -/
def LeavesAsking (transactionId : Int) (d d' : Device) : Prop :=
  d.world.base.fsm = .booting → d'.world.base.fsm ≠ .booting → AsksForStop transactionId d'.world

theorem recovering_afterEvent (hne : transactionId ≠ 0) (hrecovering : Recovering transactionId d.world) (e : Event) :
    Recovering transactionId (afterEvent ext d e).world ∧ LeavesAsking transactionId d (afterEvent ext d e) := by
  have hworld := world_afterEvent ext d e
  unfold Recovering LeavesAsking
  rw [hworld]
  rcases hrecovering with hboots | hrecovered
  · rcases hboots.step hne e.stored with hstill | ⟨hleft, hasks⟩
    · exact ⟨.inl hstill, fun _ hfsm => absurd hstill.fsm hfsm⟩
    · exact ⟨.inr hleft, fun _ _ => hasks⟩
  · exact ⟨.inr (hrecovered.step e.stored), fun hboots => absurd hboots hrecovered.fsm⟩

theorem holding_afterEvent (h : Sound ext d) (hne : transactionId ≠ 0) (hrecovering : Recovering transactionId d.world)
    (hholding : Holding transactionId d) (e : Event) : Holding transactionId (afterEvent ext d e) := by
  intro hfsm
  rw [world_afterEvent] at hfsm
  rcases hrecovering with hboots | hrecovered
  · rcases hboots.step hne e.stored with hstill | ⟨hleft, -⟩
    · exact everywhere_afterEvent h (hholding hboots.fsm) hstill.checkpoint
    · exact absurd hfsm hleft.fsm
  · exact absurd hfsm (hrecovered.step e.stored).fsm

def DeviceOp.isCut : DeviceOp → Bool
  | .cut .. => true
  | _ => false

theorem recovering_step (hne : transactionId ≠ 0) (hrecovering : Recovering transactionId d.world) {op : DeviceOp}
    (hop : op.isCut = false) :
    Recovering transactionId (d.step ext op).world ∧ LeavesAsking transactionId d (d.step ext op) := by
  cases op with
  | event e => exact recovering_afterEvent hne hrecovering e
  | availability env available =>
      have hset : Recovering transactionId (setAvailability d available).world := hrecovering
      exact recovering_afterEvent hne hset (.changeAvailability env available)
  | config op => exact ⟨hrecovering, fun hboots hfsm => absurd hboots hfsm⟩
  | cut => cases hop

theorem holding_step (h : Sound ext d) (hne : transactionId ≠ 0) (hrecovering : Recovering transactionId d.world)
    (hholding : Holding transactionId d) {op : DeviceOp} (hop : op.isCut = false) (hspares : op.SparesCheckpoint) :
    Holding transactionId (d.step ext op) := by
  cases op with
  | event e => exact holding_afterEvent h hne hrecovering hholding e
  | availability env available =>
      have hset : Sound ext (setAvailability d available) := ⟨h.config, h.words⟩
      exact holding_afterEvent hset hne hrecovering hholding (.changeAvailability env available)
  | config op =>
      have hram := checkpointIn_step ext d.config.mgr hspares
      intro hboots
      obtain ⟨hcheckpoint, hbasic, hflash⟩ := hholding hboots
      refine ⟨hcheckpoint, (congrArg readTid hram).trans hbasic, ?_⟩
      simp only [Device.step, stepPowered]
      split
      · exact (congrArg readTid hram).trans hbasic
      · exact hflash
  | cut => cases hop

theorem quiet_create (id : Nat) (param : ConnectorParam) (checkpoint : Checkpoint) (cache localList : UidStore) :
    Quiet (create id param checkpoint cache localList) :=
  ⟨fun _ hr => absurd hr List.not_mem_nil, fun _ hmsg => absurd hmsg List.not_mem_nil⟩

/-- The device that comes up after a cut. -/
theorem recovering_cut (h : Sound ext d) (param : ConnectorParam) (cache localList : UidStore) :
    Recovering (readTid (checkpointIn d.config.saved)) (d.step ext (.cut param cache localList)).world ∧
      Holding (readTid (checkpointIn d.config.saved)) (d.step ext (.cut param cache localList)) := by
  have heq := durableLedger_cut h.config param cache localList
  have hsaved := congrArg (fun L => L.saved) heq
  have hstaged := congrArg DurableLedger.staged heq
  have hflash := congrArg DurableLedger.flash heq
  have hworld : (d.step ext (.cut param cache localList)).world =
      create d.world.base.id param (d.step ext (.cut param cache localList)).world.checkpoint cache localList := rfl
  refine ⟨.inl ⟨?_, ?_, hsaved, ?_⟩, fun _ => ⟨hsaved, hstaged, hflash⟩⟩
  · rw [hworld]
    rfl
  · rw [hworld]
    rfl
  · rw [hworld]
    exact quiet_create _ _ _ _ _

end Device

/-- The power is cut at any time of any run, and the flash has a transaction. Until the next cut: while the connector boots it asks for nothing to be stopped; the step that leaves Booting asks for the transaction to be stopped, for loss of power; and it is the first transaction that the connector asks to be stopped. While it boots, the flash keeps the transaction as well, unless the configuration is reset or written over. -/
theorem interrupted_transaction_stopped (ext : Externals) (id : Nat) (param param' : ConnectorParam)
    (cache cache' localList localList' : UidStore) {nvs : Kvstore} (hreads : 0 ≤ nvs.readReturns)
    (before after : List DeviceOp) (hbefore : ∀ op ∈ before, op.Current) (hafter : ∀ op ∈ after, op.isCut = false) :
    ∀ d, d = run (Device.step ext) (Device.start ext id param cache localList nvs) before →
      ∀ transactionId, transactionId = readTid (checkpointIn d.config.saved) → transactionId ≠ 0 →
        EveryState (Device.step ext)
          (fun d => (d.world.base.fsm = .booting → stops d.world = []) ∧
            (d.world.base.fsm ≠ .booting → (stops d.world).head? = some transactionId))
          (d.step ext (.cut param' cache' localList')) after ∧
        EveryStep (Device.step ext) (fun d op => LeavesAsking transactionId d (d.step ext op))
          (d.step ext (.cut param' cache' localList')) after ∧
        ((∀ op ∈ after, op.SparesCheckpoint) →
          EveryState (Device.step ext)
            (fun d => d.world.base.fsm = .booting → readTid (checkpointIn d.config.saved) = transactionId)
            (d.step ext (.cut param' cache' localList')) after) := by
  rintro d rfl transactionId rfl hne
  have hcurrent : EveryStep (Device.step ext) (fun _ op => op.Current) (Device.start ext id param cache localList nvs)
      before := everyStep_of_forall_mem _ hbefore
  have hsound := run_conditional_invariant (I := Sound ext) (fun d op h hop => (sound_step h hop).1)
    (sound_start ext id param cache localList hreads) hcurrent
  generalize run (Device.step ext) (Device.start ext id param cache localList nvs) before = d at hsound hne ⊢
  have hpower : (DeviceOp.cut param' cache' localList').Current := trivial
  have hcut := (sound_step hsound hpower).1
  obtain ⟨hstart, hholding⟩ := recovering_cut hsound param' cache' localList'
  have hops : EveryStep (Device.step ext) (fun _ op => op.isCut = false) (d.step ext (.cut param' cache' localList')) after :=
    everyStep_of_forall_mem _ hafter
  have hstep : ∀ (d' : Device) (op : DeviceOp),
      Recovering (readTid (checkpointIn d.config.saved)) d'.world → op.isCut = false →
        Recovering (readTid (checkpointIn d.config.saved)) (d'.step ext op).world :=
    fun d' op h hop => (recovering_step hne h hop).1
  refine ⟨?_, ?_, fun hspares => ?_⟩
  · refine everyState_of_conditional_invariant hstep ?_ hstart hops
    rintro d' (hboots | hrecovered)
    · exact ⟨fun _ => hboots.stops, fun hleft => absurd hboots.fsm hleft⟩
    · exact ⟨fun hboots => absurd hboots hrecovered.fsm, fun _ => hrecovered.stops⟩
  · exact everyStep_of_conditional_invariant hstep (fun d' op h hop => (recovering_step hne h hop).2) hstart hops
  · refine everyState_of_conditional_invariant
      (I := fun d' => Sound ext d' ∧ Recovering (readTid (checkpointIn d.config.saved)) d'.world ∧
        Holding (readTid (checkpointIn d.config.saved)) d')
      (C := fun _ op => op.isCut = false ∧ op.SparesCheckpoint) ?_ (fun d' h hboots => (h.2.2 hboots).2.2)
      ⟨hcut, hstart, hholding⟩ (hops.and (everyStep_of_forall_mem _ hspares))
    rintro d' op ⟨hsound', hrecovering, hholds⟩ ⟨hop, hspares⟩
    exact ⟨(sound_step hsound' hspares.current).1, (recovering_step hne hrecovering hop).1,
      holding_step hsound' hne hrecovering hholds hop hspares⟩

/-- A blob with transaction 7 in the checkpoint. -/
def blobOfSeven : Config :=
  let cfg := Config.put (setVersion .zero configVersion) .ocppCheckpoint [7]
  setCrc cfg (computeCrc ⟨0, crc32⟩ cfg)

def storeOfSeven : Kvstore := { values := fun _ => some blobOfSeven.bytes }

theorem saved_start (ext : Externals) (id : Nat) (param : ConnectorParam) (cache localList : UidStore) (nvs : Kvstore) :
    (Device.start ext id param cache localList nvs).config.saved = (configInit ext nvs).1.basic := rfl

theorem configInit_storeOfSeven : (configInit ⟨0, crc32⟩ storeOfSeven).1.basic = blobOfSeven := by
  have hversion : version blobOfSeven = configVersion := by
    rw [blobOfSeven, version_setCrc]
    decide +kernel
  have hloads : (configInit ⟨0, crc32⟩ storeOfSeven).1 = { nvs := storeOfSeven, basic := blobOfSeven, dirty := false } :=
    configInit_loads rfl rfl hversion (checked_setCrc _ _)
  rw [hloads]

theorem readTid_blobOfSeven : readTid (checkpointIn blobOfSeven) = 7 := by
  rw [blobOfSeven, checkpointIn_of_same (sameButCrc_setCrc _ _)]
  decide +kernel

/-- The connector comes up after the cut. -/
theorem transaction_of_seven_stopped :
    EveryStep (Device.step ⟨0, crc32⟩)
      (fun d op => LeavesAsking 7 d (d.step ⟨0, crc32⟩ op))
      ((Device.start ⟨0, crc32⟩ 1 freshBoot.param (fun _ => none) (fun _ => none) storeOfSeven).step ⟨0, crc32⟩
        (.cut freshBoot.param (fun _ => none) fun _ => none))
      (bootEvents.map .event) := by
  have hops : ∀ op ∈ bootEvents.map DeviceOp.event, op.isCut = false := by
    intro op hop
    obtain ⟨e, -, rfl⟩ := List.mem_map.mp hop
    rfl
  have hseven : 7 = readTid (checkpointIn
      (Device.start ⟨0, crc32⟩ 1 freshBoot.param (fun _ => none) (fun _ => none) storeOfSeven).config.saved) := by
    rw [saved_start, configInit_storeOfSeven, readTid_blobOfSeven]
  exact (interrupted_transaction_stopped ⟨0, crc32⟩ 1 freshBoot.param freshBoot.param (fun _ => none) (fun _ => none)
    (fun _ => none) (fun _ => none) (Int.le_refl 0) [] (bootEvents.map .event) (List.forall_mem_nil _) hops _ rfl 7 hseven
    (by decide)).2.1

end Evse.Ocpp
