import Evse.Ocpp.PowerCut

/-!
# When the checkpoint is safe

A change of the checkpoint is announced before it is written: a changed availability by a message in the charger's queue, the begin and the end of billing by an event in the connector's queue. Whoever takes the announcement writes the whole checkpoint. So as long as no announcement is turned away by a full queue, the configuration has the checkpoint whenever nothing is announced; and when it is saved as well, a power cut changes nothing.
-/

namespace Evse.Ocpp

open StepRun Config

/-- The events whose callback writes the checkpoint. -/
def billing : ConnectorEvent := .billingStarted ||| .billingEnded

/-- A change of the checkpoint waits in a queue to be written. -/
def Announced (w : World) : Prop :=
  .availabilityChanged ∈ w.msgq ∨ ∃ event ∈ w.evtq, ConnectorEvent.has event billing = true

/-- The configuration in RAM has the checkpoint: the connector's part, and what is behind the connectors. -/
def Synced (d : Device) : Prop :=
  readCheckpoint (checkpointIn d.config.mgr.basic) = d.world.checkpoint ∧
    (checkpointIn d.config.mgr.basic).drop 8 = d.block.bytes.drop 8

/-- An announcement that the event makes finds room in its queue. -/
def Event.HasRoom (w : World) : Event → Prop
  | .changeAvailability env _ => env.msgqRoom = true
  | .mqRecv env => ∀ msg ∈ w.msgq.head?, msg.isBilling = true → env.evtqRoom = true
  | _ => True

def DeviceOp.HasRoom (d : Device) : DeviceOp → Prop
  | .event e => e.HasRoom d.world
  | .availability env _ => env.msgqRoom = true
  | _ => True

/-! ### Dispatching -/

section Dispatch

variable {w w' : World} {env : Env}

theorem has_foldl_or (events : List ConnectorEvent) (event mask : ConnectorEvent) :
    ConnectorEvent.has (events.foldl (· ||| ·) event) mask =
      (ConnectorEvent.has event mask || events.any (ConnectorEvent.has · mask)) := by
  induction events generalizing event with
  | nil => simp
  | cons raised events ih => rw [List.foldl_cons, ih, ConnectorEvent.has_or, List.any_cons, Bool.or_assoc]

/-- What is in the queue is dispatched, and the queue is empty. -/
theorem dispatchEvent_empties (hcb : w.base.eventCb = true) (event : ConnectorEvent) :
    (dispatchEvent event w).evtq = [] ∧ ∃ sent, (dispatchEvent event w).base.dispatched = w.base.dispatched ++ sent ∧
      ((∃ raised ∈ w.evtq, ConnectorEvent.has raised billing = true) →
        ∃ events ∈ sent, ConnectorEvent.has events billing = true) := by
  have hhas := has_foldl_or w.evtq event billing
  simp only [dispatchEvent, Connector.callback, hcb, if_true]
  generalize w.evtq.foldl (· ||| ·) event = events at hhas
  by_cases hzero : events = 0
  · subst hzero
    refine ⟨by simp, [], by simp, ?_⟩
    rintro ⟨raised, hmem, hraised⟩
    have hany : w.evtq.any (ConnectorEvent.has · billing) = true := List.any_eq_true.mpr ⟨raised, hmem, hraised⟩
    rw [hany, Bool.or_true] at hhas
    exact absurd hhas (by decide)
  · rw [if_pos hzero]
    refine ⟨rfl, [events], rfl, ?_⟩
    rintro ⟨raised, hmem, hraised⟩
    have hany : w.evtq.any (ConnectorEvent.has · billing) = true := List.any_eq_true.mpr ⟨raised, hmem, hraised⟩
    rw [hany, Bool.or_true] at hhas
    exact ⟨events, List.mem_cons_self, hhas⟩

/-- The actions of the machine only add to the queue. -/
theorem evtq_moves (hmove : Moves env w w') : w.evtq ⊆ w'.evtq := by
  have hsame : ∀ {w' : World}, w'.evtq = w.evtq → w.evtq ⊆ w'.evtq := fun heq => heq ▸ List.Subset.refl _
  cases hmove with
  | stay => exact hsame rfl
  | boot => exact hsame rfl
  | unavailable =>
      refine hsame ?_
      rw [doUnavailable, doMissingTransaction_evtq]
      rfl
  | available =>
      simp only [doAvailable, doMissingTransaction_evtq, raiseEvent_eq]
      split_ifs
      · exact List.subset_append_left _ _
      · exact hsame rfl
      · exact hsame rfl
  | preparing =>
      refine hsame ?_
      simp only [doPreparing, doMissingTransaction_evtq]
      split <;> rfl
  | faulted => exact hsame rfl
  | reserved => exact hsame rfl
  | requestTid =>
      refine hsame ?_
      simp only [doRequestTid, setSessionCurrentExpiry_eq]
      rfl
  | startCharging => exact hsame rfl
  | suspend => exact hsame rfl
  | finish =>
      refine hsame ?_
      simp only [doFinishing]
      split_ifs <;> rfl
  | keepCharging => exact hsame (doCharging_evtq env _ _)
  | resume => exact hsame (doCharging_evtq env _ _)
  | keepSuspended => exact hsame (doCharging_evtq env _ _)

/-- A step of the machine delivers what was raised before it. -/
theorem delivered_process (env : Env) (h : QueueInv w)
    (hraised : ∃ raised ∈ w.evtq, ConnectorEvent.has raised billing = true) :
    ∃ events ∈ delivered w (process env w), ConnectorEvent.has events billing = true := by
  obtain ⟨w₁, hmove, -, heq⟩ := process_eq env w
  obtain ⟨hinv, hdispatched⟩ := queueInv_moves (show QueueInv (stampNow env w) from h) hmove
  obtain ⟨raised, hmem, hhas⟩ := hraised
  have hmoved : ∃ raised ∈ w₁.evtq, ConnectorEvent.has raised billing = true :=
    ⟨raised, evtq_moves hmove hmem, hhas⟩
  have hdispatched : w₁.base.dispatched = w.base.dispatched := hdispatched
  have hsent : ∃ sent, (process env w).base.dispatched = w.base.dispatched ++ sent ∧
      ∃ events ∈ sent, ConnectorEvent.has events billing = true := by
    rw [heq]
    split
    · obtain ⟨-, sent, hsent, hbilling⟩ := dispatchEvent_empties hinv.1 .none
      exact ⟨sent, by rw [hsent, hdispatched], hbilling hmoved⟩
    · have hstamped : QueueInv { w₁ with base.timeLastStateChange := env.changeTime } := hinv
      simp only [onStateChange]
      generalize Connector.isOccupiedState (w₁.base.state env.toReadings) = plugged
      generalize getEventFromStateChange w₁.base.fsm w.base.fsm plugged = event
      obtain ⟨-, sent, hsent, hbilling⟩ := dispatchEvent_empties hstamped.1 event
      have hnext := (queueInv_dispatchEvent hstamped event).1
      obtain ⟨-, sent', hsent', -⟩ := dispatchEvent_empties hnext.1 .none
      obtain ⟨events, hevents, hhas⟩ := hbilling hmoved
      refine ⟨sent ++ sent', ?_, events, List.mem_append_left _ hevents, hhas⟩
      rw [hsent', hsent, ← List.append_assoc]
      exact congrArg (· ++ sent ++ sent') hdispatched
  obtain ⟨sent, hsent, hbilling⟩ := hsent
  rw [delivered, hsent, List.drop_left]
  exact hbilling

end Dispatch

/-! ### Events -/

section Events

variable {w w' : World} {e : Event}

/-- The checkpoint stays and no announcement goes. -/
structure Waits (w w' : World) : Prop where
  checkpoint : w'.checkpoint = w.checkpoint
  msgq : w.msgq ⊆ w'.msgq
  evtq : w.evtq ⊆ w'.evtq

theorem Waits.of_eq (hcheckpoint : w'.checkpoint = w.checkpoint) (hmsgq : w'.msgq = w.msgq) (hevtq : w'.evtq = w.evtq) :
    Waits w w' :=
  ⟨hcheckpoint, hmsgq ▸ List.Subset.refl _, hevtq ▸ List.Subset.refl _⟩

theorem AuthFrame.waits (h : AuthFrame w w') : Waits w w' := .of_eq h.checkpoint h.msgq h.evtq

theorem waits_mqSend (env : Env) (w : World) (msg : ChargerMsg) : Waits w (mqSend env w msg) := by
  unfold mqSend
  split
  · exact ⟨rfl, List.subset_append_left _ _, List.Subset.refl _⟩
  · exact .of_eq rfl rfl rfl

theorem waits_doStartTransaction (env : Env) (w : World) (req : Request) (info : IdTagInfo) (transactionId : Int) :
    Waits w (doStartTransaction env w req info transactionId) := by
  by_cases hstatus : info.status = .accepted
  · rw [doStartTransaction_accepted env w req hstatus]
    refine ⟨rfl, ?_, List.Subset.refl _⟩
    dsimp only
    split
    · exact List.subset_append_left _ _
    · exact List.Subset.refl _
  · rw [doStartTransaction_rejected env w req hstatus]
    exact .of_eq rfl rfl rfl

theorem waits_receive (env : Env) (w : World) (id : Nat) (response : Response) : Waits w (receive env w id response) := by
  -- the request is dropped first, which neither the checkpoint nor the queues see
  have hdropped : ∀ {w'}, Waits (dropRequest w id) w' → Waits w w' := fun h => ⟨h.checkpoint, h.msgq, h.evtq⟩
  unfold receive
  split
  · exact .of_eq rfl rfl rfl
  · unfold handlerProcess
    split
    · exact hdropped (authFrame_doAuth env _ _).waits
    · exact hdropped (waits_doStartTransaction env _ _ _ _)
    · exact hdropped (waits_mqSend env _ .billingEnded)
    · exact .of_eq rfl rfl rfl

theorem announced_changeAvailability {env : Env} (hroom : env.msgqRoom = true) (w : World) (available : Bool) :
    Announced (step w (.changeAvailability env available)) := by
  simp only [step, mqSend, hroom, if_true]
  exact .inl (List.mem_append_right _ List.mem_cons_self)

theorem Announced.waits (h : Announced w) (hwaits : Waits w w') : Announced w' := by
  rcases h with hmem | ⟨event, hmem, hbilling⟩
  · exact .inl (hwaits.msgq hmem)
  · exact .inr ⟨event, hwaits.evtq hmem, hbilling⟩

/-- The callbacks of the step write the checkpoint. -/
def Writes (w : World) (e : Event) : Prop :=
  (∃ events ∈ delivered w (step w e), ConnectorEvent.has events billing = true) ∨ changesCheckpoint w e = true

/-- Taking a message of the queue. -/
theorem announces_mqRecv (env : Env) (hroom : (Event.mqRecv env).HasRoom w) :
    ((mqRecv env w).checkpoint = w.checkpoint ∨ Announced (mqRecv env w)) ∧
      (Announced w → Announced (mqRecv env w) ∨ Writes w (.mqRecv env)) := by
  unfold mqRecv
  cases hmsgq : w.msgq with
  | nil => exact ⟨.inl rfl, fun hannounced => .inl hannounced⟩
  | cons msg msgs =>
      have hhead : msg ∈ w.msgq.head? := by rw [hmsgq]; rfl
      -- A message of another kind leaves those behind it.
      have hother : msg ≠ .availabilityChanged → ∀ w' : World, w'.msgq = msgs → w'.evtq = w.evtq → Announced w →
          Announced w' := by
        rintro hne w' hrest hevtq (hmem | hraised)
        · rw [hmsgq] at hmem
          exact .inl (hrest ▸ (List.mem_cons.mp hmem).resolve_left (Ne.symm hne))
        · exact .inr (hevtq ▸ hraised)
      have hbilling : msg.isBilling = true → ∀ (w' : World) (event : ConnectorEvent), ConnectorEvent.has event billing = true →
          Announced (raiseEvent env w' event) := by
        intro hmsg w' event hevent
        have hroom : env.evtqRoom = true := hroom msg hhead hmsg
        simp only [raiseEvent, hroom, if_true]
        exact .inr ⟨event, List.mem_append_right _ List.mem_cons_self, hevent⟩
      cases msg with
      | availabilityChanged =>
          refine ⟨.inl rfl, fun _ => .inr (.inr ?_)⟩
          simp only [changesCheckpoint, hmsgq, List.head?_cons, decide_true]
      | configurationChanged => exact ⟨.inl rfl, fun h => .inl (hother nofun _ rfl rfl h)⟩
      | csmsUp => exact ⟨.inl rfl, fun h => .inl (hother nofun _ rfl rfl h)⟩
      | remoteReset forced => exact ⟨.inl rfl, fun h => .inl (hother nofun _ rfl rfl h)⟩
      | billingStarted transactionId =>
          have hraised := hbilling rfl
          exact ⟨.inr (hraised _ _ (by decide)), fun _ => .inl (hraised _ _ (by decide))⟩
      | billingEnded =>
          have hraised := hbilling rfl
          exact ⟨.inr (hraised _ _ (by decide)), fun _ => .inl (hraised _ _ (by decide))⟩

/-- What becomes of the checkpoint and its announcements in a step that has room for them. -/
theorem announces_step (h : QueueInv w) (e : Event) (hroom : e.HasRoom w) :
    ((step w e).checkpoint = w.checkpoint ∨ Announced (step w e)) ∧
      (Announced w → Announced (step w e) ∨ Writes w e) := by
  have hwaits : Waits w (step w e) → ((step w e).checkpoint = w.checkpoint ∨ Announced (step w e)) ∧
      (Announced w → Announced (step w e) ∨ Writes w e) := fun hwaits =>
    ⟨.inl hwaits.checkpoint, fun hannounced => .inl (hannounced.waits hwaits)⟩
  cases e with
  | process env =>
      by_cases henabled : w.base.enabled = true
      · have hstep : step w (.process env) = process env w := if_pos henabled
        have huntouched : Untouched fun w : World => (w.checkpoint, w.msgq) :=
          ⟨fun _ _ => rfl, fun _ _ _ => rfl, fun _ _ => rfl, fun _ _ => rfl, fun _ _ => rfl⟩
        have hprocess := huntouched.process env w
        have hcheckpoint : (process env w).checkpoint = w.checkpoint := congrArg Prod.fst hprocess
        have hmsgq : (process env w).msgq = w.msgq := congrArg Prod.snd hprocess
        rw [hstep]
        refine ⟨.inl hcheckpoint, ?_⟩
        rintro (hmem | hraised)
        · exact .inl (.inl (hmsgq ▸ hmem))
        · refine .inr (.inl ?_)
          rw [hstep]
          exact delivered_process env h hraised
      · have hstep : step w (.process env) = w := if_neg henabled
        exact hwaits (by rw [hstep]; exact .of_eq rfl rfl rfl)
  | enable env => exact hwaits (.of_eq rfl rfl rfl)
  | disable => exact hwaits (.of_eq rfl rfl rfl)
  | setReserved reserved => exact hwaits (.of_eq rfl rfl rfl)
  | tryOccupy env id remote => exact hwaits (authFrame_tryOccupy env w id remote _).waits
  | tryRelease env id => exact hwaits (authFrame_tryRelease env w id _).waits
  | occupy env => exact hwaits (authFrame_occupy env w).waits
  | release env remote => exact hwaits (authFrame_release env w remote).waits
  | receive env id response => exact hwaits (waits_receive env w id response)
  | drop id => exact hwaits (.of_eq rfl rfl rfl)
  | mqRecv env => exact announces_mqRecv env hroom
  | bootAccepted env => exact hwaits (waits_mqSend env w _)
  | changeAvailability env available =>
      have hannounced := announced_changeAvailability hroom w available
      exact ⟨.inr hannounced, fun _ => .inl hannounced⟩
  | changeConfiguration env => exact hwaits (waits_mqSend env w _)
  | clearCache => exact hwaits (.of_eq rfl rfl rfl)
  | reset env forced => exact hwaits (waits_mqSend env w _)

end Events

/-! ### The device -/

section Device

variable {ext : Externals} {d : Device}

/-- The connector's part of the structure is read back as it was written, and the rest is as it was. -/
theorem read_ocppCheckpoint (h : IsWord d.world.checkpoint.transactionId) :
    readCheckpoint (ocppCheckpoint d).bytes = d.world.checkpoint ∧
      (ocppCheckpoint d).bytes.drop 8 = d.block.bytes.drop 8 := by
  have hflag : (ocppCheckpoint d).slice 4 1 = [boolByte d.world.checkpoint.unavailable] :=
    (d.block.put 0 (LittleEndian.encode (.ofInt d.world.checkpoint.transactionId))).slice_put 4
      (show 4 + 1 ≤ Member.ocppCheckpoint.size by decide)
  rw [ByteBlock.slice] at hflag
  have hrest : (ocppCheckpoint d).slice 8 8 = d.block.slice 8 8 := by
    rw [ByteBlock.slice_eq_iff]
    intro i hlow hhigh
    have hi : i < Member.ocppCheckpoint.size := hhigh
    rw [ocppCheckpoint, ByteBlock.getElem?_put _ _ _ hi, ByteBlock.getElem?_put _ _ _ hi, if_neg, if_neg]
    · simp only [LittleEndian.encode, List.length_cons, List.length_nil]
      omega
    · simp only [List.length_cons, List.length_nil]
      omega
  have hall : ∀ block : CheckpointBlock, block.slice 8 8 = block.bytes.drop 8 := by
    intro block
    rw [ByteBlock.slice, List.take_of_length_le]
    rw [List.length_drop, block.size]
    decide
  refine ⟨?_, by rw [← hall, ← hall, hrest]⟩
  have htid := readTid_ocppCheckpoint h
  simp only [readCheckpoint, htid, hflag]
  cases hunavailable : d.world.checkpoint.unavailable <;> simp [boolByte, ← hunavailable]

theorem synced_saveCheckpoint (h : Sound ext d) : Synced (saveCheckpoint ext d) := by
  have hwritten := checkpointIn_setAndSave ext d.config.mgr (ocppCheckpoint d)
  obtain ⟨hread, hrest⟩ := read_ocppCheckpoint h.isWord
  refine ⟨?_, ?_⟩
  · exact (congrArg readCheckpoint hwritten).trans hread
  · exact (congrArg (List.drop 8) hwritten).trans hrest

/-- A callback about billing writes the checkpoint, and the others leave it written. -/
theorem synced_deliver (h : Sound ext d) {sent : List ConnectorEvent}
    (hwritten : Synced d ∨ ∃ events ∈ sent, ConnectorEvent.has events billing = true) :
    Synced (sent.foldl (onConnectorEvent ext) d) := by
  induction sent generalizing d with
  | nil => exact hwritten.resolve_right fun ⟨_, hmem, _⟩ => absurd hmem List.not_mem_nil
  | cons events sent ih =>
      refine ih (sound_onConnectorEvent h events).1 ?_
      unfold onConnectorEvent
      split
      · exact .inl (synced_saveCheckpoint h)
      · rename_i hno
        refine hwritten.imp_right ?_
        rintro ⟨raised, hmem, hbilling⟩
        rcases List.mem_cons.mp hmem with rfl | hmem
        · exact absurd hbilling hno
        · exact ⟨raised, hmem, hbilling⟩

/-- The checkpoint is in the configuration or a change of it is announced. -/
structure Durable (ext : Externals) (d : Device) : Prop where
  sound : Sound ext d
  queue : QueueInv d.world
  written : Synced d ∨ Announced d.world

theorem changesCheckpoint_stored (w : World) (e : Event) : changesCheckpoint w e.stored = changesCheckpoint w e := by
  unfold Event.stored
  split <;> rfl

theorem hasRoom_stored {w : World} {e : Event} (h : e.HasRoom w) : e.stored.HasRoom w := by
  unfold Event.stored
  split
  · trivial
  · exact h

theorem durable_afterEvent (h : Durable ext d) {e : Event} (hroom : e.HasRoom d.world) :
    Durable ext (afterEvent ext d e) := by
  have hsound := (sound_afterEvent h.sound e).1
  have hworld := world_afterEvent ext d e
  have hqueue := (dispatched_step h.queue e.stored).1
  obtain ⟨hcheckpoint, hannounces⟩ := announces_step h.queue e.stored (hasRoom_stored hroom)
  refine ⟨hsound, hworld ▸ hqueue, ?_⟩
  rw [hworld]
  by_cases hstill : Announced (step d.world e.stored)
  · exact .inr hstill
  · left
    -- nothing is announced any more, so the checkpoint is as it was, and written now if it was not before
    have hsame := hcheckpoint.resolve_right hstill
    have hbefore : Synced { d with world := step d.world e.stored } ∨ Writes d.world e.stored := by
      rcases h.written with hsynced | hannounced
      · exact .inl ⟨hsynced.1.trans hsame.symm, hsynced.2⟩
      · exact .inr ((hannounces hannounced).resolve_left hstill)
    have hevent := sound_event h.sound e
    have hdeliver := fun hwritten => @synced_deliver ext _ hevent (delivered d.world (step d.world e.stored)) hwritten
    unfold afterEvent onChargerEvent
    rw [← changesCheckpoint_stored]
    dsimp only
    split
    · exact synced_saveCheckpoint (sound_deliver hevent _).1
    · rename_i hunchanged
      rcases hbefore with hsynced | hdelivered | hchanges
      · exact hdeliver (.inl hsynced)
      · exact hdeliver (.inr hdelivered)
      · exact absurd hchanges hunchanged

theorem synced_powerUp (id : Nat) (param : ConnectorParam) (cache localList : UidStore) (config : Powered)
    (past : List World) : Synced (powerUp id param cache localList config past) := by
  have hload := loadCheckpoint_bytes config.mgr
  exact ⟨congrArg readCheckpoint hload.symm, congrArg (List.drop 8) hload.symm⟩

/-- What comes up after a cut has what a restart finds. -/
theorem loads_cut (ext : Externals) (d : Device) (param : ConnectorParam) (cache localList : UidStore) :
    (d.step ext (.cut param cache localList)).world.checkpoint =
        readCheckpoint (checkpointIn (restart ext d.config.mgr).basic) ∧
      (d.step ext (.cut param cache localList)).block.bytes = checkpointIn (restart ext d.config.mgr).basic := by
  have hfound : (stepPowered ext d.config .cut).mgr = restart ext d.config.mgr := rfl
  simp only [Device.step, powerUp, create, hfound, loadCheckpoint_bytes, and_self]

theorem queueInv_create (id : Nat) (param : ConnectorParam) (checkpoint : Checkpoint) (cache localList : UidStore) :
    QueueInv (create id param checkpoint cache localList) :=
  ⟨rfl, fun _ hmem => absurd hmem List.not_mem_nil⟩

theorem durable_step (h : Durable ext d) {op : DeviceOp} (hroom : op.HasRoom d) (hspares : op.SparesCheckpoint) :
    Durable ext (d.step ext op) := by
  have hsound := (sound_step h.sound hspares.current).1
  cases op with
  | event e => exact durable_afterEvent h hroom
  | availability env available =>
      have hworld := world_afterEvent ext (setAvailability d available) (.changeAvailability env available)
      refine ⟨hsound, ?_, .inr ?_⟩
      · exact hworld ▸ (dispatched_step h.queue (.changeAvailability env available)).1
      · exact hworld ▸ announced_changeAvailability hroom d.world available
  | config op =>
      have hram := checkpointIn_step ext d.config.mgr hspares
      refine ⟨hsound, h.queue, h.written.imp_left ?_⟩
      rintro ⟨hread, hrest⟩
      exact ⟨(congrArg readCheckpoint hram).trans hread, (congrArg (List.drop 8) hram).trans hrest⟩
  | cut param cache localList => exact ⟨hsound, queueInv_create _ _ _ _ _, .inl (synced_powerUp _ _ _ _ _ _)⟩

end Device

/-- As long as every announcement finds room and the checkpoint in the configuration is left to the charger, and whatever writes fail and whenever the power is cut: where no change of the checkpoint is announced, the configuration in RAM has it; and where that is saved too, a connector that comes up after a power cut has the checkpoint it had before, and the charger its availability. -/
theorem checkpoint_outlives_power_cut (ext : Externals) (id : Nat) (param : ConnectorParam) (cache localList : UidStore)
    {nvs : Kvstore} (hreads : 0 ≤ nvs.readReturns) (ops : List DeviceOp) (hspares : ∀ op ∈ ops, op.SparesCheckpoint)
    (hroom : EveryStep (Device.step ext) DeviceOp.HasRoom (Device.start ext id param cache localList nvs) ops) :
    EveryState (Device.step ext)
      (fun d => ¬ Announced d.world →
        Synced d ∧ (d.config.mgr.dirty = false → ∀ param cache localList,
          (d.step ext (.cut param cache localList)).world.checkpoint = d.world.checkpoint ∧
            (d.step ext (.cut param cache localList)).block.bytes.drop 8 = d.block.bytes.drop 8))
      (Device.start ext id param cache localList nvs) ops := by
  have hstart : Durable ext (Device.start ext id param cache localList nvs) :=
    ⟨sound_start ext id param cache localList hreads, queueInv_create _ _ _ _ _, .inl (synced_powerUp _ _ _ _ _ _)⟩
  refine everyState_of_conditional_invariant (I := Durable ext)
    (fun d op h hop => durable_step h hop.1 hop.2) ?_ hstart (hroom.and (everyStep_of_forall_mem _ hspares))
  intro d h hquiet
  have hsynced := h.written.resolve_right hquiet
  refine ⟨hsynced, fun hclean param cache localList => ?_⟩
  have hsame : checkpointIn (restart ext d.config.mgr).basic = checkpointIn d.config.mgr.basic :=
    (checkpointIn_of_same h.sound.config.restart).trans (checkpointIn_of_same (h.sound.config.clean hclean)).symm
  obtain ⟨hread, hblock⟩ := loads_cut ext d param cache localList
  rw [hread, hblock, hsame]
  exact hsynced

/-- The connector is made unavailable, and the message about it is taken. -/
def unavailableOps : List DeviceOp := [.event (.changeAvailability {} false), .event (.mqRecv {})]

theorem unavailability_outlives_power_cut :
    ∃ d, d = run (Device.step ⟨0, crc32⟩)
        (Device.start ⟨0, crc32⟩ 1 freshBoot.param freshBoot.cache freshBoot.localList checkedStore) unavailableOps ∧
      d.world.checkpoint.unavailable = true ∧ ∀ param cache localList,
        (d.step ⟨0, crc32⟩ (.cut param cache localList)).world.checkpoint = d.world.checkpoint ∧
          (d.step ⟨0, crc32⟩ (.cut param cache localList)).block.bytes.drop 8 = d.block.bytes.drop 8 := by
  have hreads : 0 ≤ checkedStore.readReturns := Int.le_refl 0
  have hspares : ∀ op ∈ unavailableOps, op.SparesCheckpoint := by simp [unavailableOps, DeviceOp.SparesCheckpoint]
  have hroom : ∀ start : Device, EveryStep (Device.step ⟨0, crc32⟩) DeviceOp.HasRoom start unavailableOps :=
    fun _ => ⟨rfl, fun _ _ _ => rfl, trivial⟩
  have hall := (checkpoint_outlives_power_cut ⟨0, crc32⟩ 1 freshBoot.param freshBoot.cache freshBoot.localList hreads
    unavailableOps hspares (hroom _)).last
  rw [start_checkedStore] at hall ⊢
  have hmsgq : (run (Device.step ⟨0, crc32⟩) freshDevice unavailableOps).world.msgq = [] := by decide +kernel
  have hevtq : (run (Device.step ⟨0, crc32⟩) freshDevice unavailableOps).world.evtq = [] := by decide +kernel
  have hquiet : ¬ Announced (run (Device.step ⟨0, crc32⟩) freshDevice unavailableOps).world := by
    simp [Announced, hmsgq, hevtq]
  have hclean : (run (Device.step ⟨0, crc32⟩) freshDevice unavailableOps).config.mgr.dirty = false := by decide +kernel
  exact ⟨_, rfl, by decide +kernel, (hall hquiet).2 hclean⟩

end Evse.Ocpp
