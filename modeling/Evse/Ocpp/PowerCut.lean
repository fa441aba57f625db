import Evse.Ocpp.Checkpoint

/-!
# Transactions over power cuts

The ledger of a connector, extended by the configuration in RAM and the configuration a restart would find. Every step of the device is a short list of operations on it: one for the event, and for each write of the checkpoint the copy into the configuration and, unless the save fails, the write of that. What else is done with the configuration puts into it the checkpoint it then has.
-/

namespace Evse.Ocpp

open StepRun Config DurableLedger

section Ledger

variable (ext : Externals) (d : Device)

def pastStops : List Int := d.past.flatMap stops

def pastStarted : List Int := d.past.flatMap fun w => w.started.map (·.2)

/-- The ids of all the transactions that were asked to be stopped since the device was first looked at. -/
def allStops : List Int := pastStops d ++ stops d.world

/-- And of those that the CSMS has started. -/
def allStarted : List Int := pastStarted d ++ d.world.started.map (·.2)

def durableLedger : DurableLedger Int where
  slot := d.world.session.transactionId
  saved := d.world.checkpoint.transactionId
  stopped := allStops d
  started := allStarted d
  staged := readTid (checkpointIn d.config.mgr.basic)
  flash := readTid (checkpointIn d.config.saved)

/-! ### The operations a step amounts to -/

def saveOps : List (Op Int) :=
  .stage :: if saves ext d.config.mgr (.setAndSave checkpointKey (ocppCheckpoint d).bytes) then [.write] else []

def onConnectorEventOps (events : ConnectorEvent) : List (Op Int) :=
  if events.has (.billingStarted ||| .billingEnded) then saveOps ext d else []

def deliverOps : Device → List ConnectorEvent → List (Op Int)
  | _, [] => []
  | d, events :: rest => onConnectorEventOps ext d events ++ deliverOps (onConnectorEvent ext d events) rest

def afterEventOps (e : Event) : List (Op Int) :=
  let w := Ocpp.step d.world e.stored
  let d' := { d with world := w }
  let sent := delivered d.world w
  .ram (txOp d.world e.stored) ::
    (deliverOps ext d' sent ++
      if changesCheckpoint d.world e then saveOps ext (sent.foldl (onConnectorEvent ext) d') else [])

def deviceOps : DeviceOp → List (Op Int)
  | .event e => afterEventOps ext d e
  | .availability env available => afterEventOps ext (setAvailability d available) (.changeAvailability env available)
  | .config op =>
      .put (readTid (checkpointIn (Config.step ext d.config.mgr op).basic)) ::
        if saves ext d.config.mgr op then [.write] else []
  | .cut .. => [.cut]

end Ledger

/-! ### Every step is these operations -/

/-- What holds in every state: the configuration remembers what was saved, and every id fits the checkpoint. -/
structure Sound (ext : Externals) (d : Device) : Prop where
  config : Remembers ext d.config
  words : (durableLedger d).Within IsWord

section Steps

variable {ext : Externals} {d : Device}

/-- The id in the checkpoint fits it. -/
theorem Sound.isWord (h : Sound ext d) : IsWord d.world.checkpoint.transactionId :=
  h.words _ (.inl (.inr (.inr (.inl rfl))))

theorem durableLedger_event (d : Device) (e : Event) :
    durableLedger { d with world := Ocpp.step d.world e } = (durableLedger d).apply (.ram (txOp d.world e)) := by
  have hbehind : ∀ w, (durableLedger { d with world := w }).toLedger =
      (ledger w).behind (pastStops d) (pastStarted d) := fun _ => rfl
  have hbefore : (durableLedger d).toLedger = (ledger d.world).behind (pastStops d) (pastStarted d) := hbehind d.world
  rw [DurableLedger.apply, hbefore, Ledger.apply_behind, ← ledger_step]
  rfl

theorem durableLedger_saveCheckpoint (ext : Externals) (h : IsWord d.world.checkpoint.transactionId) :
    durableLedger (saveCheckpoint ext d) = run apply (durableLedger d) (saveOps ext d) := by
  have hbytes := readTid_ocppCheckpoint h
  have hram := checkpointIn_setAndSave ext d.config.mgr (ocppCheckpoint d)
  simp only [durableLedger, saveCheckpoint, stepPowered, saveOps, hram, hbytes]
  cases saves ext d.config.mgr (.setAndSave checkpointKey (ocppCheckpoint d).bytes) with
  | false => rfl
  | true =>
      simp only [if_true, hram, hbytes]
      rfl

theorem isWord_zero : IsWord 0 := ⟨Int.le_refl 0, by decide⟩

theorem Sound.of_run {d' : Device} (h : Sound ext d) (hconfig : Remembers ext d'.config) (ops : List (Op Int))
    (hops : ∀ op ∈ ops, ∀ transactionId, op.brought = some transactionId → IsWord transactionId)
    (heq : durableLedger d' = run apply (durableLedger d) ops) : Sound ext d' :=
  ⟨hconfig, heq ▸ within_run isWord_zero h.words hops⟩

theorem brought_saveOps : ∀ op ∈ saveOps ext d, op.brought = none := by
  unfold saveOps
  split <;> simp [Op.brought]

theorem sound_saveCheckpoint (h : Sound ext d) :
    Sound ext (saveCheckpoint ext d) ∧
      durableLedger (saveCheckpoint ext d) = run apply (durableLedger d) (saveOps ext d) := by
  have heq := durableLedger_saveCheckpoint ext h.isWord
  have hcurrent : (PowerOp.op (.setAndSave checkpointKey (ocppCheckpoint d).bytes)).Current := trivial
  refine ⟨h.of_run (remembers_step h.config hcurrent) _ (fun op hop transactionId hbrought => ?_) heq, heq⟩
  rw [brought_saveOps op hop] at hbrought
  cases hbrought

theorem sound_onConnectorEvent (h : Sound ext d) (events : ConnectorEvent) :
    Sound ext (onConnectorEvent ext d events) ∧
      durableLedger (onConnectorEvent ext d events) = run apply (durableLedger d) (onConnectorEventOps ext d events) := by
  unfold onConnectorEvent onConnectorEventOps
  split
  · exact sound_saveCheckpoint h
  · exact ⟨h, rfl⟩

theorem brought_deliverOps (sent : List ConnectorEvent) (d : Device) : ∀ op ∈ deliverOps ext d sent, op.brought = none := by
  induction sent generalizing d with
  | nil => exact fun _ hmem => absurd hmem List.not_mem_nil
  | cons events sent ih =>
      intro op hmem
      rcases List.mem_append.mp hmem with hmem | hmem
      · unfold onConnectorEventOps at hmem
        split at hmem
        · exact brought_saveOps op hmem
        · exact absurd hmem List.not_mem_nil
      · exact ih _ op hmem

theorem sound_deliver (h : Sound ext d) (sent : List ConnectorEvent) :
    Sound ext (sent.foldl (onConnectorEvent ext) d) ∧
      durableLedger (sent.foldl (onConnectorEvent ext) d) = run apply (durableLedger d) (deliverOps ext d sent) := by
  induction sent generalizing d with
  | nil => exact ⟨h, rfl⟩
  | cons events sent ih =>
      obtain ⟨hsound, heq⟩ := sound_onConnectorEvent h events
      obtain ⟨hrest, hrun⟩ := ih hsound
      refine ⟨hrest, ?_⟩
      rw [List.foldl_cons, hrun, heq, deliverOps, run_append]

/-- The operations an event can amount to, with what a start and a write of the checkpoint take. -/
inductive TxOp (w : World) (e : Event) : Ledger.Op Int → Prop where
  | keep : TxOp w e .keep
  | clear : TxOp w e .clear
  | stop : TxOp w e .stop
  | recover : TxOp w e .recover
  | start (env : Env) (id : Nat) (info : IdTagInfo) (transactionId : Int)
      (he : e = .receive env id (.startTransaction info transactionId)) : TxOp w e (.start transactionId)
  | save (transactionId : Int) (hmsg : .billingStarted transactionId ∈ w.msgq) : TxOp w e .save
  | forget (hmsg : .billingEnded ∈ w.msgq) : TxOp w e .forget

theorem processOp_cases (env : Env) (w w' : World) (e : Event) : TxOp w e (processOp env w') := by
  unfold processOp
  cases w'.base.fsm with
  | suspendedEVSE => exact .keep
  | _ =>
      dsimp only
      split_ifs <;> constructor

theorem txOp_cases (w : World) (e : Event) : TxOp w e (txOp w e) := by
  cases e with
  | process env =>
      simp only [txOp]
      split
      · exact processOp_cases env w _ _
      · exact .keep
  | receive env id response =>
      simp only [txOp, receiveOp]
      split
      · exact .keep
      · split
        · split <;> constructor
        · split
          · exact .start env id _ _ rfl
          · exact .clear
        · exact .keep
  | tryRelease env id =>
      simp only [txOp]
      split <;> constructor
  | release env remote =>
      simp only [txOp]
      split <;> constructor
  | mqRecv env =>
      simp only [txOp]
      split
      · rename_i transactionId msgs hmsgq
        exact .save transactionId (hmsgq ▸ List.mem_cons_self)
      · rename_i msgs hmsgq
        exact .forget (hmsgq ▸ List.mem_cons_self)
      · exact .keep
  | _ => exact .keep

/-- The id of a transaction that an event starts has been cast. -/
theorem isWord_of_start {w : World} {e : Event} {transactionId : Int} (h : txOp w e.stored = .start transactionId) :
    IsWord transactionId := by
  have hcases := txOp_cases w e.stored
  rw [h] at hcases
  cases hcases with
  | start env id info _ hstored =>
      unfold Event.stored at hstored
      split at hstored
      · cases hstored
        exact ⟨Int.emod_nonneg _ (by decide), Int.emod_lt_of_pos _ (by decide)⟩
      · rename_i hother
        exact absurd hstored (hother env id info transactionId)

theorem sound_event (h : Sound ext d) (e : Event) : Sound ext { d with world := Ocpp.step d.world e.stored } := by
  have hevent := durableLedger_event d e.stored
  refine h.of_run h.config [.ram (txOp d.world e.stored)] (List.forall_mem_singleton.mpr ?_) hevent
  intro transactionId hbrought
  cases hop : txOp d.world e.stored with
  | start new =>
      rw [hop] at hbrought
      exact Option.some.inj hbrought ▸ isWord_of_start hop
  | _ =>
      rw [hop] at hbrought
      cases hbrought

theorem sound_afterEvent (h : Sound ext d) (e : Event) :
    Sound ext (afterEvent ext d e) ∧
      durableLedger (afterEvent ext d e) = run apply (durableLedger d) (afterEventOps ext d e) := by
  have hevent := sound_event h e
  obtain ⟨hsound, heq⟩ := sound_deliver hevent (delivered d.world (Ocpp.step d.world e.stored))
  rw [durableLedger_event] at heq
  unfold afterEvent afterEventOps onChargerEvent
  dsimp only
  split
  · obtain ⟨hsound', heq'⟩ := sound_saveCheckpoint hsound
    refine ⟨hsound', ?_⟩
    rw [heq', heq, run_cons, run_append]
  · refine ⟨hsound, ?_⟩
    rw [heq, run_cons, List.append_nil]

theorem brought_afterEventOps (e : Event) : ∀ op ∈ (afterEventOps ext d e).tail, op.brought = none := by
  intro op hmem
  rcases List.mem_append.mp hmem with hmem | hmem
  · exact brought_deliverOps _ _ op hmem
  · split at hmem
    · exact brought_saveOps op hmem
    · exact absurd hmem List.not_mem_nil

theorem durableLedger_config (ext : Externals) (d : Device) (op : Config.Op) :
    durableLedger (d.step ext (.config op)) = run apply (durableLedger d) (deviceOps ext d (.config op)) := by
  simp only [durableLedger, Device.step, stepPowered, deviceOps]
  cases saves ext d.config.mgr op with
  | false => rfl
  | true => rfl

theorem durableLedger_cut (h : Remembers ext d.config) (param : ConnectorParam) (cache localList : UidStore) :
    durableLedger (d.step ext (.cut param cache localList)) = (durableLedger d).apply .cut := by
  have hram : checkpointIn (restart ext d.config.mgr).basic = checkpointIn d.config.saved := checkpointIn_of_same h.restart
  have hstops : allStops (d.step ext (.cut param cache localList)) = allStops d := by
    simp [allStops, pastStops, Device.step, powerUp, create, stops]
  have hstarted : allStarted (d.step ext (.cut param cache localList)) = allStarted d := by
    simp [allStarted, pastStarted, Device.step, powerUp, create]
  simp only [durableLedger, DurableLedger.apply, hstops, hstarted]
  simp only [Device.step, powerUp, create, readCheckpoint, loadCheckpoint_bytes, stepPowered, hram]

theorem sound_step (h : Sound ext d) {op : DeviceOp} (hop : op.Current) :
    Sound ext (d.step ext op) ∧ durableLedger (d.step ext op) = run apply (durableLedger d) (deviceOps ext d op) := by
  cases op with
  | event e => exact sound_afterEvent h e
  | availability env available =>
      have hset : Sound ext (setAvailability d available) := ⟨h.config, h.words⟩
      exact sound_afterEvent hset (.changeAvailability env available)
  | config op =>
      have heq := durableLedger_config ext d op
      refine ⟨h.of_run (remembers_step h.config hop) _ (List.forall_mem_cons.mpr ⟨?_, ?_⟩) heq, heq⟩
      · intro transactionId hbrought
        exact Option.some.inj hbrought ▸ isWord_readTid _
      · split <;> simp [Op.brought]
  | cut param cache localList =>
      have heq := durableLedger_cut h.config param cache localList
      refine ⟨h.of_run (remembers_cut h.config) [.cut] (List.forall_mem_singleton.mpr ?_) heq, heq⟩
      intro transactionId hbrought
      exact absurd hbrought.symm (Option.some_ne_none transactionId)

theorem brought_deviceOps (op : DeviceOp) : ∀ op' ∈ (deviceOps ext d op).tail, op'.brought = none := by
  cases op with
  | event e => exact brought_afterEventOps e
  | availability env available => exact brought_afterEventOps _
  | config op =>
      unfold deviceOps
      dsimp only [List.tail_cons]
      split <;> simp [Op.brought]
  | cut param cache localList => exact fun _ hmem => absurd hmem List.not_mem_nil

/-- What the other parts of the program put into the configuration was there before, or is none. -/
theorem accounted_step {first : Int} (h : Sound ext d) (haccounted : (durableLedger d).Sound first) {op : DeviceOp}
    (hop : op.Foreign) : (durableLedger (d.step ext op)).Sound first := by
  rw [(sound_step h hop.current).2]
  refine sound_run haccounted (fun transactionId hhead => ?_) (brought_deviceOps op)
  cases op with
  | config op =>
      obtain rfl : readTid (checkpointIn (Config.step ext d.config.mgr op).basic) = transactionId := by
        simpa [deviceOps] using hhead
      rcases hop with hspares | hresets
      · rw [checkpointIn_step ext d.config.mgr hspares]
        exact haccounted _ (.inr (.inr (.inr (.inl rfl))))
      · rw [checkpointIn_of_resets ext d.config.mgr hresets]
        exact .inl rfl
  | _ => cases hhead

/-- Writing the checkpoint keeps the store and RAM in step. -/
theorem persistent_saveCheckpoint (h : Persistent ext d.config.mgr) : Persistent ext (saveCheckpoint ext d).config.mgr :=
  (persistent_step h (.setAndSave checkpointKey (ocppCheckpoint d).bytes)).1

theorem persistent_deliver (h : Persistent ext d.config.mgr) (sent : List ConnectorEvent) :
    Persistent ext (sent.foldl (onConnectorEvent ext) d).config.mgr := by
  induction sent generalizing d with
  | nil => exact h
  | cons events sent ih =>
      refine ih ?_
      unfold onConnectorEvent
      split
      · exact persistent_saveCheckpoint h
      · exact h

theorem persistent_events (h : Persistent ext d.config.mgr) (evs : List Event) :
    Persistent ext (run (Device.step ext) d (evs.map .event)).config.mgr := by
  induction evs generalizing d with
  | nil => exact h
  | cons e evs ih =>
      have hevent : Persistent ext { d with world := Ocpp.step d.world e.stored }.config.mgr := h
      have hdelivered := persistent_deliver hevent (delivered d.world (Ocpp.step d.world e.stored))
      refine ih ?_
      simp only [Device.step, afterEvent, onChargerEvent]
      split
      · exact persistent_saveCheckpoint hdelivered
      · exact hdelivered

/-- Where there is nothing to save, what comes up after a cut has the same configuration. -/
theorem step_cut_of_persistent (h : Persistent ext d.config.mgr) (hclean : d.config.mgr.dirty = false)
    (hversion : version d.config.mgr.basic = configVersion) (param : ConnectorParam) (cache localList : UidStore) :
    d.step ext (.cut param cache localList) =
      powerUp d.world.base.id param cache localList d.config (d.past ++ [d.world]) := by
  have hsame : stepPowered ext d.config .cut = d.config := by
    rw [stepPowered_cut, restart_of_persistent ext h hclean hversion]
  rw [Device.step, hsame]

end Steps

/-! ### Runs -/

section Runs

variable (ext : Externals) (id : Nat) (param : ConnectorParam) (cache localList : UidStore) {nvs : Kvstore}

/-- The id of the transaction that the flash has when the device comes up. -/
def firstTid (nvs : Kvstore) : Int := readTid (checkpointIn (boot ext nvs).saved)

theorem sound_start (hreads : 0 ≤ nvs.readReturns) : Sound ext (Device.start ext id param cache localList nvs) := by
  refine ⟨remembers_boot hreads, ?_⟩
  rintro transactionId ((hstopped | rfl | rfl | rfl | rfl) | hstarted)
  · exact absurd hstopped List.not_mem_nil
  · exact isWord_zero
  · exact isWord_readTid _
  · exact isWord_readTid _
  · exact isWord_readTid _
  · exact absurd hstarted List.not_mem_nil

theorem accounted_start :
    (durableLedger (Device.start ext id param cache localList nvs)).Sound (firstTid ext nvs) := by
  have hram : readTid (loadCheckpoint (boot ext nvs).mgr).bytes = firstTid ext nvs := by
    rw [loadCheckpoint_bytes]
    rfl
  rintro transactionId (hstopped | hslot | hsaved | hstaged | hflash)
  · exact absurd hstopped List.not_mem_nil
  · exact .inl hslot.symm
  · exact .inr (.inl (hsaved.symm.trans hram))
  · exact .inr (.inl hstaged.symm)
  · exact .inr (.inl hflash.symm)

/-- Whatever happens, writes that fail, resets of the configuration and power cuts at any time included: a transaction that the connector asks to be stopped, in this or an earlier time of running, is none, the one that the flash had at first, or one that the CSMS had started. -/
theorem stops_accounted_for (hreads : 0 ≤ nvs.readReturns) (ops : List DeviceOp) (hops : ∀ op ∈ ops, op.Foreign) :
    EveryState (Device.step ext)
      (fun d => ∀ transactionId ∈ allStops d,
        transactionId = 0 ∨ transactionId = firstTid ext nvs ∨ transactionId ∈ allStarted d)
      (Device.start ext id param cache localList nvs) ops := by
  refine everyState_of_conditional_invariant
    (I := fun d => Sound ext d ∧ (durableLedger d).Sound (firstTid ext nvs)) (C := fun _ op => op.Foreign) ?_ ?_
    ⟨sound_start ext id param cache localList hreads, accounted_start ext id param cache localList⟩
    (everyStep_of_forall_mem _ hops)
  · intro d op h hop
    exact ⟨(sound_step h.1 hop.current).1, accounted_step h.1 h.2 hop⟩
  · intro d h transactionId hstopped
    exact h.2 transactionId (.inl hstopped)

/-- A connector boots, and transaction 7 is started and charges. -/
def chargingEvents : List Event := bootEvents ++ startEvents ++ [.mqRecv {}] ++ chargeEvents

/-- The device that comes up with no transaction in the flash. -/
def freshDevice : Device :=
  powerUp 1 freshBoot.param freshBoot.cache freshBoot.localList
    ⟨{ nvs := checkedStore, basic := checkedBlob, dirty := false }, checkedBlob⟩ []

theorem start_checkedStore :
    Device.start ⟨0, crc32⟩ 1 freshBoot.param freshBoot.cache freshBoot.localList checkedStore = freshDevice := by
  have hinit : (configInit ⟨0, crc32⟩ checkedStore).1 = { nvs := checkedStore, basic := checkedBlob, dirty := false } :=
    configInit_loads rfl rfl version_checkedBlob (checked_setCrc _ _)
  rw [Device.start, boot, hinit, freshDevice]

/-- The device while it charges. -/
def chargingDevice : Device := run (Device.step ⟨0, crc32⟩) freshDevice (chargingEvents.map .event)

/-- The power is cut while it charges, and the connector comes up again. Then all settings are reset. -/
def outageOps : List DeviceOp :=
  .cut freshBoot.param freshBoot.cache freshBoot.localList ::
    (bootEvents.map .event ++ [.config (.reset none), .config .save])

theorem cut_chargingDevice :
    chargingDevice.step ⟨0, crc32⟩ (.cut freshBoot.param freshBoot.cache freshBoot.localList) =
      powerUp 1 freshBoot.param freshBoot.cache freshBoot.localList chargingDevice.config [chargingDevice.world] := by
  have hmgr : freshDevice.config.mgr = { nvs := checkedStore, basic := checkedBlob, dirty := false } := rfl
  have hfresh : Persistent ⟨0, crc32⟩ freshDevice.config.mgr := by
    rw [hmgr]
    exact ⟨fun _ => ⟨rfl, checked_setCrc _ _⟩, rfl⟩
  have hpersistent := persistent_events hfresh chargingEvents
  rw [← chargingDevice] at hpersistent
  have hid : chargingDevice.world.base.id = 1 := by decide +kernel
  have hpast : chargingDevice.past = [] := List.length_eq_zero_iff.mp (by decide +kernel)
  have hcut := step_cut_of_persistent hpersistent (by decide +kernel) (by decide +kernel) freshBoot.param freshBoot.cache
    freshBoot.localList
  rwa [hid, hpast, List.nil_append] at hcut

theorem foreign_outage : ∀ op ∈ chargingEvents.map DeviceOp.event ++ outageOps, op.Foreign := by
  have hevents : ∀ evs : List Event, ∀ op ∈ evs.map DeviceOp.event, op.Foreign := by
    intro evs op hop
    obtain ⟨e, -, rfl⟩ := List.mem_map.mp hop
    trivial
  intro op hop
  simp only [outageOps, List.mem_append, List.mem_cons, List.not_mem_nil, or_false] at hop
  rcases hop with hop | rfl | hop | rfl | rfl
  · exact hevents _ op hop
  · trivial
  · exact hevents _ op hop
  · exact .inr rfl
  · exact .inl trivial

/-- Transaction 7 is started, the power is cut, and 7 is what the connector asks to be stopped when it comes up. -/
theorem outage_stops_accounted_for :
    let d := run (Device.step ⟨0, crc32⟩)
      (Device.start ⟨0, crc32⟩ 1 freshBoot.param freshBoot.cache freshBoot.localList checkedStore)
      (chargingEvents.map .event ++ outageOps)
    allStops d = [7] ∧ ∀ transactionId ∈ allStops d,
      transactionId = 0 ∨ transactionId = firstTid ⟨0, crc32⟩ checkedStore ∨ transactionId ∈ allStarted d := by
  refine ⟨?_, (stops_accounted_for ⟨0, crc32⟩ 1 freshBoot.param freshBoot.cache freshBoot.localList (Int.le_refl 0) _
    foreign_outage).last⟩
  rw [start_checkedStore, run_append, ← chargingDevice, outageOps, run_cons, cut_chargingDevice]
  decide +kernel

/-- Every transaction that the CSMS has started is being stopped, or still in the session, in the checkpoint, in the configuration or in what a restart would find. -/
def Recorded (d : Device) : Prop :=
  ∀ transactionId ∈ allStarted d, transactionId ≠ 0 →
    transactionId ∈ allStops d ∨ d.world.session.transactionId = transactionId ∨
      d.world.checkpoint.transactionId = transactionId ∨
        readTid (checkpointIn d.config.mgr.basic) = transactionId ∨ readTid (checkpointIn d.config.saved) = transactionId

/-- Along every run every transaction is recorded exactly when every step is safe: it clears or replaces no id that is nowhere else, and the power is not cut while one that is not stopped has not reached the flash. -/
theorem transactions_recorded_iff (hreads : 0 ≤ nvs.readReturns) (ops : List DeviceOp) (hops : ∀ op ∈ ops, op.Current) :
    EveryState (Device.step ext) Recorded (Device.start ext id param cache localList nvs) ops ↔
      EveryStep (Device.step ext) (fun d op => EveryStep apply DurableLedger.Safe (durableLedger d) (deviceOps ext d op))
        (Device.start ext id param cache localList nvs) ops := by
  refine everyState_iff_everyStep_of_mem (I := Sound ext) (fun d op hop h => (sound_step h hop).1) ?_ hops
    (sound_start ext id param cache localList hreads) (fun _ hmem => absurd hmem List.not_mem_nil)
  intro d op hop h hrecorded
  have heq := (sound_step h hop).2
  have hkept := DurableLedger.kept_run_iff (L := durableLedger d) hrecorded (deviceOps ext d op) (brought_deviceOps op)
  rw [← heq] at hkept
  exact hkept

/-- Transaction 7 is started, the power is cut, and 7 is never lost. -/
theorem outage_recorded :
    EveryState (Device.step ⟨0, crc32⟩) Recorded
      (Device.start ⟨0, crc32⟩ 1 freshBoot.param freshBoot.cache freshBoot.localList checkedStore)
      (chargingEvents.map .event ++ outageOps) := by
  refine (transactions_recorded_iff ⟨0, crc32⟩ 1 freshBoot.param freshBoot.cache freshBoot.localList (Int.le_refl 0) _
    fun op hop => (foreign_outage op hop).current).mpr ?_
  rw [start_checkedStore, everyStep_append, ← chargingDevice, outageOps, EveryStep, cut_chargingDevice]
  refine ⟨by decide +kernel, by decide +kernel, by decide +kernel⟩

end Runs

end Evse.Ocpp
