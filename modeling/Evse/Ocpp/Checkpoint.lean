import Evse.Config.Field
import Evse.Lib.DurableLedger
import Evse.Ocpp.Stops

/-!
# The checkpoint in the flash

`app.c` and `extension_ocpp.c` between the connector and the configuration. What has to outlive a power cut, the id of a transaction and the availability of connector and charger, is kept in the charger's `struct ocpp_checkpoint`. The connector's part of it is reached by a pointer, so that it is one with the connector's checkpoint; the whole is written to the configuration under `ocpp.checkpoint` when an event of the connector says that billing has begun or ended, and when a message says that an availability has changed. `ext_init` reads it back.

The application attaches one connector. The power may be cut between any two steps; the configuration is used at any time, and the store fails writes as scripted. The other parts of the program leave the checkpoint in it to the charger, but for a reset of all settings, which empties it in RAM.
-/

namespace Evse.Ocpp

open StepRun Config

/-- `ocpp_transaction_id_t` is `uint32_t`; the id in a `StartTransaction.conf` is cast to it. -/
def Event.stored : Event → Event
  | .receive env id (.startTransaction info transactionId) =>
      .receive env id (.startTransaction info (transactionId % 2 ^ 32))
  | e => e

/-- A message whose handler writes the id in the checkpoint. -/
def ChargerMsg.isBilling : ChargerMsg → Bool
  | .billingStarted _ | .billingEnded => true
  | _ => false

/-- The bytes of `struct ocpp_checkpoint`. -/
abbrev CheckpointBlock := ByteBlock Member.ocppCheckpoint.size

def checkpointKey : String := "ocpp.checkpoint"

def boolByte (b : Bool) : UInt8 := if b then 1 else 0

def readTid (bytes : List UInt8) : Int := (LittleEndian.decode (bytes.take 4)).toNat

/-- The connector's part of the structure. -/
def readCheckpoint (bytes : List UInt8) : Checkpoint := ⟨readTid bytes, (bytes.drop 4).take 1 ≠ [0]⟩

structure Device where
  world : World
  /-- The structure in the charger; of the connector's part it holds what was loaded. -/
  block : CheckpointBlock
  config : Powered
  /-- The worlds that power cuts have ended, oldest first. -/
  past : List World

section Device

variable (ext : Externals) (d : Device)

/-- The charger's structure, with the connector's checkpoint where the pointer goes. -/
def ocppCheckpoint : CheckpointBlock :=
  (d.block.put 0 (LittleEndian.encode (.ofInt d.world.checkpoint.transactionId))).put 4
    [boolByte d.world.checkpoint.unavailable]

/-- The availability of the charger is behind the connectors. -/
def setAvailability (available : Bool) : Device := { d with block := d.block.put 8 [boolByte !available] }

/-- `config_set_and_save` of the structure. -/
def saveCheckpoint : Device :=
  { d with config := stepPowered ext d.config (.op (.setAndSave checkpointKey (ocppCheckpoint d).bytes)) }

/-- `on_connector_event`, as far as it concerns the checkpoint. -/
def onConnectorEvent (d : Device) (events : ConnectorEvent) : Device :=
  if events.has (.billingStarted ||| .billingEnded) then saveCheckpoint ext d else d

/-- The event sets with which a step from `w` to `w'` calls back. -/
def delivered (w w' : World) : List ConnectorEvent := w'.base.dispatched.drop w.base.dispatched.length

/-- `proc_availability` dispatches `OCPP_CHARGER_EVENT_CHECKPOINT_CHANGED`. -/
def changesCheckpoint (w : World) : Event → Bool
  | .mqRecv _ => w.msgq.head? = some .availabilityChanged
  | _ => false

/-- `on_charger_event`, as far as it concerns the checkpoint. -/
def onChargerEvent (changed : Bool) : Device := if changed then saveCheckpoint ext d else d

/-- `config_get` of the structure into a zeroed one. -/
def loadCheckpoint (mgr : Mgr) : CheckpointBlock :=
  ByteBlock.zero.put 0 ((configGet mgr checkpointKey Member.ocppCheckpoint.size).1.getD [])

/-- A charger that comes up with this configuration. -/
def powerUp (id : Nat) (param : ConnectorParam) (cache localList : UidStore) (config : Powered) (past : List World) :
    Device where
  world := create id param (readCheckpoint (loadCheckpoint config.mgr).bytes) cache localList
  block := loadCheckpoint config.mgr
  config := config
  past := past

inductive DeviceOp where
  | event (e : Event)
  /-- A `ChangeAvailability.req` for the charger. -/
  | availability (env : Env) (available : Bool)
  /-- A call of the configuration manager. -/
  | config (op : Op)
  /-- The power is cut and comes back: the stores of ids are what the flash has of them. -/
  | cut (param : ConnectorParam) (cache localList : UidStore)

/-- A whole configuration that is written over RAM is of this version. -/
def DeviceOp.Current : DeviceOp → Prop
  | .config op => (PowerOp.op op).Current
  | _ => True

/-- The checkpoint in the configuration is left to the charger, and not reset either. -/
def DeviceOp.SparesCheckpoint : DeviceOp → Prop
  | .config op => Spares checkpointKey op
  | _ => True

/-- What the other parts of the program do with the configuration: they leave the checkpoint alone, or reset it. -/
def DeviceOp.Foreign : DeviceOp → Prop
  | .config op => Spares checkpointKey op ∨ resets checkpointKey op = true
  | _ => True

theorem DeviceOp.Foreign.current {op : DeviceOp} (h : op.Foreign) : op.Current := by
  cases op with
  | config op => exact h.elim current_of_spares current_of_resets
  | _ => trivial

theorem DeviceOp.SparesCheckpoint.current {op : DeviceOp} (h : op.SparesCheckpoint) : op.Current := by
  cases op with
  | config op => exact current_of_spares h
  | _ => trivial

def afterEvent (e : Event) : Device :=
  let w := Ocpp.step d.world e.stored
  onChargerEvent ext ((delivered d.world w).foldl (onConnectorEvent ext) { d with world := w })
    (changesCheckpoint d.world e)

def Device.step (d : Device) : DeviceOp → Device
  | .event e => afterEvent ext d e
  | .availability env available => afterEvent ext (setAvailability d available) (.changeAvailability env available)
  | .config op => { d with config := stepPowered ext d.config (.op op) }
  | .cut param cache localList =>
      powerUp d.world.base.id param cache localList (stepPowered ext d.config .cut) (d.past ++ [d.world])

/-- The device comes up for the first time that is looked at. -/
def Device.start (id : Nat) (param : ConnectorParam) (cache localList : UidStore) (nvs : Kvstore) : Device :=
  powerUp id param cache localList (boot ext nvs) []

end Device

/-! ### Writing does nothing to the connector -/

section World

variable {ext : Externals}

theorem world_deliver (d : Device) (sent : List ConnectorEvent) :
    (sent.foldl (onConnectorEvent ext) d).world = d.world := by
  induction sent generalizing d with
  | nil => rfl
  | cons events sent ih =>
      rw [List.foldl_cons, ih]
      unfold onConnectorEvent
      split <;> rfl

theorem world_afterEvent (ext : Externals) (d : Device) (e : Event) : (afterEvent ext d e).world = Ocpp.step d.world e.stored := by
  unfold afterEvent onChargerEvent
  dsimp only
  split
  · exact world_deliver _ _
  · exact world_deliver _ _

end World

/-! ### The checkpoint in a configuration -/

def checkpointIn (cfg : Config) : List UInt8 := fieldIn .ocppCheckpoint cfg

theorem ownKey_checkpoint : OwnKey checkpointKey .ocppCheckpoint := ⟨rfl, by decide, by decide⟩

theorem checkpointIn_of_same {cfg cfg' : Config} (h : SameButCrc cfg cfg') : checkpointIn cfg = checkpointIn cfg' :=
  ownKey_checkpoint.fieldIn_of_same h

theorem loadCheckpoint_bytes (mgr : Mgr) : (loadCheckpoint mgr).bytes = checkpointIn mgr.basic := by
  rw [loadCheckpoint, ownKey_checkpoint.configGet]
  exact congrArg ByteBlock.bytes (ByteBlock.zero.put_zero ⟨checkpointIn mgr.basic, length_fieldIn _ _⟩)

/-- The other parts of the program leave the checkpoint in RAM. -/
theorem checkpointIn_step (ext : Externals) (mgr : Mgr) {op : Op} (hop : Spares checkpointKey op) :
    checkpointIn (Config.step ext mgr op).basic = checkpointIn mgr.basic :=
  ownKey_checkpoint.fieldIn_step ext mgr hop

/-- A reset empties it. -/
theorem checkpointIn_of_resets (ext : Externals) (mgr : Mgr) {op : Op} (hop : resets checkpointKey op = true) :
    checkpointIn (Config.step ext mgr op).basic = List.replicate Member.ocppCheckpoint.size 0 :=
  ownKey_checkpoint.fieldIn_of_resets List.length_replicate mgr hop

/-- The charger's own write of it. -/
theorem checkpointIn_setAndSave (ext : Externals) (mgr : Mgr) (block : CheckpointBlock) :
    checkpointIn (Config.step ext mgr (.setAndSave checkpointKey block.bytes)).basic = block.bytes :=
  ownKey_checkpoint.fieldIn_setAndSave ext mgr block.size

/-! ### The id in the checkpoint -/

/-- A value of `ocpp_transaction_id_t`. -/
def IsWord (transactionId : Int) : Prop := 0 ≤ transactionId ∧ transactionId < 2 ^ 32

theorem isWord_readTid (bytes : List UInt8) : IsWord (readTid bytes) := by
  have hlt := (LittleEndian.decode (bytes.take 4)).toNat_lt
  rw [IsWord, readTid]
  omega

theorem take_ocppCheckpoint (d : Device) :
    (ocppCheckpoint d).bytes.take 4 = LittleEndian.encode (.ofInt d.world.checkpoint.transactionId) := by
  have hslice : (d.block.put 0 (LittleEndian.encode (.ofInt d.world.checkpoint.transactionId))).slice 0 4 =
      LittleEndian.encode (.ofInt d.world.checkpoint.transactionId) :=
    d.block.slice_put 0 (show 0 + 4 ≤ Member.ocppCheckpoint.size by decide)
  rw [ocppCheckpoint, ByteBlock.take_put _ _ _ (by decide)]
  exact hslice

/-- What is written is read back. -/
theorem readTid_ocppCheckpoint {d : Device} (h : IsWord d.world.checkpoint.transactionId) :
    readTid (ocppCheckpoint d).bytes = d.world.checkpoint.transactionId := by
  obtain ⟨hlow, hhigh⟩ := h
  rw [readTid, take_ocppCheckpoint, LittleEndian.decode_encode, UInt32.ofInt, UInt32.toNat_ofNat']
  omega

end Evse.Ocpp
