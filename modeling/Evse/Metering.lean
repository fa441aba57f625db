import Evse.Lib.Run
import Mathlib.Data.UInt
import Mathlib.Tactic.Common

/-!
# Metering

The HLW8112 adapter, `hlw8112.c`. The chip counts energy in a register of 24 bits that wraps and that a power cycle or a reset clears; the adapter adds up the differences between successive readings in a total of 64 bits, which it saves from time to time through a callback. What the chip answers, what the callback answers and the time are inputs.
-/

namespace Evse

open StepRun

/-- `struct metering_energy`. -/
structure MeteringEnergy where
  wh : UInt64
  varh : UInt64
  deriving DecidableEq, Repr

/-- The chip's energy register. -/
abbrev EnergyRegister := Fin (2 ^ 24)

/-- `struct metering`, as far as energy goes: `saved` is `param.energy`, the last value known to be stored. -/
structure Metering where
  saved : MeteringEnergy
  energy : MeteringEnergy
  energyBase : EnergyRegister
  hasSaveCb : Bool
  tsRead : UInt32
  tsSaved : UInt32
  deriving DecidableEq

/-- What the calls return: 0 or a negative error number. -/
inductive MeteringErrno where
  | ok | again | io
  deriving DecidableEq, Repr

/-- A call of the save callback: what it returns, and the time after it. -/
structure SaveCall where
  succeeds : Bool := true
  now : UInt32 := 0
  deriving DecidableEq

/-- `hlw811x_get_energy` fails or reads the register. -/
structure StepCall where
  now : UInt32
  energy : Option EnergyRegister
  save : SaveCall := {}
  deriving DecidableEq

/-- Switching the chip's supply and setting it up, each of which can fail. -/
structure EnableCall where
  powered : Bool := true
  configured : Bool := true
  deriving DecidableEq

namespace Metering

def minIntervalMs : UInt32 := 1000

def energyMax : Nat := 0xffffff

def maxEnergyDelta : Nat := 22000

def energySaveThresholdWh : UInt32 := 1000

def energySaveIntervalMin : UInt32 := 5

/-- `metering_create_hlw8112` in a static structure, whose time stamps are zero. -/
def create (initial : MeteringEnergy) (hasSaveCb : Bool) : Metering :=
  { saved := initial, energy := initial, energyBase := 0, hasSaveCb := hasSaveCb, tsRead := 0, tsSaved := 0 }

variable (self : Metering)

/-- The chip is reset; nothing of the adapter's own state is. -/
def enable (call : EnableCall) : Metering × MeteringErrno :=
  (self, if !call.powered then .io else if !call.configured then .io else .ok)

def disable (call : EnableCall) : Metering × MeteringErrno := (self, if call.powered then .ok else .io)

def saveEnergy (call : SaveCall) : Metering × MeteringErrno :=
  let asked := self.hasSaveCb && self.energy ≠ self.saved
  let success := !asked || call.succeeds
  let self := if asked && call.succeeds then { self with saved := self.energy } else self
  if success then ({ self with tsSaved := call.now }, .ok) else (self, .io)

/-- A reading below the last one is taken for a wrap. -/
def energyDelta (wh base : EnergyRegister) : Nat :=
  if wh < base then (energyMax - base.val + 1) + wh.val else wh.val - base.val

/-- A difference above `MAX_ENERGY_DELTA` is reported and counted all the same. -/
def step (call : StepCall) : Metering × MeteringErrno :=
  if call.now - self.tsRead < minIntervalMs then (self, .again)
  else
    match call.energy with
    | none => (self, .io)
    | some wh =>
        let delta := energyDelta wh self.energyBase
        let self :=
          { self with
            energyBase := wh
            energy.wh := self.energy.wh + UInt64.ofNat delta
            tsRead := call.now }
        let ms := call.now - self.tsSaved
        let pending := (self.energy.wh - self.saved.wh).toUInt32
        if pending ≥ energySaveThresholdWh ∨ ms ≥ energySaveIntervalMin * 60 * 1000 then
          ((self.saveEnergy call.save).1, .ok)
        else (self, .ok)

/-! ### What the calls leave -/

@[simp] theorem saveEnergy_energy (call : SaveCall) : (self.saveEnergy call).1.energy = self.energy := by
  simp only [saveEnergy]
  split_ifs <;> rfl

@[simp] theorem saveEnergy_energyBase (call : SaveCall) :
    (self.saveEnergy call).1.energyBase = self.energyBase := by
  simp only [saveEnergy]
  split_ifs <;> rfl

theorem saveEnergy_saved (call : SaveCall) :
    (self.saveEnergy call).1.saved = self.saved ∨ (self.saveEnergy call).1.saved = self.energy := by
  simp only [saveEnergy]
  split_ifs
  · exact .inr rfl
  · exact .inl rfl
  · exact .inr rfl
  · exact .inl rfl

/-- The reading a step takes: none where it comes too early or the chip does not answer. -/
def reads (call : StepCall) : Option EnergyRegister :=
  if call.now - self.tsRead < minIntervalMs then none else call.energy

theorem step_ok_iff (call : StepCall) : (self.step call).2 = .ok ↔ (self.reads call).isSome = true := by
  simp only [step, reads]
  split_ifs
  · simp
  · cases call.energy with
    | none => simp
    | some wh =>
        dsimp only
        split_ifs <;> simp

theorem step_of_reads_none {call : StepCall} (h : self.reads call = none) : (self.step call).1 = self := by
  simp only [reads, ite_eq_left_iff] at h
  simp only [step]
  split_ifs with hearly
  · rfl
  · rw [h hearly]

/-- What a successful step leaves of the energy, whether it goes on to save it or not. -/
structure Accumulates (reading : EnergyRegister) (before after : Metering) : Prop where
  energyBase : after.energyBase = reading
  wh : after.energy.wh = before.energy.wh + UInt64.ofNat (energyDelta reading before.energyBase)
  saved : after.saved = before.saved ∨ after.saved = after.energy

theorem step_of_reads {call : StepCall} {wh : EnergyRegister} (h : self.reads call = some wh) :
    Accumulates wh self (self.step call).1 := by
  have hearly : ¬ call.now - self.tsRead < minIntervalMs := by
    intro hearly
    rw [reads, if_pos hearly] at h
    cases h
  have henergy : call.energy = some wh := by
    rw [reads, if_neg hearly] at h
    exact h
  simp only [step, if_neg hearly, henergy]
  split_ifs
  · refine ⟨by simp, by simp, ?_⟩
    rw [saveEnergy_energy]
    exact saveEnergy_saved _ call.save
  · exact ⟨rfl, rfl, .inl rfl⟩

theorem energyDelta_lt (wh base : EnergyRegister) : energyDelta wh base < 2 ^ 24 := by
  have hwh := wh.isLt
  have hbase := base.isLt
  simp only [energyDelta, energyMax, Fin.lt_def]
  split_ifs <;> omega

/-- The difference of two readings is how far a counter has come that they are the lowest 24 bits of. -/
theorem energyDelta_counter {wh base : EnergyRegister} {counter counter' : Nat} (hbase : base.val = counter % 2 ^ 24)
    (hwh : wh.val = counter' % 2 ^ 24) (hle : counter ≤ counter') (hlt : counter' < counter + 2 ^ 24) :
    energyDelta wh base = counter' - counter := by
  simp only [energyDelta, energyMax, Fin.lt_def, hbase, hwh]
  split_ifs <;> omega

end Metering

/-! ### Runs -/

/-- The calls that can be made on a meter. -/
inductive MeteringOp where
  | enable (call : EnableCall)
  | disable (call : EnableCall)
  | step (call : StepCall)
  | save (call : SaveCall)
  deriving DecidableEq

namespace Metering

variable (self : Metering)

def apply : MeteringOp → Metering
  | .enable call => (self.enable call).1
  | .disable call => (self.disable call).1
  | .step call => (self.step call).1
  | .save call => (self.saveEnergy call).1

def readsBy : MeteringOp → Option EnergyRegister
  | .step call => self.reads call
  | _ => none

/-- A call either takes a reading or leaves the energy as it is, saved perhaps. -/
theorem apply_cases (op : MeteringOp) :
    (∃ wh, self.readsBy op = some wh ∧ Accumulates wh self (self.apply op)) ∨
    (self.readsBy op = none ∧ (self.apply op).energyBase = self.energyBase ∧ (self.apply op).energy = self.energy ∧
      ((self.apply op).saved = self.saved ∨ (self.apply op).saved = self.energy)) := by
  cases op with
  | enable call => exact .inr ⟨rfl, rfl, rfl, .inl rfl⟩
  | disable call => exact .inr ⟨rfl, rfl, rfl, .inl rfl⟩
  | save call =>
      exact .inr ⟨rfl, self.saveEnergy_energyBase call, self.saveEnergy_energy call, self.saveEnergy_saved call⟩
  | step call =>
      cases hreads : self.reads call with
      | none =>
          have hkept : self.apply (.step call) = self := self.step_of_reads_none hreads
          rw [hkept]
          exact .inr ⟨hreads, rfl, rfl, .inl rfl⟩
      | some wh => exact .inl ⟨wh, hreads, self.step_of_reads hreads⟩

end Metering

/-! ### The total follows the chip's counter -/

/-- A meter with what the chip's counter, were it unbounded, would have shown at the last successful step. -/
structure Counted where
  meter : Metering
  counter : Nat

namespace Counted

/-- A call, made when the unbounded counter shows `call.2`. -/
def step (t : Counted) (call : MeteringOp × Nat) : Counted :=
  { meter := t.meter.apply call.1
    counter := if (t.meter.readsBy call.1).isSome then call.2 else t.counter }

def start (initial : MeteringEnergy) (hasSaveCb : Bool) : Counted := ⟨.create initial hasSaveCb, 0⟩

/-- A reading is the counter's lowest 24 bits, and from one reading to the next the counter advances by less than 2^24. -/
def ReadsCounter (t : Counted) (call : MeteringOp × Nat) : Prop :=
  ∀ wh ∈ t.meter.readsBy call.1, wh.val = call.2 % 2 ^ 24 ∧ t.counter ≤ call.2 ∧ call.2 < t.counter + 2 ^ 24

/-- The total is the initial energy and all the chip has counted, in 64 bits; what is saved is an earlier total. -/
structure Accounted (initial : MeteringEnergy) (t : Counted) : Prop where
  base : t.meter.energyBase.val = t.counter % 2 ^ 24
  total : t.meter.energy.wh.toNat = (initial.wh.toNat + t.counter) % 2 ^ 64
  saved : ∃ earlier ≤ t.counter, t.meter.saved.wh.toNat = (initial.wh.toNat + earlier) % 2 ^ 64

variable {initial : MeteringEnergy} {t : Counted}

theorem accounted_start (initial : MeteringEnergy) (hasSaveCb : Bool) : Accounted initial (start initial hasSaveCb) := by
  have hfits : initial.wh.toNat % 2 ^ 64 = initial.wh.toNat := Nat.mod_eq_of_lt initial.wh.toNat_lt
  exact ⟨rfl, hfits.symm, 0, Nat.le_refl 0, hfits.symm⟩

theorem accounted_step (call : MeteringOp × Nat) (h : Accounted initial t) (hcounter : ReadsCounter t call) :
    Accounted initial (t.step call) ∧ t.counter ≤ (t.step call).counter := by
  obtain ⟨earlier, hearlier, hsaved⟩ := h.saved
  rcases t.meter.apply_cases call.1 with ⟨wh, hreads, hacc⟩ | ⟨hreads, hbase, henergy, hkept⟩
  · obtain ⟨hwh, hle, hlt⟩ := hcounter wh hreads
    have hdelta := Metering.energyDelta_counter h.base hwh hle hlt
    have hcount : (t.step call).counter = call.2 := by simp [step, hreads]
    have htotal : (t.meter.apply call.1).energy.wh.toNat = (initial.wh.toNat + call.2) % 2 ^ 64 := by
      have hsum := h.total
      rw [hacc.wh, UInt64.toNat_add, UInt64.toNat_ofNat', hdelta]
      omega
    rw [hcount]
    refine ⟨⟨?_, ?_, ?_⟩, hle⟩
    · rw [hcount]
      exact (congrArg Fin.val hacc.energyBase).trans hwh
    · rw [hcount]
      exact htotal
    · rw [hcount]
      rcases hacc.saved with hsame | hnew
      · exact ⟨earlier, Nat.le_trans hearlier hle, (congrArg (fun e => e.wh.toNat) hsame).trans hsaved⟩
      · exact ⟨call.2, Nat.le_refl _, (congrArg (fun e => e.wh.toNat) hnew).trans htotal⟩
  · have hcount : (t.step call).counter = t.counter := by simp [step, hreads]
    rw [hcount]
    refine ⟨⟨?_, ?_, ?_⟩, Nat.le_refl _⟩
    · rw [hcount]
      exact (congrArg Fin.val hbase).trans h.base
    · rw [hcount]
      exact (congrArg (fun e => e.wh.toNat) henergy).trans h.total
    · rw [hcount]
      rcases hkept with hsame | hnew
      · exact ⟨earlier, hearlier, (congrArg (fun e => e.wh.toNat) hsame).trans hsaved⟩
      · exact ⟨t.counter, Nat.le_refl _, (congrArg (fun e => e.wh.toNat) hnew).trans h.total⟩

/-- After the call the total is the initial energy and all that was counted; it has not gone back, nor behind what is saved. -/
structure ExactAccount (initial : MeteringEnergy) (t : Counted) (call : MeteringOp × Nat) : Prop where
  total : (t.step call).meter.energy.wh.toNat = initial.wh.toNat + (t.step call).counter
  grows : t.meter.energy.wh ≤ (t.step call).meter.energy.wh
  saved : (t.step call).meter.saved.wh ≤ (t.step call).meter.energy.wh

/-- The same of a total that has 64 bits. -/
structure KeepsAccount (initial : MeteringEnergy) (t : Counted) (call : MeteringOp × Nat) : Prop where
  total : (t.step call).meter.energy.wh.toNat = (initial.wh.toNat + (t.step call).counter) % 2 ^ 64
  exact : initial.wh.toNat + (t.step call).counter < 2 ^ 64 → ExactAccount initial t call

theorem keepsAccount (call : MeteringOp × Nat) (h : Accounted initial t) (hcounter : ReadsCounter t call) :
    KeepsAccount initial t call := by
  obtain ⟨hstep, hle⟩ := accounted_step call h hcounter
  refine ⟨hstep.total, fun hfits => ?_⟩
  have htotal := hstep.total
  rw [Nat.mod_eq_of_lt hfits] at htotal
  refine ⟨htotal, ?_, ?_⟩
  · rw [UInt64.le_iff_toNat_le, htotal, h.total]
    omega
  · obtain ⟨earlier, hearlier, hsaved⟩ := hstep.saved
    rw [UInt64.le_iff_toNat_le, htotal, hsaved]
    omega

/-- Whatever the calls and whichever of them fail, the total follows the chip's counter across its wraps. -/
theorem energy_follows_counter (initial : MeteringEnergy) (hasSaveCb : Bool) (calls : List (MeteringOp × Nat))
    (h : EveryStep step ReadsCounter (start initial hasSaveCb) calls) :
    EveryStep step (KeepsAccount initial) (start initial hasSaveCb) calls :=
  everyStep_of_conditional_invariant (I := Accounted initial) (fun _ call hI hC => (accounted_step call hI hC).1)
    (fun _ call hI hC => keepsAccount call hI hC) (accounted_start initial hasSaveCb) h

instance (t : Counted) (call : MeteringOp × Nat) : Decidable (ReadsCounter t call) :=
  decidable_of_iff
    ((t.meter.readsBy call.1).all fun wh =>
      wh.val = call.2 % 2 ^ 24 ∧ t.counter ≤ call.2 ∧ call.2 < t.counter + 2 ^ 24)
    (by simp only [ReadsCounter, Option.all_eq_true, decide_eq_true_eq, Option.mem_def])

/-- The register wraps from 16777000 to 0, with a step that comes too early, one that fails and a save that fails. -/
def wrappingCalls : List (MeteringOp × Nat) := [
  (.step { now := 1000, energy := some 16777000, save := { succeeds := false } }, 16777000),
  (.step { now := 1500, energy := some 16777001 }, 16777001),
  (.step { now := 2500, energy := none }, 16777100),
  (.save { succeeds := false }, 16777100),
  (.step { now := 4000, energy := some 0 }, 16777216)]

theorem energy_follows_counter_across_wrap :
    EveryStep step ReadsCounter (start ⟨500, 0⟩ true) wrappingCalls ∧
      EveryStep step (KeepsAccount ⟨500, 0⟩) (start ⟨500, 0⟩ true) wrappingCalls :=
  have h : EveryStep step ReadsCounter (start ⟨500, 0⟩ true) wrappingCalls := by decide +kernel
  ⟨h, energy_follows_counter ⟨500, 0⟩ true wrappingCalls h⟩

/-- A total at the end of its 64 bits starts again from 0. -/
theorem total_wraps :
    EveryStep step ReadsCounter (start ⟨2 ^ 64 - 1, 0⟩ true) [(.step { now := 1000, energy := some 1 }, 1)] ∧
      ¬ EveryStep step (ExactAccount ⟨2 ^ 64 - 1, 0⟩) (start ⟨2 ^ 64 - 1, 0⟩ true)
          [(.step { now := 1000, energy := some 1 }, 1)] := by
  refine ⟨by decide +kernel, fun h => ?_⟩
  exact absurd h.1.grows (by decide +kernel)

end Counted

/-! ### How much one step adds -/

namespace Metering

/-- A step that succeeds adds no more than `MAX_ENERGY_DELTA`. -/
def AddsAtMost (self : Metering) : MeteringOp → Prop
  | .step call =>
      (self.step call).2 = .ok → ((self.step call).1.energy.wh - self.energy.wh).toNat ≤ maxEnergyDelta
  | _ => True

/-- The register is at most `MAX_ENERGY_DELTA` ahead of the last reading, straight or across its end. -/
def ReadsNear (self : Metering) (op : MeteringOp) : Prop :=
  ∀ wh ∈ self.readsBy op,
    (self.energyBase.val ≤ wh.val ∧ wh.val ≤ self.energyBase.val + maxEnergyDelta) ∨
      wh.val + 2 ^ 24 ≤ self.energyBase.val + maxEnergyDelta

theorem energyDelta_le_iff (wh base : EnergyRegister) :
    energyDelta wh base ≤ maxEnergyDelta ↔
      (base.val ≤ wh.val ∧ wh.val ≤ base.val + maxEnergyDelta) ∨ wh.val + 2 ^ 24 ≤ base.val + maxEnergyDelta := by
  have hwh := wh.isLt
  have hbase := base.isLt
  simp only [energyDelta, energyMax, maxEnergyDelta, Fin.lt_def]
  split_ifs <;> omega

theorem Accumulates.added {wh : EnergyRegister} {before after : Metering} (h : Accumulates wh before after) :
    (after.energy.wh - before.energy.wh).toNat = energyDelta wh before.energyBase := by
  have hlt := energyDelta_lt wh before.energyBase
  rw [h.wh, UInt64.add_comm, UInt64.add_sub_cancel, UInt64.toNat_ofNat']
  omega

theorem addsAtMost_iff (self : Metering) (op : MeteringOp) : self.AddsAtMost op ↔ self.ReadsNear op := by
  cases op with
  | step call =>
      rw [AddsAtMost, ReadsNear, step_ok_iff, readsBy]
      cases hreads : self.reads call with
      | none => simp
      | some wh =>
          rw [(self.step_of_reads hreads).added]
          simp [energyDelta_le_iff]
  | _ => simp [AddsAtMost, ReadsNear, readsBy]

/-- From any meter and over any calls, no step adds more than `MAX_ENERGY_DELTA` exactly when every reading taken is near the last one. -/
theorem adds_at_most_iff (initial : MeteringEnergy) (hasSaveCb : Bool) (ops : List MeteringOp) :
    EveryStep apply AddsAtMost (create initial hasSaveCb) ops ↔
      EveryStep apply ReadsNear (create initial hasSaveCb) ops :=
  everyStep_congr (I := fun _ => True) (fun _ _ _ => trivial) (fun self op _ => self.addsAtMost_iff op) trivial ops

/-- The chip is reset while the adapter still holds a reading from before. -/
def resetCalls : List MeteringOp := [
  .enable {}, .step { now := 1000, energy := some 100 }, .disable {}, .enable {},
  .step { now := 5000, energy := some 0 }]

/-- The reading after the reset is taken for a wrap, and 16777116 Wh are added. -/
theorem adds_a_whole_register : ¬ EveryStep apply AddsAtMost (create ⟨0, 0⟩ true) resetCalls := by
  intro h
  exact absurd (h.2.2.2.2.1 (by decide)) (by decide +kernel)

end Metering

end Evse
