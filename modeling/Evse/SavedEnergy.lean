import Evse.Config.Field
import Evse.Metering

/-!
# Energy over power cuts

The meter of a connector and the configuration its energy is saved in. `app.c` reads the energy from the configuration when the power comes and creates the meter with it; the meter's save callback writes it back with `config_set_and_save`. The chip counts from 0 again after every cut.

What a cut can lose is what was counted since the last save: less than `METERING_ENERGY_SAVE_THRESHOLD_WH`, unless that save failed.
-/

namespace Evse

open StepRun Config

/-- `metering_ch1_key`. -/
def meteringCh1Key : String := "chg.c1.metering"

def MeteringEnergy.bytes (energy : MeteringEnergy) : List UInt8 :=
  LittleEndian.encode64 energy.wh ++ LittleEndian.encode64 energy.varh

def readEnergy (bytes : List UInt8) : MeteringEnergy :=
  ⟨LittleEndian.decode64 (bytes.take 8), LittleEndian.decode64 (bytes.drop 8)⟩

/-! ### A step and a save in parts -/

namespace Metering

variable (self : Metering)

/-- The energy after a reading. -/
def accumulate (now : UInt32) (wh : EnergyRegister) : Metering :=
  { self with
    energyBase := wh
    energy.wh := self.energy.wh + UInt64.ofNat (energyDelta wh self.energyBase)
    tsRead := now }

/-- The energy is to be saved after the reading. -/
def due (now : UInt32) : Prop :=
  (self.energy.wh - self.saved.wh).toUInt32 ≥ energySaveThresholdWh ∨
    now - self.tsSaved ≥ energySaveIntervalMin * 60 * 1000

instance (now : UInt32) : Decidable (self.due now) := inferInstanceAs (Decidable (_ ∨ _))

/-- A save calls the callback. -/
def asks : Prop := self.hasSaveCb = true ∧ self.energy ≠ self.saved

instance : Decidable self.asks := inferInstanceAs (Decidable (_ ∧ _))

theorem saveEnergy_of_asks (h : self.asks) (call : SaveCall) :
    (self.saveEnergy call).1 =
      if call.succeeds then { self with saved := self.energy, tsSaved := call.now } else self := by
  have hasked : (self.hasSaveCb && decide (self.energy ≠ self.saved)) = true := by
    rw [h.1, Bool.true_and, decide_eq_true_eq]
    exact h.2
  simp only [saveEnergy, hasked, Bool.not_true, Bool.false_or, Bool.true_and]
  split_ifs <;> rfl

theorem saveEnergy_of_not_asks (h : ¬ self.asks) (call : SaveCall) :
    (self.saveEnergy call).1 = { self with tsSaved := call.now } := by
  have hasked : (self.hasSaveCb && decide (self.energy ≠ self.saved)) = false := by
    rw [Bool.and_eq_false_iff, decide_eq_false_iff_not]
    exact (not_and_or.mp h).imp_left (Bool.not_eq_true _).mp
  simp only [saveEnergy, hasked, Bool.not_false, Bool.true_or, Bool.false_and, if_true, Bool.false_eq_true, if_false]

theorem step_of_reads_some {call : StepCall} {wh : EnergyRegister} (h : self.reads call = some wh) :
    (self.step call).1 = if (self.accumulate call.now wh).due call.now then
      ((self.accumulate call.now wh).saveEnergy call.save).1 else self.accumulate call.now wh := by
  unfold reads at h
  split at h
  · cases h
  · rename_i hearly
    simp only [step, if_neg hearly, h]
    split_ifs <;> first | rfl | contradiction

end Metering

/-! ### The device -/

structure Metered where
  meter : Metering
  config : Powered
  /-- What the chip has counted since the power came, as of the last reading. -/
  counter : Nat
  /-- What it had counted before the cuts, and how many there were. -/
  earlier : Nat
  cuts : Nat
  /-- The last save that called the callback has failed. -/
  unsaved : Bool

namespace Metered

variable (ext : Externals) (d : Metered)

/-- The write of `on_metering_save`. -/
def writeOf (energy : MeteringEnergy) : Op := .setAndSave meteringCh1Key energy.bytes

/-- `save_energy` with `on_metering_save` behind it. -/
def save (now : UInt32) : Metered :=
  if d.meter.asks then
    let op := writeOf d.meter.energy
    let success := saves ext d.config.mgr op
    { d with
      meter := (d.meter.saveEnergy ⟨success, now⟩).1
      config := stepPowered ext d.config (.op op)
      unsaved := !success }
  else { d with meter := (d.meter.saveEnergy ⟨true, now⟩).1 }

/-- `step`, while the chip has counted `counter`. -/
def read (call : StepCall) (counter : Nat) : Metered :=
  match d.meter.reads call with
  | none => d
  | some wh =>
      let d := { d with meter := d.meter.accumulate call.now wh, counter := counter }
      if d.meter.due call.now then d.save ext call.save.now else d

/-- `start_charger`: the energy the configuration has. -/
def powerUp (config : Powered) (earlier cuts : Nat) : Metered where
  meter := .create (readEnergy ((configGet config.mgr meteringCh1Key 16).1.getD [])) true
  config := config
  counter := 0
  earlier := earlier
  cuts := cuts
  unsaved := false

inductive Op where
  /-- A call of `metering_step`; the callback's success is found out. -/
  | read (call : StepCall) (counter : Nat)
  | save (now : UInt32)
  /-- Another part of the program uses the configuration. -/
  | config (op : Config.Op)
  | cut

def step (d : Metered) : Op → Metered
  | .read call counter => d.read ext call counter
  | .save now => d.save ext now
  | .config op => { d with config := stepPowered ext d.config (.op op) }
  | .cut => powerUp (stepPowered ext d.config .cut) (d.earlier + d.counter) (d.cuts + 1)

def start (nvs : Kvstore) : Metered := powerUp (boot ext nvs) 0 0

/-- What the meter says, in watt hours. -/
def wh : Nat := d.meter.energy.wh.toNat

/-- What the chip has counted in all. -/
def counted : Nat := d.earlier + d.counter

/-! ### The parts make the calls of the adapter -/

theorem meter_save (now : UInt32) : ∃ success, (d.save ext now).meter = (d.meter.saveEnergy ⟨success, now⟩).1 := by
  unfold save
  split
  · exact ⟨_, rfl⟩
  · exact ⟨true, rfl⟩

/-- The meter takes the step of the adapter, with what the configuration has answered to the callback. -/
theorem meter_read (call : StepCall) (counter : Nat) :
    ∃ success, (d.read ext call counter).meter =
      (d.meter.step { call with save := ⟨success, call.save.now⟩ }).1 := by
  unfold read
  cases hreads : d.meter.reads call with
  | none =>
      have hreads' : d.meter.reads { call with save := ⟨true, call.save.now⟩ } = none := hreads
      exact ⟨true, (d.meter.step_of_reads_none hreads').symm⟩
  | some wh =>
      obtain ⟨success, hsave⟩ :=
        meter_save ext { d with meter := d.meter.accumulate call.now wh, counter := counter } call.save.now
      refine ⟨success, ?_⟩
      have hreads' : d.meter.reads { call with save := ⟨success, call.save.now⟩ } = some wh := hreads
      rw [d.meter.step_of_reads_some hreads']
      dsimp only
      split
      · exact hsave
      · rfl

/-! ### The energy in a configuration -/

section Field

variable {ext} {d}

def energyIn (cfg : Config) : MeteringEnergy := readEnergy (fieldIn .connectorMetering cfg)

theorem ownKey_metering : OwnKey meteringCh1Key .connectorMetering := ⟨rfl, by decide, by decide⟩

theorem energyIn_of_same {cfg cfg' : Config} (h : SameButCrc cfg cfg') : energyIn cfg = energyIn cfg' :=
  congrArg readEnergy (ownKey_metering.fieldIn_of_same h)

theorem readEnergy_bytes (energy : MeteringEnergy) : readEnergy energy.bytes = energy := by
  have hlow : energy.bytes.take 8 = LittleEndian.encode64 energy.wh := rfl
  have hhigh : energy.bytes.drop 8 = LittleEndian.encode64 energy.varh := rfl
  rw [readEnergy, hlow, hhigh, LittleEndian.decode64_encode64, LittleEndian.decode64_encode64]

theorem energyIn_config (mgr : Mgr) {op : Config.Op} (hspares : Spares meteringCh1Key op) :
    energyIn (Config.step ext mgr op).basic = energyIn mgr.basic :=
  congrArg readEnergy (ownKey_metering.fieldIn_step ext mgr hspares)

theorem energyIn_write (mgr : Mgr) (energy : MeteringEnergy) :
    energyIn (Config.step ext mgr (writeOf energy)).basic = energy :=
  (congrArg readEnergy (ownKey_metering.fieldIn_setAndSave ext mgr rfl)).trans (readEnergy_bytes energy)

theorem meter_powerUp (config : Powered) (earlier cuts : Nat) :
    (powerUp config earlier cuts).meter = .create (energyIn config.mgr.basic) true := by
  have hget := ownKey_metering.configGet config.mgr
  rw [powerUp]
  exact congrArg (fun bytes => Metering.create (readEnergy bytes) true) (congrArg (Option.getD · []) hget)

end Field

/-! ### What holds of the energy -/

/-- What is known whatever fails: the total is short of what was counted by less than the threshold for each cut, and what is saved is no more than what a restart would find, that no more than what RAM has, and that no more than the total. -/
structure Accounts (first : Nat) : Prop where
  config : Remembers ext d.config
  callback : d.meter.hasSaveCb = true
  base : d.meter.energyBase.val = d.counter % 2 ^ 24
  total : d.wh ≤ first + d.counted
  short : first + d.counted ≤ d.wh + 999 * d.cuts
  saved : d.meter.saved.wh.toNat ≤ (energyIn d.config.saved).wh.toNat
  found : (energyIn d.config.saved).wh.toNat ≤ (energyIn d.config.mgr.basic).wh.toNat
  ram : (energyIn d.config.mgr.basic).wh.toNat ≤ d.wh

/-- What is not saved is below the threshold, unless the last save has failed. -/
def Near : Prop := d.unsaved = false → d.wh < d.meter.saved.wh.toNat + 1000

/-- A reading is the lowest 24 bits of what the chip has counted, and it counts less than 2^24 from one reading to the next; the total has 64 bits; the other parts of the program leave the energy in the configuration alone, which a reset does not; and the power is not cut while the last save has failed. -/
def Counts (first : Nat) (d : Metered) : Op → Prop
  | .read call counter =>
      ∀ wh ∈ d.meter.reads call, wh.val = counter % 2 ^ 24 ∧ d.counter ≤ counter ∧ counter < d.counter + 2 ^ 24 ∧
        first + d.earlier + counter < 2 ^ 64
  | .config op => Spares meteringCh1Key op
  | .cut => d.unsaved = false
  | .save _ => True

section Steps

variable {ext} {d} {first : Nat}

/-- What a save does. -/
inductive Saves (ext : Externals) (d : Metered) (now : UInt32) : Metered → Prop where
  | idle (h : d.meter.hasSaveCb = true → d.meter.energy = d.meter.saved) :
      Saves ext d now { d with meter := { d.meter with tsSaved := now } }
  | written (h : saves ext d.config.mgr (writeOf d.meter.energy) = true) :
      Saves ext d now
        { d with
          meter := { d.meter with saved := d.meter.energy, tsSaved := now }
          config := stepPowered ext d.config (.op (writeOf d.meter.energy))
          unsaved := false }
  | failed (h : saves ext d.config.mgr (writeOf d.meter.energy) = false) :
      Saves ext d now { d with config := stepPowered ext d.config (.op (writeOf d.meter.energy)), unsaved := true }

theorem save_saves (d : Metered) (now : UInt32) : Saves ext d now (d.save ext now) := by
  unfold save
  by_cases hasks : d.meter.asks
  · simp only [if_pos hasks, Metering.saveEnergy_of_asks _ hasks]
    cases hsaves : saves ext d.config.mgr (writeOf d.meter.energy) with
    | true => exact .written hsaves
    | false => exact .failed hsaves
  · rw [if_neg hasks, Metering.saveEnergy_of_not_asks _ hasks]
    exact .idle fun hcb => not_not.1 fun hne => hasks ⟨hcb, hne⟩

theorem accounts_save (h : Accounts ext d first) (now : UInt32) :
    Accounts ext (d.save ext now) first ∧ Near (d.save ext now) := by
  have hram : energyIn (stepPowered ext d.config (.op (writeOf d.meter.energy))).mgr.basic = d.meter.energy :=
    energyIn_write d.config.mgr d.meter.energy
  have hconfig : Remembers ext (stepPowered ext d.config (.op (writeOf d.meter.energy))) := remembers_step h.config trivial
  have hsaves : Saves ext d now (d.save ext now) := save_saves d now
  generalize d.save ext now = d' at hsaves
  cases hsaves with
  | idle hsame =>
      have hequal : d.meter.energy = d.meter.saved := hsame h.callback
      refine ⟨⟨h.config, h.callback, h.base, h.total, h.short, h.saved, h.found, h.ram⟩, fun _ => ?_⟩
      have hlt : d.meter.energy.wh.toNat < d.meter.saved.wh.toNat + 1000 := by
        rw [hequal]
        omega
      exact hlt
  | written hwritten =>
      have hflash : (stepPowered ext d.config (.op (writeOf d.meter.energy))).saved =
          (stepPowered ext d.config (.op (writeOf d.meter.energy))).mgr.basic := if_pos hwritten
      refine ⟨⟨hconfig, h.callback, h.base, h.total, h.short, ?_, ?_, ?_⟩, fun _ => ?_⟩
      · rw [hflash, hram]
      · rw [hflash]
      · rw [hram]
        exact Nat.le_refl _
      · exact Nat.lt_add_of_pos_right (by decide)
  | failed hfailed =>
      have hflash : (stepPowered ext d.config (.op (writeOf d.meter.energy))).saved = d.config.saved :=
        if_neg (by rw [hfailed]; decide)
      refine ⟨⟨hconfig, h.callback, h.base, h.total, h.short, ?_, ?_, ?_⟩, nofun⟩
      · rw [hflash]
        exact h.saved
      · rw [hflash, hram]
        exact Nat.le_trans h.found h.ram
      · rw [hram]
        exact Nat.le_refl _

/-- Short of the threshold nothing is due. -/
theorem near_of_not_due {self : Metering} {now : UInt32} (hsaved : self.saved.wh.toNat ≤ self.energy.wh.toNat)
    (hnear : self.energy.wh.toNat < self.saved.wh.toNat + 2 ^ 32) (hdue : ¬ self.due now) :
    self.energy.wh.toNat < self.saved.wh.toNat + 1000 := by
  have hpending := (not_or.mp hdue).1
  have hthreshold : Metering.energySaveThresholdWh.toNat = 1000 := rfl
  have hdiff : (self.energy.wh - self.saved.wh).toNat = self.energy.wh.toNat - self.saved.wh.toNat :=
    UInt64.toNat_sub_of_le _ _ (UInt64.le_iff_toNat_le.2 hsaved)
  rw [ge_iff_le, UInt32.le_iff_toNat_le, hthreshold, UInt64.toNat_toUInt32, hdiff] at hpending
  omega

theorem accounts_read (h : Accounts ext d first) (hnear : Near d) {call : StepCall} {counter : Nat}
    (hcounts : Counts first d (.read call counter)) :
    Accounts ext (d.read ext call counter) first ∧ Near (d.read ext call counter) := by
  unfold read
  cases hreads : d.meter.reads call with
  | none => exact ⟨h, hnear⟩
  | some wh =>
      obtain ⟨hwh, hle, hlt, hfits⟩ := hcounts wh hreads
      have hdelta := Metering.energyDelta_counter h.base hwh hle hlt
      have htotal := h.total
      have hshort := h.short
      have hsaved := Nat.le_trans h.saved (Nat.le_trans h.found h.ram)
      simp only [Metered.wh, counted] at htotal hshort hsaved
      have hgrows : (d.meter.accumulate call.now wh).energy.wh.toNat = d.meter.energy.wh.toNat + (counter - d.counter) := by
        rw [Metering.accumulate, UInt64.toNat_add, UInt64.toNat_ofNat', hdelta]
        omega
      have haccounts : Accounts ext { d with meter := d.meter.accumulate call.now wh, counter := counter } first := by
        refine ⟨h.config, h.callback, hwh, ?_, ?_, h.saved, h.found, ?_⟩
        · simp only [Metered.wh, counted, hgrows]
          omega
        · simp only [Metered.wh, counted, hgrows]
          omega
        · refine Nat.le_trans h.ram ?_
          simp only [Metered.wh, hgrows]
          omega
      dsimp only
      split
      · exact accounts_save haccounts call.save.now
      · rename_i hdue
        refine ⟨haccounts, fun hunsaved => ?_⟩
        have hbefore := hnear hunsaved
        simp only [Metered.wh] at hbefore ⊢
        have hkept : (d.meter.accumulate call.now wh).saved = d.meter.saved := rfl
        refine near_of_not_due ?_ ?_ hdue
        · rw [hgrows, hkept]
          omega
        · rw [hgrows, hkept]
          omega

theorem accounts_config (h : Accounts ext d first) {op : Config.Op} (hspares : Spares meteringCh1Key op) :
    Accounts ext (d.step ext (.config op)) first := by
  have hram : energyIn (stepPowered ext d.config (.op op)).mgr.basic = energyIn d.config.mgr.basic :=
    energyIn_config d.config.mgr hspares
  refine ⟨remembers_step h.config (current_of_spares hspares), h.callback, h.base, h.total, h.short, ?_, ?_, ?_⟩
  · simp only [step, stepPowered]
    split
    · rw [energyIn_config d.config.mgr hspares]
      exact Nat.le_trans h.saved h.found
    · exact h.saved
  · refine Nat.le_trans ?_ (Nat.le_of_eq (congrArg (·.wh.toNat) hram.symm))
    simp only [step, stepPowered]
    split
    · rw [energyIn_config d.config.mgr hspares]
    · exact h.found
  · exact Nat.le_trans (Nat.le_of_eq (congrArg (·.wh.toNat) hram)) h.ram

/-- The meter comes up with what the configuration has. -/
theorem accounts_powerUp {config : Powered} {earlier cuts : Nat} (hconfig : Remembers ext config)
    (hram : energyIn config.mgr.basic = energyIn config.saved)
    (htotal : (energyIn config.saved).wh.toNat ≤ first + earlier)
    (hshort : first + earlier ≤ (energyIn config.saved).wh.toNat + 999 * cuts) :
    Accounts ext (powerUp config earlier cuts) first ∧ Near (powerUp config earlier cuts) := by
  have hmeter := meter_powerUp config earlier cuts
  rw [hram] at hmeter
  have hwh : (powerUp config earlier cuts).wh = (energyIn config.saved).wh.toNat := congrArg (·.energy.wh.toNat) hmeter
  have hsaved : (powerUp config earlier cuts).meter.saved = energyIn config.saved := congrArg (·.saved) hmeter
  have hcounted : (powerUp config earlier cuts).counted = earlier := Nat.add_zero earlier
  refine ⟨⟨hconfig, congrArg (·.hasSaveCb) hmeter, congrArg (·.energyBase.val) hmeter, ?_, ?_, ?_, ?_, ?_⟩, fun _ => ?_⟩
  · rw [hwh, hcounted]
    exact htotal
  · rw [hwh, hcounted]
    exact hshort
  · rw [hsaved]
    exact Nat.le_refl _
  · exact Nat.le_of_eq (congrArg (·.wh.toNat) hram.symm)
  · rw [hwh]
    exact Nat.le_of_eq (congrArg (·.wh.toNat) hram)
  · rw [hwh, hsaved]
    exact Nat.lt_add_of_pos_right (by decide)

/-- What a restart finds of the energy. -/
theorem energyIn_cut (h : Remembers ext d.config) :
    energyIn (stepPowered ext d.config .cut).mgr.basic = energyIn (stepPowered ext d.config .cut).saved := by
  rw [stepPowered_cut]
  exact energyIn_of_same h.restart

theorem accounts_cut (h : Accounts ext d first) (hnear : Near d) (hunsaved : d.unsaved = false) :
    Accounts ext (d.step ext .cut) first ∧ Near (d.step ext .cut) := by
  have hbefore := hnear hunsaved
  have hsaved := h.saved
  have hfound := Nat.le_trans h.found h.ram
  have htotal := h.total
  have hshort := h.short
  rw [counted] at htotal hshort
  have hflash : (stepPowered ext d.config .cut).saved = d.config.saved := by
    rw [stepPowered_cut]
  have hram := energyIn_cut h.config
  have hconfig := remembers_cut h.config
  rw [step]
  generalize stepPowered ext d.config .cut = config at hflash hram hconfig
  refine accounts_powerUp hconfig hram ?_ ?_
  · rw [hflash]
    exact Nat.le_trans hfound htotal
  · rw [hflash]
    omega

theorem accounts_step (h : Accounts ext d first) (hnear : Near d) {op : Op} (hcounts : Counts first d op) :
    Accounts ext (d.step ext op) first ∧ Near (d.step ext op) := by
  cases op with
  | read call counter => exact accounts_read h hnear hcounts
  | save now => exact accounts_save h now
  | config op => exact ⟨accounts_config h hcounts, hnear⟩
  | cut => exact accounts_cut h hnear hcounts

end Steps

/-- The energy that the configuration has when the power first comes. -/
def firstWh (nvs : Kvstore) : Nat := (energyIn (boot ext nvs).saved).wh.toNat

theorem firstWh_blank : firstWh ⟨0, crc32⟩ blankStore = 0 := by
  have hfound : found ⟨0, crc32⟩ blankStore = .zero := found_of_value blankStore (Int.le_refl 0) rfl
  have hversion : version .zero ≠ configVersion := by decide +kernel
  have hdefaults : energyIn (applyDefaults ⟨0, crc32⟩ .zero) = ⟨0, 0⟩ := by decide +kernel
  rw [firstWh, boot, configInit_basic, hfound, loaded, if_pos hversion, energyIn_of_same (sameButCrc_setCrc _ _), hdefaults]
  rfl

end Metered

end Evse
