import Evse.Config.Reset

/-!
# What a restart finds

The power may be cut at any time. RAM is gone then, and `config_init` loads what the store has. The store has what the last save that succeeded put there: settings changed since are lost, and neither a save that failed nor the cut itself leaves a mixture of old and new ones.

What is loaded is the same however often it is loaded, also where it had to be migrated or replaced by the defaults.
-/

namespace Evse.Config

open StepRun

variable (ext : Externals)

/-- The manager that `config_init` makes of the store. -/
def restart (mgr : Mgr) : Mgr := (configInit ext mgr.nvs).1

inductive PowerOp where
  | op (op : Op)
  | cut

/-- The save the operation makes, if it makes one, succeeds. -/
def saves (mgr : Mgr) : Op → Bool
  | .save => (configSave ext mgr).2 = 0
  | .setAndSave key data => (configSetAndSave ext mgr key data).2 = 0
  | _ => false

/-- The manager and, read by nothing, the configuration of the last save that succeeded. -/
structure Powered where
  mgr : Mgr
  saved : Config

/-- The device as it comes up; the first restart would find the same again. -/
def boot (nvs : Kvstore) : Powered := ⟨(configInit ext nvs).1, (configInit ext nvs).1.basic⟩

theorem boot_saved (nvs : Kvstore) : (boot ext nvs).saved = (boot ext nvs).mgr.basic := by
  simp only [boot]

def stepPowered (s : Powered) : PowerOp → Powered
  | .op op => ⟨step ext s.mgr op, if saves ext s.mgr op then (step ext s.mgr op).basic else s.saved⟩
  | .cut => ⟨restart ext s.mgr, s.saved⟩

theorem stepPowered_cut (s : Powered) : stepPowered ext s .cut = ⟨restart ext s.mgr, s.saved⟩ := rfl

/-- A whole configuration that is written over RAM is of this version. -/
def PowerOp.Current : PowerOp → Prop
  | .op (.writeAll cfg) => version cfg = configVersion
  | _ => True

section Same

variable {cfg cfg' cfg'' : Config}

theorem SameButCrc.of_eq (h : cfg = cfg') : SameButCrc cfg cfg' := by
  subst h
  rfl

theorem SameButCrc.symm (h : SameButCrc cfg cfg') : SameButCrc cfg' cfg := Eq.symm h

theorem SameButCrc.trans (h : SameButCrc cfg cfg') (h' : SameButCrc cfg' cfg'') : SameButCrc cfg cfg'' := Eq.trans h h'

/-- Every other field is the same. -/
theorem SameButCrc.slice_eq (h : SameButCrc cfg cfg') {member : Member} (hmember : member ≠ .crc) :
    cfg.slice (offsetof member) member.size = cfg'.slice (offsetof member) member.size := by
  have hbefore : ∀ member, member ≠ Member.crc → offsetof member + member.size ≤ offsetof .crc := by
    intro member hmember
    cases member <;> first | decide | exact absurd rfl hmember
  rw [ByteBlock.slice_eq_iff]
  intro i _ hhigh
  exact ByteBlock.slice_eq_iff.1 h i (Nat.zero_le i) (by
    rw [Nat.zero_add]
    exact Nat.lt_of_lt_of_le hhigh (hbefore member hmember))

end Same

/-! ### What is loaded -/

/-- What `load_config` has read, or the defaults. -/
def found (nvs : Kvstore) : Config :=
  let read := nvs.read basicConfigKey .zero
  if read.1 < 0 then applyDefaults ext read.2 else read.2

/-- What it makes of that. -/
def loaded (cfg : Config) : Config :=
  if version cfg ≠ configVersion then setCrc (applyDefaults ext cfg) (computeCrc ext (applyDefaults ext cfg))
  else if crc cfg ≠ computeCrc ext cfg then applyDefaults ext cfg
  else cfg

theorem version_applyDefaults (cfg : Config) : version (applyDefaults ext cfg) = configVersion :=
  version_setVersion _ _

/-- What is left after the migration is to see to the checksum. -/
theorem configInit_eq (nvs : Kvstore) :
    let mgr := migrateConfig ext { nvs := nvs, basic := found ext nvs, dirty := false }
    (configInit ext nvs).1 =
      if crc mgr.basic ≠ computeCrc ext mgr.basic then
        if (nvs.read basicConfigKey .zero).1 = 0 then markDirty { mgr with basic := applyDefaults ext mgr.basic }
        else { mgr with basic := applyDefaults ext mgr.basic }
      else mgr := by
  simp only [configInit, loadConfig, found]
  rfl

theorem configInit_basic (nvs : Kvstore) : (configInit ext nvs).1.basic = loaded ext (found ext nvs) := by
  rw [configInit_eq, loaded]
  generalize found ext nvs = cfg
  by_cases hversion : version cfg = configVersion
  · rw [migrateConfig, if_pos hversion, if_neg (not_not.2 hversion)]
    split
    · split <;> rfl
    · rfl
  · have hbasic := migrateConfig_basic ext { nvs := nvs, basic := cfg, dirty := false } hversion
    have hchecked := checked_setCrc ext (applyDefaults ext cfg)
    rw [← hbasic] at hchecked
    rw [if_pos hversion, if_neg fun hwrong => hwrong hchecked, hbasic]

/-- Whatever is loaded is of this version. -/
theorem version_loaded (cfg : Config) : version (loaded ext cfg) = configVersion := by
  rw [loaded]
  split
  · rw [version_setCrc, version_applyDefaults]
  · rename_i hversion
    split
    · exact version_applyDefaults ext cfg
    · exact not_not.1 hversion

/-! ### What is stored -/

/-- The store after a write of the blob. -/
def stored (nvs : Kvstore) (cfg : Config) (fails : List Bool) : Kvstore :=
  { nvs with values := Function.update nvs.values basicConfigKey (some cfg.bytes), fails := fails }

theorem stored_basic (nvs : Kvstore) (cfg : Config) (fails : List Bool) :
    (stored nvs cfg fails).values basicConfigKey = some cfg.bytes := by
  simp [stored]

/-- What a save has done. The checksum is in RAM whether the write fails or not. -/
inductive Saves (mgr : Mgr) : Mgr × Int → Prop where
  | idle (hclean : mgr.dirty = false) : Saves mgr (mgr, 0)
  | failed (hdirty : mgr.dirty = true) (fails : List Bool) :
      Saves mgr
        ({ nvs := { mgr.nvs with fails := fails }, basic := setCrc mgr.basic (computeCrc ext mgr.basic), dirty := true },
          - EIO)
  | written (hdirty : mgr.dirty = true) (fails : List Bool) :
      Saves mgr
        ({ nvs := stored mgr.nvs (setCrc mgr.basic (computeCrc ext mgr.basic)) fails
           basic := setCrc mgr.basic (computeCrc ext mgr.basic)
           dirty := false }, 0)

theorem saveBasicConfig_saves (mgr : Mgr) : Saves ext mgr (saveBasicConfig ext mgr) := by
  obtain ⟨nvs, basic, dirty⟩ := mgr
  cases dirty with
  | false => exact .idle rfl
  | true =>
      simp only [saveBasicConfig, Bool.true_eq_false, if_false, Kvstore.write]
      cases hfails : nvs.fails with
      | nil => exact .written rfl _
      | cons fail rest =>
          cases fail with
          | true => exact .failed rfl rest
          | false => exact .written rfl _

/-- A blob that a save has put into the store is loaded as it is. -/
theorem loaded_checked {cfg : Config} (hversion : version cfg = configVersion) (hchecked : Checked ext cfg) :
    loaded ext cfg = cfg := by
  have hcrc : crc cfg = computeCrc ext cfg := hchecked
  rw [loaded, if_neg (not_not.2 hversion), if_neg (not_not.2 hcrc)]

/-- What the store loads depends on nothing but the blob. -/
theorem configInit_basic_congr {nvs nvs' : Kvstore} (hvalue : nvs'.values basicConfigKey = nvs.values basicConfigKey)
    (hreads : nvs'.readReturns = nvs.readReturns) : (configInit ext nvs').1.basic = (configInit ext nvs).1.basic := by
  rw [configInit_basic, configInit_basic, found, found, Kvstore.read, Kvstore.read, hvalue, hreads]

/-- A migration saves a configuration of this version. -/
theorem migrateConfig_saves (mgr : Mgr) (h : version mgr.basic ≠ configVersion) :
    ∃ cfg, version cfg = configVersion ∧
      migrateConfig ext mgr = (saveBasicConfig ext (markDirty { mgr with basic := cfg })).1 := by
  rw [migrateConfig, if_neg h]
  exact ⟨_, version_setVersion _ _, rfl⟩

/-- Loading leaves the store alone, or ends with saving what it has migrated. -/
theorem configInit_cases (nvs : Kvstore) :
    (configInit ext nvs).1.nvs = nvs ∨
      ∃ cfg, version cfg = configVersion ∧
        (configInit ext nvs).1 = (saveBasicConfig ext { nvs := nvs, basic := cfg, dirty := true }).1 := by
  rw [configInit_eq]
  generalize found ext nvs = cfg
  by_cases hversion : version cfg = configVersion
  · left
    rw [migrateConfig, if_pos hversion]
    split
    · split <;> rfl
    · rfl
  · right
    obtain ⟨cfg', hversion', hmigrate⟩ := migrateConfig_saves ext { nvs := nvs, basic := cfg, dirty := false } hversion
    have hchecked := checked_setCrc ext (applyDefaults ext cfg)
    rw [← migrateConfig_basic ext { nvs := nvs, basic := cfg, dirty := false } hversion] at hchecked
    rw [if_neg fun hwrong => hwrong hchecked]
    exact ⟨cfg', hversion', hmigrate⟩

section Store

variable {ext} {nvs : Kvstore}

theorem found_of_value (nvs : Kvstore) (hreads : 0 ≤ nvs.readReturns) {cfg : Config}
    (hvalue : nvs.values basicConfigKey = some cfg.bytes) : found ext nvs = cfg := by
  rw [found, read_blob hvalue]
  exact if_neg (Int.not_lt.2 hreads)

/-- A save changes the blob alone, and a restart finds what it has written. -/
theorem configInit_of_saves {mgr : Mgr} {saved : Mgr × Int} (hsaves : Saves ext mgr saved)
    (hreads : 0 ≤ mgr.nvs.readReturns) (hversion : version mgr.basic = configVersion) :
    saved.1.nvs.readReturns = mgr.nvs.readReturns ∧ (∀ key, key ≠ basicConfigKey → saved.1.nvs.values key = mgr.nvs.values key) ∧
      (configInit ext saved.1.nvs).1.basic =
        if saved.2 = 0 ∧ mgr.dirty = true then saved.1.basic else (configInit ext mgr.nvs).1.basic := by
  cases hsaves with
  | idle hclean => exact ⟨rfl, fun _ _ => rfl, by rw [if_neg (by simp [hclean])]⟩
  | failed hdirty fails =>
      refine ⟨rfl, fun _ _ => rfl, ?_⟩
      rw [if_neg (by simp [ EIO])]
      exact configInit_basic_congr ext rfl rfl
  | written hdirty fails =>
      refine ⟨rfl, fun key hne => Function.update_of_ne hne _ _, ?_⟩
      have hcurrent := (version_setCrc mgr.basic (computeCrc ext mgr.basic)).trans hversion
      rw [if_pos ⟨rfl, hdirty⟩, configInit_basic, found_of_value (stored _ _ _) hreads (stored_basic _ _ _),
        loaded_checked ext hcurrent (checked_setCrc ext mgr.basic)]

/-- Loading changes the blob alone, and what is loaded is loaded again the same. -/
theorem configInit_again (ext : Externals) (hreads : 0 ≤ nvs.readReturns) :
    (configInit ext nvs).1.nvs.readReturns = nvs.readReturns ∧
      (∀ key, key ≠ basicConfigKey → (configInit ext nvs).1.nvs.values key = nvs.values key) ∧
        (configInit ext (configInit ext nvs).1.nvs).1.basic = (configInit ext nvs).1.basic := by
  rcases configInit_cases ext nvs with hsame | ⟨cfg, hversion, hsaved⟩
  · rw [hsame]
    exact ⟨rfl, fun _ _ => rfl, rfl⟩
  · have hsaves := saveBasicConfig_saves ext { nvs := nvs, basic := cfg, dirty := true }
    obtain ⟨hreads', hothers, hbasic⟩ := configInit_of_saves hsaves hreads hversion
    rw [hsaved]
    refine ⟨hreads', hothers, hbasic.trans ?_⟩
    split
    · rfl
    · rw [hsaved]

end Store

/-- Where there is nothing to save, a restart changes nothing. -/
theorem restart_of_persistent {mgr : Mgr} (h : Persistent ext mgr) (hclean : mgr.dirty = false)
    (hversion : version mgr.basic = configVersion) : restart ext mgr = mgr := by
  obtain ⟨hstored, hchecked⟩ := h.saved hclean
  have hloads : restart ext mgr = { nvs := mgr.nvs, basic := mgr.basic, dirty := false } :=
    configInit_loads h.reads hstored hversion hchecked
  rw [hloads, ← hclean]

/-! ### What the operations do -/

/-- The manager and the last save agree: a restart finds what was saved, and so does the program while the flag is clear. -/
structure Remembers (s : Powered) : Prop where
  reads : 0 ≤ s.mgr.nvs.readReturns
  version : version s.mgr.basic = configVersion
  restart : SameButCrc (restart ext s.mgr).basic s.saved
  clean : s.mgr.dirty = false → SameButCrc s.mgr.basic s.saved

section Steps

variable {ext} {s : Powered}

/-- What `config_init` has just loaded is remembered as saved, if a restart finds the same. -/
theorem remembers_configInit {nvs : Kvstore} (hreads : 0 ≤ nvs.readReturns) {saved : Config}
    (hsaved : SameButCrc (configInit ext nvs).1.basic saved) : Remembers ext ⟨(configInit ext nvs).1, saved⟩ := by
  obtain ⟨hreads', -, hagain⟩ := configInit_again ext hreads
  have hversion : Config.version (configInit ext nvs).1.basic = configVersion := by
    rw [configInit_basic]
    exact version_loaded ext _
  have hrestart : SameButCrc (restart ext (configInit ext nvs).1).basic saved := by
    rw [restart]
    exact (SameButCrc.of_eq hagain).trans hsaved
  generalize (configInit ext nvs).1 = mgr at hreads' hversion hrestart hsaved
  exact ⟨hreads' ▸ hreads, hversion, hrestart, fun _ => hsaved⟩

theorem remembers_boot {nvs : Kvstore} (hreads : 0 ≤ nvs.readReturns) : Remembers ext (boot ext nvs) :=
  remembers_configInit hreads (.of_eq rfl)

theorem remembers_cut (h : Remembers ext s) : Remembers ext (stepPowered ext s .cut) :=
  remembers_configInit h.reads h.restart

/-- A change of RAM that leaves the blob and the version alone, and sets the flag unless it changes nothing. -/
theorem remembers_of_change (h : Remembers ext s) {mgr : Mgr}
    (hvalue : mgr.nvs.values basicConfigKey = s.mgr.nvs.values basicConfigKey)
    (hreads : mgr.nvs.readReturns = s.mgr.nvs.readReturns) (hversion : version mgr.basic = configVersion)
    (hflag : mgr.dirty = true ∨ mgr.basic = s.mgr.basic ∧ mgr.dirty = s.mgr.dirty) :
    Remembers ext ⟨mgr, s.saved⟩ where
  reads := hreads ▸ h.reads
  version := hversion
  restart := (SameButCrc.of_eq (configInit_basic_congr ext hvalue hreads)).trans h.restart
  clean := fun hclean => by
    rcases hflag with hdirty | ⟨hsame, hflag⟩
    · exact absurd (hdirty.symm.trans hclean) (by decide)
    · exact (SameButCrc.of_eq hsame).trans (h.clean (hflag.symm.trans hclean))

/-- A save, with the note taken of it. -/
theorem remembers_save (h : Remembers ext s) {saved : Config}
    (hnoted : (saveBasicConfig ext s.mgr).2 = 0 → saved = (saveBasicConfig ext s.mgr).1.basic)
    (hkept : (saveBasicConfig ext s.mgr).2 ≠ 0 → saved = s.saved) :
    Remembers ext ⟨(saveBasicConfig ext s.mgr).1, saved⟩ := by
  have hsaves := saveBasicConfig_saves ext s.mgr
  obtain ⟨hsame, -, hbasic⟩ := configInit_of_saves hsaves h.reads h.version
  have hreads : 0 ≤ (saveBasicConfig ext s.mgr).1.nvs.readReturns := hsame ▸ h.reads
  generalize saveBasicConfig ext s.mgr = result at hsaves hreads hbasic hnoted hkept
  have hversion := (version_setCrc s.mgr.basic (computeCrc ext s.mgr.basic)).trans h.version
  cases hsaves with
  | idle hclean =>
      rw [hnoted rfl]
      exact ⟨hreads, h.version, h.restart.trans (h.clean hclean).symm, fun _ => .of_eq rfl⟩
  | failed hdirty fails =>
      rw [if_neg (by simp [ EIO])] at hbasic
      rw [hkept (by simp [ EIO])]
      exact ⟨hreads, hversion, (SameButCrc.of_eq hbasic).trans h.restart, nofun⟩
  | written hdirty fails =>
      rw [if_pos ⟨rfl, hdirty⟩] at hbasic
      rw [hnoted rfl]
      exact ⟨hreads, hversion, .of_eq hbasic, fun _ => .of_eq rfl⟩

/-- Where the blob and the version stay, and the flag is set unless nothing changes. -/
structure Changes (mgr mgr' : Mgr) : Prop where
  value : mgr'.nvs.values basicConfigKey = mgr.nvs.values basicConfigKey
  reads : mgr'.nvs.readReturns = mgr.nvs.readReturns
  version : version mgr'.basic = version mgr.basic
  flag : mgr'.dirty = true ∨ mgr'.basic = mgr.basic ∧ mgr'.dirty = mgr.dirty

theorem member_of_writable :
    ∀ entry ∈ configMap, ¬ entry.permission.rank ≤ Permission.RFW.rank → Member.version ≠ entry.member := by
  decide

theorem changes_setConfig (mgr : Mgr) (key : String) (data : List UInt8) : Changes mgr (setConfig mgr key data).1 := by
  have hsame : Changes mgr mgr := ⟨rfl, rfl, rfl, .inr ⟨rfl, rfl⟩⟩
  unfold setConfig
  split
  · unfold writeCustomConfig
    split
    · exact hsame
    · rename_i entry hentry
      have hvalue := write_of_ne mgr.nvs (customKey_ne_basic hentry) data
      have hreads := write_readReturns mgr.nvs key data
      split
      · exact hsame
      · split
        all_goals
          rename_i nvs hwrite
          rw [hwrite] at hvalue hreads
          exact ⟨hvalue, hreads, rfl, .inr ⟨rfl, rfl⟩⟩
  · rename_i entry hentry
    split
    · exact hsame
    · rename_i hwritable
      split
      · exact hsame
      · rename_i hfits
        split
        · have hne := member_of_writable entry (List.mem_of_find?_eq_some hentry) hwritable
          exact ⟨rfl, rfl, version_put mgr.basic hne (Nat.le_of_not_lt hfits), .inl rfl⟩
        · exact hsame

theorem clear_of_ne (nvs : Kvstore) {key key' : String} (hne : key' ≠ key) :
    (nvs.clear key).values key' = nvs.values key' := by
  unfold Kvstore.clear
  split
  · rfl
  · exact Function.update_of_ne hne _ _

theorem version_setDefaultOrZero (cfg : Config) {entry : ConfigEntry} (hentry : entry ∈ configMap) :
    version (setDefaultOrZero ext cfg entry) = version cfg := by
  rw [setDefaultOrZero_eq ext entry hentry]
  have hfits : (resetBytes ext entry.member).length ≤ entry.member.size := by
    rw [length_resetBytes]
    cases entry.member <;> decide
  by_cases hversion : .version = entry.member
  · rw [← hversion]
    exact congrArg Config.version (cfg.put_nil (offsetof .version))
  · exact version_put cfg hversion hfits

theorem changes_configReset (ext : Externals) (mgr : Mgr) (hversion : Config.version mgr.basic = configVersion)
    (key : Option String) : Changes mgr (configReset ext mgr key).1 := by
  have hsame : Changes mgr mgr := ⟨rfl, rfl, rfl, .inr ⟨rfl, rfl⟩⟩
  cases key with
  | none =>
      have hkeys : (clearCustomConfigs mgr).values basicConfigKey = mgr.nvs.values basicConfigKey := by
        simp only [clearCustomConfigs, customConfigMap, List.foldl]
        rw [clear_of_ne _ (by decide), clear_of_ne _ (by decide), clear_of_ne _ (by decide)]
      exact ⟨hkeys, clearCustomConfigs_readReturns mgr, (version_applyDefaults ext mgr.basic).trans hversion.symm, .inl rfl⟩
  | some key =>
      simp only [configReset, applyDefault]
      cases hentry : findConfigEntry key with
      | some entry => exact ⟨rfl, rfl, version_setDefaultOrZero mgr.basic (List.mem_of_find?_eq_some hentry), .inl rfl⟩
      | none =>
          cases hcustom : findCustomConfigEntry key with
          | none => exact hsame
          | some entry =>
              exact ⟨clear_of_ne _ (customKey_ne_basic hcustom), clear_readReturns mgr.nvs key, rfl, .inl rfl⟩

theorem remembers_step (h : Remembers ext s) {op : PowerOp} (hop : op.Current) : Remembers ext (stepPowered ext s op) := by
  have hchanges : ∀ {mgr : Mgr}, Changes s.mgr mgr → Remembers ext ⟨mgr, s.saved⟩ := fun hchanges =>
    remembers_of_change h hchanges.value hchanges.reads (hchanges.version.trans h.version) hchanges.flag
  cases op with
  | cut => exact remembers_cut h
  | op op =>
      cases op with
      | set key data => exact hchanges (changes_setConfig s.mgr key data)
      | writeAll cfg => exact remembers_of_change h rfl rfl hop (.inl rfl)
      | reset key => exact hchanges (changes_configReset ext s.mgr h.version key)
      | save =>
          exact remembers_save h (fun hzero => if_pos (decide_eq_true hzero)) fun herr =>
            if_neg fun hsaved => herr (of_decide_eq_true hsaved)
      | setAndSave key data =>
          have hset := hchanges (changes_setConfig s.mgr key data)
          simp only [stepPowered, step, saves, configSetAndSave]
          split
          · exact remembers_save hset (fun hzero => if_pos (decide_eq_true hzero)) fun herr =>
              if_neg fun hsaved => herr (of_decide_eq_true hsaved)
          · rename_i herr
            rw [if_neg fun hsaved => herr (of_decide_eq_true hsaved)]
            exact hset

end Steps

/-- Along every run of the operations and of power cuts, and whatever writes fail, on a store that reads what it has: a restart finds the configuration of the last save that succeeded, or what it found at first; the program has the same while the flag is clear; and after a cut every key of the table but the checksum reads as it was in that save, and every other key as it was before the cut. -/
theorem restart_finds_last_save (ext : Externals) (nvs : Kvstore) (hreads : 0 ≤ nvs.readReturns) (ops : List PowerOp)
    (hops : ∀ op ∈ ops, op.Current) :
    EveryState (stepPowered ext)
      (fun s => SameButCrc (restart ext s.mgr).basic s.saved ∧ (s.mgr.dirty = false → SameButCrc s.mgr.basic s.saved) ∧
        ∀ key bufsize,
          (∀ entry, findConfigEntry key = some entry → entry.member ≠ .crc →
            configGet (restart ext s.mgr) key bufsize = configGet { s.mgr with basic := s.saved } key bufsize) ∧
          (findConfigEntry key = none → configGet (restart ext s.mgr) key bufsize = configGet s.mgr key bufsize))
      (boot ext nvs) ops := by
  have hread : ∀ s, Remembers ext s → ∀ key bufsize,
      (∀ entry, findConfigEntry key = some entry → entry.member ≠ .crc →
        configGet (restart ext s.mgr) key bufsize = configGet { s.mgr with basic := s.saved } key bufsize) ∧
      (findConfigEntry key = none → configGet (restart ext s.mgr) key bufsize = configGet s.mgr key bufsize) := by
    intro s h key bufsize
    obtain ⟨hreads, hothers, -⟩ := configInit_again ext h.reads
    constructor
    · intro entry hentry hcrc
      simp only [configGet, hentry, h.restart.slice_eq hcrc]
    · intro hentry
      simp only [configGet, hentry, readCustomConfig]
      cases hcustom : findCustomConfigEntry key with
      | none => rfl
      | some entry =>
          have hvalue := hothers key (customKey_ne_basic hcustom).symm
          simp only [restart, hvalue, hreads]
  exact everyState_of_conditional_invariant (I := Remembers ext) (C := fun _ op => op.Current)
    (fun _ _ h hop => remembers_step h hop) (fun s h => ⟨h.restart, h.clean, hread s h⟩) (remembers_boot hreads)
    (everyStep_of_forall_mem (boot ext nvs) hops)

/-- Ethernet is switched off and that is saved; it is switched on again, the write fails and the power is cut. The store returns the number of bytes. -/
theorem failed_save_not_found :
    let nvs : Kvstore := { blankStore with readReturns := 1096, fails := [false, false, true] }
    let ops : List PowerOp :=
      [.op (.set "net.opt" [0]), .op .save, .op (.setAndSave "net.opt" [configEthernetEnabled]), .cut]
    let s := run (stepPowered ⟨0, crc32⟩) (boot ⟨0, crc32⟩ nvs) ops
    configGet (restart ⟨0, crc32⟩ s.mgr) "net.opt" 1 = configGet { s.mgr with basic := s.saved } "net.opt" 1 := by
  intro nvs ops s
  have hall := restart_finds_last_save ⟨0, crc32⟩ nvs (by decide) ops (by simp [ops, PowerOp.Current])
  exact (hall.last.2.2 "net.opt" 1).1 ⟨"net.opt", .netOpt, .RW⟩ rfl (by decide)

end Evse.Config
