import Evse.Config.Manager
import Evse.Lib.Run

/-!
# What the flag means

While the flag is clear, the stored blob is the configuration in RAM and its checksum is right, whatever writes fail. Loading establishes this when the blob was read, each operation restores it, and a blob of which it holds is loaded as it is.
-/

namespace Evse.Config

open StepRun

variable (ext : Externals)

/-- The store holds what is in RAM. -/
def Stored (mgr : Mgr) : Prop := mgr.nvs.values basicConfigKey = some mgr.basic.bytes

/-- The checksum in RAM is right. -/
def Checked (cfg : Config) : Prop := crc cfg = computeCrc ext cfg

/-- The flag is set, or there is nothing to save. -/
structure Persistent (mgr : Mgr) : Prop where
  saved : mgr.dirty = false → Stored mgr ∧ Checked ext mgr.basic
  reads : mgr.nvs.readReturns = 0

/-- A save that fails leaves the flag set. -/
def FailureKept (mgr : Mgr) : Op → Prop
  | .save => (configSave ext mgr).2 ≠ 0 → (configSave ext mgr).1.dirty = true
  | .setAndSave key data =>
      (configSet mgr key data).2 = 0 → (configSetAndSave ext mgr key data).2 ≠ 0 →
        (configSetAndSave ext mgr key data).1.dirty = true
  | _ => True

/-! ### Fields apart -/

theorem mem_members (member : Member) : member ∈ members := by
  cases member <;> decide

theorem fields_apart : ∀ member ∈ members, ∀ member' ∈ members, member = member' ∨
    offsetof member + member.size ≤ offsetof member' ∨ offsetof member' + member'.size ≤ offsetof member := by
  decide +kernel

theorem field_fits : ∀ member ∈ members, offsetof member + member.size ≤ sizeofConfig := by
  decide +kernel

/-- What is put into one field leaves the others. -/
theorem slice_put_of_ne (cfg : Config) {member member' : Member} (hne : member ≠ member') {data : List UInt8}
    (hfits : data.length ≤ member'.size) :
    (put cfg member' data).slice (offsetof member) member.size = cfg.slice (offsetof member) member.size := by
  have happart := (fields_apart member (mem_members _) member' (mem_members _)).resolve_left hne
  have hfield := field_fits member (mem_members _)
  rw [ByteBlock.slice_eq_iff]
  intro i hlow hhigh
  rw [put, ByteBlock.getElem?_put _ _ _ (Nat.lt_of_lt_of_le hhigh hfield), if_neg]
  rintro ⟨hlow', hhigh'⟩
  omega

theorem version_put (cfg : Config) {member : Member} (hne : .version ≠ member) {data : List UInt8}
    (hfits : data.length ≤ member.size) : version (put cfg member data) = version cfg :=
  congrArg LittleEndian.decode (slice_put_of_ne cfg hne hfits)

theorem version_setVersion (cfg : Config) (v : UInt32) : version (setVersion cfg v) = v := by
  have hfits : offsetof .version + (LittleEndian.encode v).length ≤ sizeofConfig :=
    show offsetof .version + 4 ≤ sizeofConfig by decide
  have hslice := cfg.slice_put (offsetof .version) hfits
  rw [version, setVersion, put]
  exact (congrArg LittleEndian.decode hslice).trans (LittleEndian.decode_encode v)

theorem version_setCrc (cfg : Config) (x : UInt32) : version (setCrc cfg x) = version cfg :=
  version_put cfg (by decide) (Nat.le_refl 4)

/-! ### The store -/

theorem write_readReturns (nvs : Kvstore) (key : String) (value : List UInt8) :
    (nvs.write key value).1.readReturns = nvs.readReturns := by
  unfold Kvstore.write
  split <;> rfl

theorem clear_readReturns (nvs : Kvstore) (key : String) : (nvs.clear key).readReturns = nvs.readReturns := by
  unfold Kvstore.clear
  split <;> rfl

theorem write_of_ne (nvs : Kvstore) {key key' : String} (hne : key' ≠ key) (value : List UInt8) :
    (nvs.write key value).1.values key' = nvs.values key' := by
  unfold Kvstore.write
  split
  · rfl
  · exact Function.update_of_ne hne _ _

theorem write_succeeds (nvs : Kvstore) (key : String) (value : List UInt8) :
    (nvs.write key value).2 = true → (nvs.write key value).1.values key = some value := by
  unfold Kvstore.write
  split
  · exact fun hfailed => absurd hfailed Bool.false_ne_true
  · exact fun _ => Function.update_self key _ _

theorem customKey_ne_basic {key : String} {entry : CustomEntry} (h : findCustomConfigEntry key = some entry) :
    basicConfigKey ≠ key := by
  have hkey : entry.key = key := by simpa using List.find?_some h
  have hnone : ∀ entry ∈ customConfigMap, basicConfigKey ≠ entry.key := by decide
  exact hkey ▸ hnone entry (List.mem_of_find?_eq_some h)

/-- A blob that is there is read, whatever the read returns. -/
theorem read_blob {nvs : Kvstore} {blob : Config} (hblob : nvs.values basicConfigKey = some blob.bytes) (buf : Config) :
    nvs.read basicConfigKey buf = (nvs.readReturns, blob) := by
  simp only [Kvstore.read, hblob, ByteBlock.put_zero]

/-- A large setting that fits is in the store if the store takes it. -/
theorem configSet_custom {mgr : Mgr} (key : String) (entry : CustomEntry) {data : List UInt8}
    (hbasic : findConfigEntry key = none) (hcustom : findCustomConfigEntry key = some entry)
    (hfits : data.length ≤ entry.size) (hwrites : (mgr.nvs.write key data).2 = true) :
    (configSet mgr key data).1.nvs.values key = some data := by
  have hvalue := write_succeeds mgr.nvs key data hwrites
  have hset : configSet mgr key data = ({ mgr with nvs := (mgr.nvs.write key data).1 }, 0) := by
    rw [configSet, setConfig, hbasic, writeCustomConfig, hcustom]
    dsimp only
    rw [if_neg (Nat.not_lt.2 hfits)]
    generalize mgr.nvs.write key data = written at hwrites
    obtain ⟨nvs, ok⟩ := written
    cases hwrites
    rfl
  rw [hset]
  exact hvalue

/-! ### Saving -/

theorem checked_setCrc (cfg : Config) : Checked ext (setCrc cfg (computeCrc ext cfg)) := by
  have hfits : offsetof .crc + (LittleEndian.encode (computeCrc ext cfg)).length ≤ sizeofConfig :=
    show offsetof .crc + 4 ≤ sizeofConfig by decide
  have hslice := cfg.slice_put (offsetof .crc) hfits
  have hrest := fun data => cfg.take_put (offsetof .crc) data (by decide)
  have hlast : sizeofConfig - Member.crc.size = offsetof .crc := by decide
  have hcrc : crc (setCrc cfg (computeCrc ext cfg)) = computeCrc ext cfg := by
    rw [crc, setCrc, put]
    exact (congrArg LittleEndian.decode hslice).trans (LittleEndian.decode_encode _)
  rw [Checked, hcrc, computeCrc, computeCrc, hlast, setCrc, put, hrest]

variable {ext} {mgr : Mgr}

theorem Persistent.of_dirty (hdirty : mgr.dirty = true) (hreads : mgr.nvs.readReturns = 0) : Persistent ext mgr where
  saved := fun hclear => absurd (hdirty.symm.trans hclear) (by decide)
  reads := hreads

/-- What a save does, from any state of the configuration. -/
theorem saveBasicConfig_spec (ext : Externals) (mgr : Mgr) (hreads : mgr.nvs.readReturns = 0)
    (hsaved : mgr.dirty = false → Stored mgr ∧ Checked ext mgr.basic) :
    Persistent ext (saveBasicConfig ext mgr).1 ∧
      ((saveBasicConfig ext mgr).2 ≠ 0 → (saveBasicConfig ext mgr).1.dirty = true) := by
  unfold saveBasicConfig
  split
  · exact ⟨⟨hsaved, hreads⟩, fun hfailed => absurd rfl hfailed⟩
  · rename_i hdirty
    have hreads' := write_readReturns mgr.nvs basicConfigKey (setCrc mgr.basic (computeCrc ext mgr.basic)).bytes
    have hstored := write_succeeds mgr.nvs basicConfigKey (setCrc mgr.basic (computeCrc ext mgr.basic)).bytes
    dsimp only
    split
    · rename_i nvs hwrite
      rw [hwrite] at hreads'
      have hkept : mgr.dirty = true := by simpa using hdirty
      exact ⟨.of_dirty hkept (hreads'.trans hreads), fun _ => hkept⟩
    · rename_i nvs hwrite
      rw [hwrite] at hreads' hstored
      exact ⟨⟨fun _ => ⟨hstored rfl, checked_setCrc ext mgr.basic⟩, hreads'.trans hreads⟩, fun hfailed => absurd rfl hfailed⟩

/-! ### Loading -/

theorem migrateConfig_spec (ext : Externals) (mgr : Mgr) (hreads : mgr.nvs.readReturns = 0) (hstored : Stored mgr) :
    ((migrateConfig ext mgr).dirty = false → Stored (migrateConfig ext mgr)) ∧
      (migrateConfig ext mgr).nvs.readReturns = 0 := by
  unfold migrateConfig
  split
  · exact ⟨fun _ => hstored, hreads⟩
  · -- What is saved was marked dirty before.
    have hsave : ∀ cfg, Persistent ext (saveBasicConfig ext (markDirty { mgr with basic := cfg })).1 :=
      fun cfg => (saveBasicConfig_spec ext (markDirty { mgr with basic := cfg }) hreads (nomatch ·)).1
    dsimp only
    exact ⟨fun hclear => ((hsave _).saved hclear).1, (hsave _).reads⟩

section Load

variable {nvs : Kvstore} {blob : Config} (hreads : nvs.readReturns = 0)
  (hblob : nvs.values basicConfigKey = some blob.bytes)

include hreads hblob

theorem persistent_configInit : Persistent ext (configInit ext nvs).1 := by
  have hmigrate := migrateConfig_spec ext { nvs := nvs, basic := blob, dirty := false } hreads hblob
  simp only [configInit, loadConfig, read_blob hblob, hreads, Int.lt_irrefl, if_false, if_true]
  generalize migrateConfig ext { nvs := nvs, basic := blob, dirty := false } = mgr at hmigrate
  split
  · exact .of_dirty rfl hmigrate.2
  · rename_i hchecked
    exact ⟨fun hclear => ⟨hmigrate.1 hclear, not_not.1 hchecked⟩, hmigrate.2⟩

/-- A checked blob of this version is loaded as it is. -/
theorem configInit_loads (hversion : version blob = configVersion) (hchecked : Checked ext blob) :
    (configInit ext nvs).1 = { nvs := nvs, basic := blob, dirty := false } := by
  have hcrc : crc blob = computeCrc ext blob := hchecked
  simp only [configInit, loadConfig, read_blob hblob, hreads, Int.lt_irrefl, if_false, migrateConfig, hversion, if_true,
    hcrc, ne_eq, not_true]

end Load

/-! ### The operations -/

theorem persistent_setConfig (h : Persistent ext mgr) (key : String) (data : List UInt8) :
    Persistent ext (setConfig mgr key data).1 := by
  unfold setConfig
  split
  · unfold writeCustomConfig
    split
    · exact h
    · rename_i entry hentry
      have hvalue := write_of_ne mgr.nvs (customKey_ne_basic hentry) data
      have hreads := write_readReturns mgr.nvs key data
      split
      · exact h
      · split
        all_goals
          rename_i nvs hwrite
          rw [hwrite] at hvalue hreads
          exact ⟨fun hclear => (h.saved hclear).imp_left hvalue.trans, hreads.trans h.reads⟩
  · split
    · exact h
    · split
      · exact h
      · split
        · exact .of_dirty rfl h.reads
        · exact h

theorem clearCustomConfigs_readReturns (mgr : Mgr) :
    (clearCustomConfigs mgr).readReturns = mgr.nvs.readReturns := by
  simp only [clearCustomConfigs, customConfigMap, List.foldl, clear_readReturns]

theorem persistent_configReset (h : Persistent ext mgr) (key : Option String) :
    Persistent ext (configReset ext mgr key).1 := by
  have hreads : ∀ mgr', applyDefault ext mgr key = some mgr' → mgr'.nvs.readReturns = 0 := by
    intro mgr' happly
    cases key with
    | none =>
        cases happly
        exact (clearCustomConfigs_readReturns mgr).trans h.reads
    | some key =>
        simp only [applyDefault] at happly
        split at happly
        · cases happly
          exact h.reads
        · obtain ⟨-, -, rfl⟩ := Option.map_eq_some_iff.1 happly
          exact (clear_readReturns mgr.nvs key).trans h.reads
  unfold configReset
  split
  · rename_i mgr' happly
    exact .of_dirty rfl (hreads mgr' happly)
  · exact h

theorem persistent_step (h : Persistent ext mgr) (op : Op) :
    Persistent ext (step ext mgr op) ∧ FailureKept ext mgr op := by
  cases op with
  | set key data => exact ⟨persistent_setConfig h key data, trivial⟩
  | writeAll cfg => exact ⟨.of_dirty rfl h.reads, trivial⟩
  | reset key => exact ⟨persistent_configReset h key, trivial⟩
  | save => exact saveBasicConfig_spec ext mgr h.reads h.saved
  | setAndSave key data =>
      have hset := persistent_setConfig h key data
      obtain ⟨hsaved, hfailed⟩ := saveBasicConfig_spec ext _ hset.reads hset.saved
      simp only [step, FailureKept, configSetAndSave, configSet]
      split
      · exact ⟨hsaved, fun _ => hfailed⟩
      · rename_i herr
        exact ⟨hset, fun hzero => absurd hzero herr⟩

/-- From a configuration that was read, along every run of the operations and whatever writes fail: a failed save leaves the flag set; and while the flag is clear, the stored blob is the configuration in RAM with its checksum, and loading it again gives the same if its version is the current one. -/
theorem configuration_persists (ext : Externals) (nvs : Kvstore) (blob : Config) (hreads : nvs.readReturns = 0)
    (hblob : nvs.values basicConfigKey = some blob.bytes) (ops : List Op) :
    EveryStep (step ext) (FailureKept ext) (configInit ext nvs).1 ops ∧
      ∀ mgr, mgr = run (step ext) (configInit ext nvs).1 ops → mgr.dirty = false →
        mgr.nvs.values basicConfigKey = some mgr.basic.bytes ∧ crc mgr.basic = computeCrc ext mgr.basic ∧
          (version mgr.basic = configVersion → (configInit ext mgr.nvs).1.basic = mgr.basic) := by
  have hstart : Persistent ext (configInit ext nvs).1 := persistent_configInit hreads hblob
  have hstep : ∀ mgr op, Persistent ext mgr → Persistent ext (step ext mgr op) :=
    fun mgr op hmgr => (persistent_step hmgr op).1
  refine ⟨everyStep_of_invariant hstep (fun mgr op hmgr => (persistent_step hmgr op).2) hstart ops, ?_⟩
  rintro mgr rfl hclear
  have hrun := run_invariant hstep hstart ops
  obtain ⟨hstored, hchecked⟩ := hrun.saved hclear
  refine ⟨hstored, hchecked, fun hversion => ?_⟩
  rw [configInit_loads hrun.reads hstored hversion hchecked]

/-- CRC-32 with the reflected polynomial, bit by bit. -/
def crc32 (bytes : List UInt8) : UInt32 :=
  let shift (crc : UInt32) : UInt32 := if crc &&& 1 = 0 then crc >>> 1 else crc >>> 1 ^^^ 0xedb88320
  ~~~ bytes.foldl (fun crc byte => (List.range 8).foldl (fun crc _ => shift crc) (crc ^^^ byte.toUInt32)) 0xffffffff

/-- The usual check value, of the digits from one to nine. -/
example : crc32 [0x31, 0x32, 0x33, 0x34, 0x35, 0x36, 0x37, 0x38, 0x39] = 0xcbf43926 := by decide +kernel

/-- A store that reads as zeros. -/
def blankStore : Kvstore := { values := fun _ => some (ByteBlock.zero : Config).bytes }

/-- A blob of zeros with the version and its checksum. -/
def checkedBlob : Config :=
  setCrc (setVersion .zero configVersion) (computeCrc ⟨0, crc32⟩ (setVersion .zero configVersion))

theorem version_checkedBlob : version checkedBlob = configVersion := (version_setCrc _ _).trans (version_setVersion _ _)

def checkedStore : Kvstore := { values := fun _ => some checkedBlob.bytes }

/-- The first write fails. -/
def failingStore : Kvstore := { checkedStore with fails := [true] }

/-- A save that fails, and another one. -/
theorem configSave_again (ext : Externals) {mgr : Mgr} (hfails : mgr.nvs.fails = [true]) (hdirty : mgr.dirty = true) :
    (configSave ext mgr).2 = - EIO ∧ (configSave ext (configSave ext mgr).1).1.dirty = false ∧
      version (configSave ext (configSave ext mgr).1).1.basic = version mgr.basic := by
  obtain ⟨⟨values, openReturns, readReturns, fails⟩, basic, dirty⟩ := mgr
  cases hdirty
  cases hfails
  exact ⟨rfl, rfl, (version_setCrc _ _).trans (version_setCrc _ _)⟩

theorem run_set_save_save (ext : Externals) (mgr : Mgr) (key : String) (data : List UInt8) :
    run (step ext) mgr [.set key data, .save, .save] =
      (configSave ext (configSave ext (configSet mgr key data).1).1).1 := rfl

theorem configSet_failingStore :
    (configSet (configInit ⟨0, crc32⟩ failingStore).1 "net.opt" [configEthernetEnabled]).1 =
      { nvs := failingStore, basic := put checkedBlob .netOpt [configEthernetEnabled], dirty := true } := by
  have hinit : (configInit ⟨0, crc32⟩ failingStore).1 = { nvs := failingStore, basic := checkedBlob, dirty := false } :=
    configInit_loads rfl rfl version_checkedBlob (checked_setCrc _ _)
  have hentry : findConfigEntry "net.opt" = some ⟨"net.opt", .netOpt, .RW⟩ := rfl
  have hfits : ∀ x, (LittleEndian.encode x).length ≤ Member.crc.size := fun _ => Nat.le_refl 4
  have hoff : checkedBlob.slice (offsetof .netOpt) Member.netOpt.size = [0] :=
    (slice_put_of_ne (setVersion .zero configVersion) (by decide) (hfits _)).trans (by decide +kernel)
  have hdiffers : checkedBlob.slice (offsetof .netOpt) [configEthernetEnabled].length ≠ [configEthernetEnabled] := by
    refine fun hsame => ?_
    have honly : ([0] : List UInt8) = [configEthernetEnabled] := hoff.symm.trans hsame
    exact absurd honly (by decide)
  rw [hinit]
  simp only [configSet, setConfig, hentry]
  rw [if_neg (by decide), if_neg (by decide), if_pos hdiffers]
  rfl


/-- Ethernet is switched on, the save of that fails, and the next one does not. -/
theorem configuration_persists_after_failed_save :
    (configSave ⟨0, crc32⟩ (configSet (configInit ⟨0, crc32⟩ failingStore).1 "net.opt" [configEthernetEnabled]).1).2 =
        - EIO ∧
      ∃ mgr, mgr = run (step ⟨0, crc32⟩) (configInit ⟨0, crc32⟩ failingStore).1
          [.set "net.opt" [configEthernetEnabled], .save, .save] ∧
        mgr.dirty = false ∧ mgr.nvs.values basicConfigKey = some mgr.basic.bytes ∧
          crc mgr.basic = computeCrc ⟨0, crc32⟩ mgr.basic ∧ (configInit ⟨0, crc32⟩ mgr.nvs).1.basic = mgr.basic := by
  have hversion : version (put checkedBlob .netOpt [configEthernetEnabled]) = configVersion :=
    (version_put checkedBlob (by decide) (by decide)).trans version_checkedBlob
  obtain ⟨hfailed, hclear, hkept⟩ := configSave_again ⟨0, crc32⟩
    (congrArg (fun mgr => mgr.nvs.fails) configSet_failingStore) (congrArg Mgr.dirty configSet_failingStore)
  have hbasic := congrArg (fun mgr => version mgr.basic) configSet_failingStore
  have hrun := run_set_save_save ⟨0, crc32⟩ (configInit ⟨0, crc32⟩ failingStore).1 "net.opt" [configEthernetEnabled]
  obtain ⟨-, hpersists⟩ := configuration_persists ⟨0, crc32⟩ failingStore checkedBlob rfl rfl
    [.set "net.opt" [configEthernetEnabled], .save, .save]
  obtain ⟨hstored, hcrc, hagain⟩ := hpersists _ hrun.symm hclear
  exact ⟨hfailed, _, hrun.symm, hclear, hstored, hcrc, hagain (hkept.trans (hbasic.trans hversion))⟩

end Evse.Config
