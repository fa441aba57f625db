import Evse.Config.Persistence

/-!
# What a reset leaves behind

A reset goes through the table and writes the default of each entry over its field, or zeros. The defaults that are texts are copied with their terminator and no further, so what was behind it stays. These tails are all that two configurations can still differ in after a reset, apart from the checksum.
-/

namespace Evse.Config

variable (ext : Externals)

/-- What a reset writes over the beginning of a field. -/
def resetBytes : Member → List UInt8
  | .version | .crc => []
  | .chargerMode => "free".toList.map (fun c => .ofNat c.toNat) ++ [0]
  | .connectorCount => [1]
  | .mac => [0x00, 0xf2, 0x00, 0x00, 0x00, 0x00]
  | .healthCheckInterval => LittleEndian.encode 60000
  | .pingInterval => LittleEndian.encode 120
  | .serverUrl => "wss://ocpp.pazzk.net:9000".toList.map (fun c => .ofNat c.toNat) ++ [0]
  | .netOpt => [configEthernetEnabled]
  | .ocppVendor => "net.pazzk".toList.map (fun c => .ofNat c.toNat) ++ [0]
  | .ocppModel => "EVSE-7S".toList.map (fun c => .ofNat c.toNat) ++ [0]
  | .logMode => [logWriterAll]
  | .logLevel => [ext.loggingTypeDebug]
  | member => List.replicate member.size 0

/-- The fields whose default is a text, and the length of the text with its terminator. -/
def texts : List (Member × Nat) := [(.chargerMode, 5), (.serverUrl, 26), (.ocppVendor, 10), (.ocppModel, 8)]

/-- Every byte but the checksum is the same. -/
def SameButCrc (cfg cfg' : Config) : Prop := cfg.slice 0 (offsetof .crc) = cfg'.slice 0 (offsetof .crc)

/-- What is behind the default texts is the same. -/
def SameTails (cfg cfg' : Config) : Prop :=
  ∀ text ∈ texts, cfg.slice (offsetof text.1 + text.2) (text.1.size - text.2) =
    cfg'.slice (offsetof text.1 + text.2) (text.1.size - text.2)

instance (cfg cfg' : Config) : Decidable (SameButCrc cfg cfg') := inferInstanceAs (Decidable (_ = _))

instance (cfg cfg' : Config) : Decidable (SameTails cfg cfg') := inferInstanceAs (Decidable (∀ text ∈ texts, _))

/-! ### One entry -/

theorem setDefaultOrZero_eq :
    ∀ entry ∈ configMap, ∀ cfg, setDefaultOrZero ext cfg entry = put cfg entry.member (resetBytes ext entry.member) := by
  -- A read-only entry is left alone, for which nothing is put; for the others both sides evaluate to the same.
  have hreadOnly : ∀ (member : Member) (cfg : Config), cfg = put cfg member [] :=
    fun member cfg => (cfg.put_nil (offsetof member)).symm
  simp only [configMap, List.forall_mem_cons]
  and_intros
  · exact hreadOnly .version
  · exact hreadOnly .crc
  all_goals first
    | exact fun _ => rfl
    | exact fun _ hmem => absurd hmem List.not_mem_nil

/-- How far a reset writes. -/
def resetLength (member : Member) : Nat :=
  if member = .version ∨ member = .crc then 0
  else ((texts.find? (·.1 = member)).map Prod.snd).getD member.size

theorem length_resetBytes (member : Member) : (resetBytes ext member).length = resetLength member := by
  cases member <;> first | exact List.length_replicate | rfl

/-- Where a reset writes: over the version, and in the field of each entry as far as its default goes. -/
theorem overwrites_applyDefaults :
    ByteBlock.Overwrites (applyDefaults ext) fun i =>
      (offsetof .version ≤ i ∧ i < offsetof .version + 4) ∨
        ∃ entry ∈ configMap, offsetof entry.member ≤ i ∧
          i < offsetof entry.member + resetLength entry.member := by
  have hentries : ByteBlock.Overwrites (fun cfg => configMap.foldl (setDefaultOrZero ext) cfg) fun i =>
      ∃ entry ∈ configMap, offsetof entry.member ≤ i ∧
        i < offsetof entry.member + resetLength entry.member := by
    refine ByteBlock.overwrites_foldl fun entry hentry => ?_
    have heq : (fun cfg => setDefaultOrZero ext cfg entry) =
        fun cfg => cfg.put (offsetof entry.member) (resetBytes ext entry.member) :=
      funext (setDefaultOrZero_eq ext entry hentry)
    have hput := ByteBlock.overwrites_put (n := sizeofConfig) (offsetof entry.member) (resetBytes ext entry.member)
    rw [heq]
    rwa [length_resetBytes] at hput
  exact (ByteBlock.overwrites_put (offsetof .version) (LittleEndian.encode configVersion)).comp hentries

/-! ### Two configurations -/

/-- Where a reset writes, by numbers: what is left out are the tails of the texts. -/
theorem written_iff {i : Nat} (hi : i < offsetof .crc) :
    ((offsetof .version ≤ i ∧ i < offsetof .version + 4) ∨
        ∃ entry ∈ configMap, offsetof entry.member ≤ i ∧ i < offsetof entry.member + resetLength entry.member) ↔
      ¬ ∃ text ∈ texts, offsetof text.1 + text.2 ≤ i ∧ i < offsetof text.1 + text.2 + (text.1.size - text.2) := by
  have hcrc : offsetof .crc = 1092 := by decide
  have hversion : offsetof .version = 0 := by decide
  have hplaces : configMap.map (fun entry => (offsetof entry.member, resetLength entry.member)) =
      [(0, 0), (1092, 0), (4, 24), (28, 32), (60, 1), (61, 1), (62, 1), (63, 1), (64, 5), (72, 16), (140, 1),
        (104, 30), (88, 16), (134, 6), (477, 6), (141, 4), (149, 26), (405, 32), (437, 40), (145, 4), (483, 1),
        (484, 4), (488, 546), (1034, 16), (1050, 10), (1071, 8)] := by decide
  have htails : texts.map (fun text => (offsetof text.1 + text.2, text.1.size - text.2)) =
      [(69, 3), (175, 230), (1060, 11), (1079, 13)] := by decide
  have hentries : (∃ entry ∈ configMap, offsetof entry.member ≤ i ∧ i < offsetof entry.member + resetLength entry.member) ↔
      ∃ place ∈ configMap.map (fun entry => (offsetof entry.member, resetLength entry.member)),
        place.1 ≤ i ∧ i < place.1 + place.2 := by simp only [List.mem_map, exists_exists_and_eq_and]
  have htexts : (∃ text ∈ texts, offsetof text.1 + text.2 ≤ i ∧ i < offsetof text.1 + text.2 + (text.1.size - text.2)) ↔
      ∃ place ∈ texts.map (fun text => (offsetof text.1 + text.2, text.1.size - text.2)),
        place.1 ≤ i ∧ i < place.1 + place.2 := by simp only [List.mem_map, exists_exists_and_eq_and]
  rw [hentries, htexts, hplaces, htails, hversion]
  simp only [List.exists_mem_cons_iff, List.not_mem_nil, false_and, exists_false, or_false]
  omega

theorem sameButCrc_applyDefaults_iff (cfg cfg' : Config) :
    SameButCrc (applyDefaults ext cfg) (applyDefaults ext cfg') ↔ SameTails cfg cfg' := by
  have hcrc : offsetof .crc ≤ sizeofConfig := by decide
  have hbyte : ∀ i, i < offsetof .crc →
      ((applyDefaults ext cfg).bytes[i]? = (applyDefaults ext cfg').bytes[i]? ↔
        ((∃ text ∈ texts, offsetof text.1 + text.2 ≤ i ∧ i < offsetof text.1 + text.2 + (text.1.size - text.2)) →
          cfg.bytes[i]? = cfg'.bytes[i]?)) := by
    intro i hi
    have hover := overwrites_applyDefaults ext cfg cfg' i (Nat.lt_of_lt_of_le hi hcrc)
    exact (hover.trans (or_congr_left (written_iff hi))).trans imp_iff_not_or.symm
  constructor
  · intro hsame text htext
    rw [ByteBlock.slice_eq_iff]
    intro i hlow hhigh
    have hfield : ∀ text ∈ texts, offsetof text.1 + text.2 + (text.1.size - text.2) ≤ offsetof .crc := by decide
    have hi := Nat.lt_of_lt_of_le hhigh (hfield text htext)
    rw [SameButCrc, ByteBlock.slice_eq_iff] at hsame
    exact (hbyte i hi).1 (hsame i (Nat.zero_le i) (by rwa [Nat.zero_add])) ⟨text, htext, hlow, hhigh⟩
  · intro htails
    rw [SameButCrc, ByteBlock.slice_eq_iff]
    intro i _ hi
    rw [Nat.zero_add] at hi
    refine (hbyte i hi).2 ?_
    rintro ⟨text, htext, hlow, hhigh⟩
    exact ByteBlock.slice_eq_iff.1 (htails text htext) i hlow hhigh

/-! ### Loading -/

/-- What is loaded is not of this version, or its checksum is wrong. -/
def Corrupted (cfg : Config) : Prop := version cfg ≠ configVersion ∨ crc cfg ≠ computeCrc ext cfg

/-- The store has the blob and reads it, with 0 or with the number of bytes. -/
def Holds (nvs : Kvstore) (cfg : Config) : Prop :=
  nvs.values basicConfigKey = some cfg.bytes ∧ 0 ≤ nvs.readReturns

theorem setVersion_applyDefaults (cfg : Config) :
    setVersion (applyDefaults ext cfg) configVersion = applyDefaults ext cfg :=
  ByteBlock.put_put _ _ rfl

theorem sameButCrc_setCrc (cfg : Config) (x : UInt32) : SameButCrc (setCrc cfg x) cfg := by
  have htake := cfg.take_put (offsetof .crc) (LittleEndian.encode x) (by decide)
  rw [SameButCrc, ByteBlock.slice, ByteBlock.slice, List.drop_zero, List.drop_zero]
  exact htake

/-- A dirty configuration is saved with its checksum, which stays in RAM if the write fails. -/
theorem saveBasicConfig_markDirty (mgr : Mgr) :
    (saveBasicConfig ext (markDirty mgr)).1.basic = setCrc mgr.basic (computeCrc ext mgr.basic) := by
  have hdirty : ¬ (markDirty mgr).dirty = false := nofun
  rw [saveBasicConfig, if_neg hdirty]
  dsimp only
  split <;> rfl

/-- A configuration of another version is replaced by the defaults, and saved. -/
theorem migrateConfig_basic (mgr : Mgr) (h : version mgr.basic ≠ configVersion) :
    (migrateConfig ext mgr).basic =
      setCrc (applyDefaults ext mgr.basic) (computeCrc ext (applyDefaults ext mgr.basic)) := by
  have hdefault : version (applyDefaults ext mgr.basic) = configVersion := version_setVersion _ _
  have hfirst : configVersion = makeVersion 0 0 1 := rfl
  rw [migrateConfig, if_neg h, ← hfirst]
  dsimp only
  by_cases hnewer : version mgr.basic > configVersion
  · have hnot : ¬ version (applyDefaults ext mgr.basic) < configVersion := by
      rw [hdefault]
      exact UInt32.lt_irrefl _
    rw [if_pos hnewer, if_neg hnot, setVersion_applyDefaults, saveBasicConfig_markDirty]
  · have holder : version mgr.basic < configVersion := UInt32.lt_of_le_of_ne (UInt32.not_lt.1 hnewer) h
    rw [if_neg hnewer, if_pos holder, setVersion_applyDefaults, saveBasicConfig_markDirty]

/-- What was corrupted is loaded as the defaults over it. -/
theorem configInit_of_corrupted {nvs : Kvstore} {cfg : Config} (hholds : Holds nvs cfg) (h : Corrupted ext cfg) :
    SameButCrc (configInit ext nvs).1.basic (applyDefaults ext cfg) := by
  have hloaded : ¬ nvs.readReturns < 0 := Int.not_lt.2 hholds.2
  rw [configInit, loadConfig]
  simp only [read_blob hholds.1, if_neg hloaded]
  by_cases hversion : version cfg = configVersion
  · have hcrc : crc cfg ≠ computeCrc ext cfg := h.resolve_left fun hne => hne hversion
    rw [migrateConfig, if_pos hversion, if_pos hcrc]
    split <;> rfl
  · have hbasic := migrateConfig_basic ext { nvs := nvs, basic := cfg, dirty := false } hversion
    have hchecked := checked_setCrc ext (applyDefaults ext cfg)
    rw [← hbasic] at hchecked
    rw [if_neg fun hwrong => hwrong hchecked, hbasic]
    exact sameButCrc_setCrc _ _

/-- A reset of two configurations, and a load of two corrupted blobs, leave the same but for the checksum exactly when what is behind the default texts was the same. -/
theorem reset_leaves_no_trace_iff :
    (∀ mgr mgr' : Mgr, SameButCrc (configReset ext mgr none).1.basic (configReset ext mgr' none).1.basic ↔
        SameTails mgr.basic mgr'.basic) ∧
      ∀ (nvs nvs' : Kvstore) (cfg cfg' : Config), Holds nvs cfg → Holds nvs' cfg' → Corrupted ext cfg →
        Corrupted ext cfg' →
          (SameButCrc (configInit ext nvs).1.basic (configInit ext nvs').1.basic ↔ SameTails cfg cfg') := by
  refine ⟨fun mgr mgr' => sameButCrc_applyDefaults_iff ext mgr.basic mgr'.basic, ?_⟩
  intro nvs nvs' cfg cfg' hholds hholds' hcorrupted hcorrupted'
  have hinit := configInit_of_corrupted ext hholds hcorrupted
  have hinit' := configInit_of_corrupted ext hholds' hcorrupted'
  rw [SameButCrc] at hinit hinit' ⊢
  rw [hinit, hinit']
  exact sameButCrc_applyDefaults_iff ext cfg cfg'

/-- Two blobs of no version that differ in the name of the device load as the same. -/
theorem corrupted_blobs_load_alike :
    SameButCrc (configInit ⟨0, crc32⟩ blankStore).1.basic
      (configInit ⟨0, crc32⟩ { values := fun _ => some (strcpy .zero .deviceName "pazzk").bytes }).1.basic :=
  ((reset_leaves_no_trace_iff ⟨0, crc32⟩).2 _ _ .zero (strcpy .zero .deviceName "pazzk") ⟨rfl, Int.le_refl 0⟩ ⟨rfl, Int.le_refl 0⟩
    (.inl (by decide +kernel)) (.inl (by decide +kernel))).2 (by decide +kernel)

/-- A configuration without a URL, and one with a longer URL than the default. -/
theorem reset_keeps_end_of_url :
    ¬ SameButCrc (configReset ⟨0, crc32⟩ ⟨blankStore, .zero, false⟩ none).1.basic
        (configReset ⟨0, crc32⟩ ⟨blankStore, strcpy .zero .serverUrl "wss://csms.example.com/station/token", false⟩
          none).1.basic := by
  intro hsame
  have htails := (sameButCrc_applyDefaults_iff _ _ _).1 hsame
  exact absurd htails (by decide +kernel)

end Evse.Config
