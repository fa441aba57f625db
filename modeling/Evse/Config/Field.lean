import Evse.Config.Restart

/-!
# A field of one owner

Some fields of the configuration belong to one part of the program, which reads them when the power comes and writes them with `config_set_and_save`. The other parts leave such a field alone whatever they do with the rest, unless they reset it. So it has in RAM what its owner put there last, or its default since a reset, and in the store what it had at the last save that succeeded, whoever made that.
-/

namespace Evse.Config

/-- The key is in the table, and no other key is for its field. -/
structure OwnKey (key : String) (member : Member) : Prop where
  entry : findConfigEntry key = some ⟨key, member, .RW⟩
  apart : ∀ entry ∈ configMap, entry.key ≠ key → member ≠ entry.member
  notCrc : member ≠ .crc

def fieldIn (member : Member) (cfg : Config) : List UInt8 := cfg.slice (offsetof member) member.size

/-- The operation leaves the field of the key to its owner: it is not a reset of everything, and does not write over the whole configuration. -/
def Spares (key : String) : Op → Prop
  | .set key' _ | .setAndSave key' _ | .reset (some key') => key' ≠ key
  | .reset none | .writeAll _ => False
  | .save => True

/-- The operation is a reset of the key or of everything. -/
def resets (key : String) : Op → Bool
  | .reset none => true
  | .reset (some key') => key' = key
  | _ => false

theorem current_of_spares {key : String} {op : Op} (h : Spares key op) : (PowerOp.op op).Current := by
  cases op with
  | writeAll cfg => exact absurd h id
  | _ => trivial

theorem current_of_resets {key : String} {op : Op} (h : resets key op = true) : (PowerOp.op op).Current := by
  cases op with
  | writeAll cfg => cases h
  | _ => trivial

theorem length_fieldIn (member : Member) (cfg : Config) : (fieldIn member cfg).length = member.size := by
  have hfits := field_fits member (mem_members _)
  rw [fieldIn, ByteBlock.slice, List.length_take, List.length_drop, cfg.size]
  omega

section Fields

variable {ext : Externals} {mgr : Mgr} {key : String} {member : Member}

theorem OwnKey.fieldIn_of_same (h : OwnKey key member) {cfg cfg' : Config} (hsame : SameButCrc cfg cfg') :
    fieldIn member cfg = fieldIn member cfg' :=
  hsame.slice_eq h.notCrc

/-- The owner reads its field. -/
theorem OwnKey.configGet (h : OwnKey key member) (mgr : Mgr) :
    (configGet mgr key member.size).1 = some (fieldIn member mgr.basic) := by
  simp only [Config.configGet, h.entry]
  rw [if_neg (Nat.lt_irrefl _)]
  rfl

theorem same_saveBasicConfig (mgr : Mgr) : SameButCrc (saveBasicConfig ext mgr).1.basic mgr.basic := by
  have hsaves := saveBasicConfig_saves ext mgr
  generalize saveBasicConfig ext mgr = saved at hsaves
  cases hsaves with
  | idle => exact .of_eq rfl
  | failed => exact sameButCrc_setCrc _ _
  | written => exact sameButCrc_setCrc _ _

theorem OwnKey.member_of_find (h : OwnKey key member) {key' : String} {entry : ConfigEntry} (hkey : key' ≠ key)
    (hentry : findConfigEntry key' = some entry) : member ≠ entry.member := by
  have hfound : entry.key = key' := by simpa using List.find?_some hentry
  exact h.apart entry (List.mem_of_find?_eq_some hentry) (hfound ▸ hkey)

theorem OwnKey.fieldIn_setConfig (h : OwnKey key member) {key' : String} (hkey : key' ≠ key) (data : List UInt8) :
    fieldIn member (setConfig mgr key' data).1.basic = fieldIn member mgr.basic := by
  unfold setConfig
  split
  · unfold writeCustomConfig
    split
    · rfl
    · split
      · rfl
      · split <;> rfl
  · rename_i entry hentry
    split
    · rfl
    · split
      · rfl
      · rename_i hfits
        split
        · exact slice_put_of_ne mgr.basic (h.member_of_find hkey hentry) (Nat.le_of_not_lt hfits)
        · rfl

theorem OwnKey.fieldIn_reset (h : OwnKey key member) {key' : String} (hkey : key' ≠ key) :
    fieldIn member (configReset ext mgr (some key')).1.basic = fieldIn member mgr.basic := by
  simp only [configReset, applyDefault]
  cases hentry : findConfigEntry key' with
  | none =>
      cases findCustomConfigEntry key' with
      | none => rfl
      | some entry => rfl
  | some entry =>
      have hfits : (resetBytes ext entry.member).length ≤ entry.member.size := by
        rw [length_resetBytes]
        cases entry.member <;> decide
      have hput := slice_put_of_ne mgr.basic (h.member_of_find hkey hentry) hfits
      rw [← setDefaultOrZero_eq ext entry (List.mem_of_find?_eq_some hentry)] at hput
      exact hput

/-- The other parts of the program leave the field in RAM, unless they reset it. -/
theorem OwnKey.fieldIn_step (h : OwnKey key member) (ext : Externals) (mgr : Mgr) {op : Op} (hop : Spares key op) :
    fieldIn member (step ext mgr op).basic = fieldIn member mgr.basic := by
  cases op with
  | set key' data => exact h.fieldIn_setConfig hop data
  | writeAll cfg => exact absurd hop id
  | reset key' =>
      cases key' with
      | none => exact absurd hop id
      | some key' => exact h.fieldIn_reset hop
  | save => exact h.fieldIn_of_same (same_saveBasicConfig mgr)
  | setAndSave key' data =>
      simp only [step, configSetAndSave]
      split
      · exact (h.fieldIn_of_same (same_saveBasicConfig _)).trans (h.fieldIn_setConfig hop data)
      · exact h.fieldIn_setConfig hop data

/-- One field after the defaults of several entries: one of them is its own, or it had its default before. -/
theorem fieldIn_setDefaults (ext : Externals) (hwhole : (resetBytes ext member).length = member.size)
    {entries : List ConfigEntry} (hentries : ∀ entry ∈ entries, entry ∈ configMap) (cfg : Config)
    (h : (∃ entry ∈ entries, entry.member = member) ∨ fieldIn member cfg = resetBytes ext member) :
    fieldIn member (entries.foldl (setDefaultOrZero ext) cfg) = resetBytes ext member := by
  induction entries generalizing cfg with
  | nil => exact h.resolve_left fun ⟨_, hmem, _⟩ => absurd hmem List.not_mem_nil
  | cons entry entries ih =>
      obtain ⟨hentry, hrest⟩ := List.forall_mem_cons.mp hentries
      rw [List.foldl_cons, setDefaultOrZero_eq ext entry hentry]
      refine ih hrest _ ?_
      by_cases hsame : entry.member = member
      · right
        have hfits : offsetof member + (resetBytes ext member).length ≤ sizeofConfig := by
          rw [hwhole]
          exact field_fits member (mem_members _)
        have hslice := cfg.slice_put (offsetof member) hfits
        rw [hwhole] at hslice
        rw [hsame]
        exact hslice
      · rcases h with ⟨own, hown, hmember⟩ | hdefault
        · refine .inl ⟨own, (List.mem_cons.mp hown).resolve_left fun heq => ?_, hmember⟩
          exact hsame (heq ▸ hmember)
        · right
          have hfits : (resetBytes ext entry.member).length ≤ entry.member.size := by
            rw [length_resetBytes]
            cases entry.member <;> decide
          exact (slice_put_of_ne cfg (Ne.symm hsame) hfits).trans hdefault

/-- A reset gives the field its default, if that fills it. -/
theorem OwnKey.fieldIn_of_resets (h : OwnKey key member) (hwhole : (resetBytes ext member).length = member.size)
    (mgr : Mgr) {op : Op} (hop : resets key op = true) :
    fieldIn member (step ext mgr op).basic = resetBytes ext member := by
  have hentry : (⟨key, member, .RW⟩ : ConfigEntry) ∈ configMap := List.mem_of_find?_eq_some h.entry
  cases op with
  | reset key' =>
      cases key' with
      | none =>
          have hwritable : ¬ Permission.RW.rank ≤ Permission.RFW.rank := by decide
          have hversion : Member.version ≠ member := member_of_writable _ hentry hwritable
          have hfits : (LittleEndian.encode configVersion).length ≤ Member.version.size := Nat.le_refl 4
          have hdefaults := fieldIn_setDefaults ext hwhole (fun _ hmem => hmem) mgr.basic (.inl ⟨_, hentry, rfl⟩)
          exact (slice_put_of_ne _ hversion.symm hfits).trans hdefaults
      | some key' =>
          obtain rfl : key' = key := of_decide_eq_true hop
          have hdefaults := fieldIn_setDefaults ext hwhole (List.forall_mem_singleton.mpr hentry) mgr.basic
            (.inl ⟨_, List.mem_singleton_self _, rfl⟩)
          simp only [step, configReset, applyDefault, h.entry]
          exact hdefaults
  | _ => cases hop

/-- The owner's own write of it. -/
theorem OwnKey.fieldIn_setAndSave (h : OwnKey key member) (ext : Externals) (mgr : Mgr) {data : List UInt8}
    (hdata : data.length = member.size) :
    fieldIn member (step ext mgr (.setAndSave key data)).basic = data := by
  have hfits : offsetof member + data.length ≤ sizeofConfig := by
    rw [hdata]
    exact field_fits member (mem_members _)
  have hset : (setConfig mgr key data).2 = 0 ∧ fieldIn member (setConfig mgr key data).1.basic = data := by
    simp only [setConfig, h.entry]
    rw [if_neg (by decide), if_neg (Nat.not_lt.2 (Nat.le_of_eq hdata))]
    split
    · refine ⟨rfl, ?_⟩
      have hslice := mgr.basic.slice_put (offsetof member) hfits
      rwa [hdata] at hslice
    · rename_i hsame
      rw [hdata] at hsame
      exact ⟨rfl, not_not.1 hsame⟩
  simp only [step, configSetAndSave]
  rw [if_pos hset.1]
  exact (h.fieldIn_of_same (same_saveBasicConfig _)).trans hset.2

end Fields

end Evse.Config
