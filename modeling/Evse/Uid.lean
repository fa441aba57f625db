import Evse.Lib.Run
import Evse.Lib.RecordFile
import Evse.Ocpp.Session
import Mathlib.Data.List.TakeWhile

/-!
# The uid store

`uid.c`: records of ids in files, one file for each first two bytes of an id, with a direct-mapped cache of records before them. A cache slot is a pointer, so it has a third state besides empty and occupied: the record it points to may have been freed. Whatever touches such a slot has no defined outcome, and the model has none either.

The file system is reliable and memory does not run out. The last section says when the connectors, whose store of ids is a plain map, may take this one for it.
-/

namespace Evse.Uid

open RecordFile StepRun

/-- `uid_id_t`. -/
abbrev RawId := Vector UInt8 21

def RawId.zero : RawId := Vector.replicate 21 0

/-- The byte of an id that names its directory. -/
abbrev RawId.dir (id : RawId) : UInt8 := id[0]

/-- The byte of an id that names its file there. -/
abbrev RawId.name (id : RawId) : UInt8 := id[1]

/-- An id that is not all zero bytes. -/
structure Id where
  bytes : RawId
  nonzero : bytes ≠ .zero
  deriving DecidableEq

/-- `struct uid`. -/
structure Record where
  id : RawId
  pid : RawId
  expiry : Int
  status : Ocpp.UidStatus
  deriving DecidableEq

/-- A record of zero bytes, as `calloc` and `memset` leave it. -/
def Record.blank : Record := ⟨.zero, .zero, 0, .unknown⟩

/-- A pointer of the cache. -/
inductive Slot where
  | empty
  | live (record : Record)
  | freed
  deriving DecidableEq

/-- `struct uid_store` of capacity `n + 1`, with the files of its namespace by the first two bytes of an id. -/
structure Store (n : Nat) where
  cache : Fin (n + 1) → Slot
  files : UInt8 → UInt8 → List Record

/-- What `uid_status` returns and what it writes to the caller's pid and expiry. -/
structure Answer where
  status : Ocpp.UidStatus
  out : Option (RawId × Int)
  deriving DecidableEq

def Record.answer (record : Record) : Answer := ⟨record.status, some (record.pid, record.expiry)⟩

def Answer.noEntry : Answer := ⟨.noEntry, none⟩

inductive Errno where
  | ok | noEnt
  deriving DecidableEq, Repr

def hashUid (n : Nat) (id : RawId) : Fin (n + 1) :=
  let h : UInt32 := id.toList.foldl (fun h byte => (h ^^^ byte.toUInt32) * 16777619) 2166136261
  Fin.ofNat (n + 1) h.toNat

namespace Store

variable {n : Nat} (s : Store n)

/-- `uid_store_create` over an empty file system. -/
def create (n : Nat) : Store n := ⟨fun _ => .empty, fun _ _ => []⟩

def setSlot (h : Fin (n + 1)) (slot : Slot) : Store n := { s with cache := Function.update s.cache h slot }

/-- The file of an id, `get_filename`. -/
def file (id : RawId) : List Record := s.files id[0] id[1]

def setFile (id : RawId) (file : List Record) : Store n :=
  { s with files := fun dir name => if dir = id[0] ∧ name = id[1] then file else s.files dir name }

/-- The record and its offset in the file. -/
def readEntryFromFile (id : RawId) : Option (Nat × Record) := locate Record.id id (s.file id)

def saveEntryIntoFile (record : Record) : Store n :=
  match s.readEntryFromFile record.id with
  | some (offset, _) => s.setFile record.id ((s.file record.id).set offset record)
  | none => s.setFile record.id (s.file record.id ++ [record])

def removeEntryFromFile (id : RawId) : Store n × Errno :=
  match s.readEntryFromFile id with
  | some (offset, _) => (s.setFile id ((s.file id).set offset .blank), .ok)
  | none => (s, .noEnt)

/-- What a miss in the cache reads into: the slot's own entry, if it has one. If the file has no record of the id either, that entry is freed, and the slot still points to it. -/
def loadEntry (h : Fin (n + 1)) (missed : Slot) (id : RawId) : Store n × Answer :=
  match s.readEntryFromFile id with
  | some (_, record) => (s.setSlot h (.live record), record.answer)
  | none => (s.setSlot h missed, .noEntry)

def uidStatus (id : Id) : Option (Store n × Answer) :=
  let h := hashUid n id.bytes
  match s.cache h with
  | .freed => none
  | .live record =>
      if record.id = id.bytes then some (s, record.answer) else some (s.loadEntry h .freed id.bytes)
  | .empty => some (s.loadEntry h .empty id.bytes)

/-- `uid_update`; a null pid leaves the one that the slot's entry has, whoever it is of. -/
def uidUpdate (id : Id) (pid : Option RawId) (status : Ocpp.UidStatus) (expiry : Int) : Option (Store n) :=
  let h := hashUid n id.bytes
  let update (entry : Record) : Store n :=
    let record := { id := id.bytes, pid := pid.getD entry.pid, status := status, expiry := expiry }
    (s.setSlot h (.live record)).saveEntryIntoFile record
  match s.cache h with
  | .freed => none
  | .live entry => some (update entry)
  | .empty => some (update .blank)

def uidDelete (id : Id) : Option (Store n × Errno) :=
  let h := hashUid n id.bytes
  match s.cache h with
  | .freed => none
  | .live entry =>
      let s := if entry.id = id.bytes then s.setSlot h .empty else s
      some (s.removeEntryFromFile id.bytes)
  | .empty => some (s.removeEntryFromFile id.bytes)

/-- `uid_clear`: the walk over the directories deletes every file of the namespace. -/
def uidClear : Option (Store n) :=
  if ∃ h, s.cache h = .freed then none else some ⟨fun _ => .empty, fun _ _ => []⟩

end Store

/-- The calls on a store. -/
inductive Op where
  | status (id : Id)
  | update (id : Id) (pid : Option RawId) (status : Ocpp.UidStatus) (expiry : Int)
  | delete (id : Id)
  | clear
  deriving DecidableEq

def Store.apply {n : Nat} (s : Store n) : Op → Option (Store n)
  | .status id => (s.uidStatus id).map Prod.fst
  | .update id pid status expiry => s.uidUpdate id pid status expiry
  | .delete id => (s.uidDelete id).map Prod.fst
  | .clear => s.uidClear

/-! ### What the store is for -/

/-- What the store holds on an id. -/
structure Entry where
  pid : RawId
  expiry : Int
  status : Ocpp.UidStatus
  deriving DecidableEq

def Record.entry (record : Record) : Entry := ⟨record.pid, record.expiry, record.status⟩

/-- The store as a map. -/
abbrev Map := Id → Option Entry

def Map.parent (m : Map) (id : Id) : RawId := ((m id).map Entry.pid).getD .zero

def Map.answer (m : Map) (id : Id) : Answer :=
  match m id with
  | none => .noEntry
  | some entry => ⟨entry.status, some (entry.pid, entry.expiry)⟩

def Map.apply (m : Map) : Op → Map
  | .status _ => m
  | .update id pid status expiry => Function.update m id (some ⟨pid.getD (m.parent id), expiry, status⟩)
  | .delete id => Function.update m id none
  | .clear => fun _ => none

/-- A store, as long as nothing undefined has happened, with the map it stands for. -/
structure Held (n : Nat) where
  store : Option (Store n)
  map : Map

def Held.step {n : Nat} (t : Held n) (op : Op) : Held n := ⟨t.store.bind (·.apply op), t.map.apply op⟩

def Held.start (n : Nat) : Held n := ⟨some (.create n), fun _ => none⟩

/-- Whatever id is asked for next, the store answers as the map does. -/
def Held.Agrees {n : Nat} (t : Held n) : Prop :=
  ∃ s ∈ t.store, ∀ id, (s.uidStatus id).map Prod.snd = some (t.map.answer id)

/-! ### Files -/

/-- What a miss in both cache and file leaves of a slot. -/
def Slot.missed : Slot → Slot
  | .empty => .empty
  | _ => .freed

namespace Store

variable {n : Nat} (s : Store n)

/-- The record that the file of an id has on it. -/
def stored (id : Id) : Option Record := lookup Record.id id.bytes (s.file id.bytes)

@[simp] theorem stored_setSlot (h : Fin (n + 1)) (slot : Slot) (id : Id) : (s.setSlot h slot).stored id = s.stored id :=
  rfl

theorem id_of_stored {id : Id} {record : Record} (h : s.stored id = some record) : record.id = id.bytes :=
  key_of_lookup h

theorem file_setFile (id id' : RawId) (file : List Record) :
    (s.setFile id file).file id' = if id'[0] = id[0] ∧ id'[1] = id[1] then file else s.file id' := rfl

theorem file_eq_of_path {id id' : RawId} (h : id'[0] = id[0] ∧ id'[1] = id[1]) : s.file id' = s.file id := by
  rw [file, file, h.1, h.2]

theorem saveEntryIntoFile_eq (record : Record) :
    s.saveEntryIntoFile record = s.setFile record.id (save Record.id record (s.file record.id)) := by
  simp only [saveEntryIntoFile, readEntryFromFile, save]
  cases locate Record.id record.id (s.file record.id) with
  | none => rfl
  | some found => rfl

theorem removeEntryFromFile_eq (id : RawId) :
    (s.removeEntryFromFile id).1 = s.setFile id (remove Record.id .blank id (s.file id)) := by
  simp only [removeEntryFromFile, readEntryFromFile, remove]
  cases locate Record.id id (s.file id) with
  | some found => rfl
  | none =>
      have hsame : s.setFile id (s.file id) = s := by
        simp only [setFile]
        congr 1
        funext dir name
        split_ifs with hpath
        · rw [file, hpath.1, hpath.2]
        · rfl
      exact hsame.symm

@[simp] theorem saveEntryIntoFile_cache (record : Record) : (s.saveEntryIntoFile record).cache = s.cache := by
  rw [saveEntryIntoFile_eq]
  rfl

@[simp] theorem removeEntryFromFile_cache (id : RawId) : (s.removeEntryFromFile id).1.cache = s.cache := by
  rw [removeEntryFromFile_eq]
  rfl

theorem stored_saveEntryIntoFile (record : Record) (id : Id) :
    (s.saveEntryIntoFile record).stored id = if id.bytes = record.id then some record else s.stored id := by
  rw [saveEntryIntoFile_eq, stored, file_setFile]
  by_cases hpath : id.bytes[0] = record.id[0] ∧ id.bytes[1] = record.id[1]
  · rw [if_pos hpath, lookup_save, stored, s.file_eq_of_path hpath]
  · have hne : id.bytes ≠ record.id := fun heq => hpath (by rw [heq]; exact ⟨rfl, rfl⟩)
    rw [if_neg hpath, if_neg hne]
    rfl

/-- No id has two records. -/
def FilesDistinct : Prop := ∀ dir name, Distinct Record.id .blank (s.files dir name)

variable {s}

theorem stored_removeEntryFromFile (hfiles : s.FilesDistinct) (id id' : Id) :
    (s.removeEntryFromFile id.bytes).1.stored id' = if id' = id then none else s.stored id' := by
  have hsame : (id'.bytes = id.bytes) = (id' = id) := by
    rw [Id.mk.injEq]
  rw [removeEntryFromFile_eq, stored, file_setFile]
  by_cases hpath : id'.bytes[0] = id.bytes[0] ∧ id'.bytes[1] = id.bytes[1]
  · have hdistinct : Distinct Record.id .blank (s.file id.bytes) := hfiles _ _
    rw [if_pos hpath, lookup_remove hdistinct id.nonzero id'.nonzero, stored, s.file_eq_of_path hpath]
    simp only [hsame]
  · have hne : id' ≠ id := fun heq => hpath (by rw [heq]; exact ⟨rfl, rfl⟩)
    rw [if_neg hpath, if_neg hne]
    rfl

theorem FilesDistinct.setFile (hfiles : s.FilesDistinct) {file : List Record} (h : Distinct Record.id .blank file)
    (id : RawId) : (s.setFile id file).FilesDistinct := by
  intro dir name
  simp only [Store.setFile]
  split_ifs
  · exact h
  · exact hfiles dir name

theorem FilesDistinct.saveEntryIntoFile (hfiles : s.FilesDistinct) (record : Record) :
    (s.saveEntryIntoFile record).FilesDistinct := by
  rw [saveEntryIntoFile_eq]
  exact hfiles.setFile (distinct_save (hfiles _ _) record) record.id

theorem FilesDistinct.removeEntryFromFile (hfiles : s.FilesDistinct) (id : RawId) :
    (s.removeEntryFromFile id).1.FilesDistinct := by
  rw [removeEntryFromFile_eq]
  exact hfiles.setFile (distinct_remove (hfiles _ _) id) id

/-! ### The cache -/

/-- An occupied slot repeats what the file has on an id that belongs there, and a freed one was once occupied. -/
structure Coherent (s : Store n) : Prop where
  files : s.FilesDistinct
  live : ∀ h record, s.cache h = .live record →
    ∃ id : Id, hashUid n id.bytes = h ∧ s.stored id = some record
  freed : ∀ h, s.cache h = .freed → ∃ id : Id, hashUid n id.bytes = h

theorem setSlot_cache_self (h : Fin (n + 1)) (slot : Slot) : (s.setSlot h slot).cache h = slot := by
  simp only [Store.setSlot, Function.update_self]

theorem setSlot_cache_of_ne {h h' : Fin (n + 1)} (hne : h' ≠ h) (slot : Slot) :
    (s.setSlot h slot).cache h' = s.cache h' := by
  simp only [Store.setSlot, Function.update_of_ne hne]

theorem coherent_create (n : Nat) : (create n).Coherent := by
  refine ⟨fun _ _ => List.Pairwise.nil, ?_, ?_⟩
  · intro _ _ h
    cases h
  · intro _ h
    cases h

/-- A slot is filled with what the file has on its id, or given up. -/
theorem Coherent.setSlot (h : s.Coherent) (id : Id) {slot : Slot}
    (hslot : ∀ record, slot = .live record → s.stored id = some record) :
    (s.setSlot (hashUid n id.bytes) slot).Coherent := by
  refine ⟨h.files, fun i record hi => ?_, fun i hi => ?_⟩
  · by_cases hsame : i = hashUid n id.bytes
    · subst hsame
      rw [setSlot_cache_self] at hi
      exact ⟨id, rfl, hslot record hi⟩
    · rw [setSlot_cache_of_ne hsame] at hi
      exact h.live i record hi
  · by_cases hsame : i = hashUid n id.bytes
    · exact ⟨id, hsame.symm⟩
    · rw [setSlot_cache_of_ne hsame] at hi
      exact h.freed i hi

theorem loadEntry_fst (h : Fin (n + 1)) (missed : Slot) (id : Id) :
    (s.loadEntry h missed id.bytes).1 = s.setSlot h ((s.stored id).elim missed .live) := by
  simp only [loadEntry, stored, lookup, readEntryFromFile]
  cases locate Record.id id.bytes (s.file id.bytes) with
  | none => rfl
  | some found => rfl

theorem loadEntry_snd (h : Fin (n + 1)) (missed : Slot) (id : Id) :
    (s.loadEntry h missed id.bytes).2 = (s.stored id).elim .noEntry Record.answer := by
  simp only [loadEntry, stored, lookup, readEntryFromFile]
  cases locate Record.id id.bytes (s.file id.bytes) with
  | none => rfl
  | some found => rfl

/-- The slot holds the record of this id. -/
def holds (s : Store n) (id : Id) : Bool :=
  match s.cache (hashUid n id.bytes) with
  | .live record => record.id = id.bytes
  | _ => false

/-- `uid_status` on a store without freed slots: what the slot then is, and the answer. -/
theorem uidStatus_eq (h : s.Coherent) {id : Id} (hslot : s.cache (hashUid n id.bytes) ≠ .freed) :
    s.uidStatus id =
      some (if s.holds id then s
        else s.setSlot (hashUid n id.bytes)
          ((s.stored id).elim (s.cache (hashUid n id.bytes)).missed .live),
        (s.stored id).elim .noEntry Record.answer) := by
  rw [uidStatus]
  rcases hcache : s.cache (hashUid n id.bytes) with _ | record | _
  · have hholds : s.holds id = false := by rw [holds, hcache]
    rw [hholds, if_neg Bool.false_ne_true, Slot.missed, ← loadEntry_fst, ← loadEntry_snd (hashUid n id.bytes) .empty]
  · have hholds : s.holds id = decide (record.id = id.bytes) := by rw [holds, hcache]
    have hmissed : (Slot.live record).missed = .freed := rfl
    rw [hholds, hmissed, ← loadEntry_fst, ← loadEntry_snd (hashUid n id.bytes) .freed]
    by_cases hown : record.id = id.bytes
    · obtain ⟨id', -, hstored⟩ := h.live _ _ hcache
      have hsame : id' = id := by
        rw [Id.mk.injEq]
        exact (s.id_of_stored hstored).symm.trans hown
      rw [loadEntry_snd, ← hsame, hstored]
      simp [hsame, hown]
    · simp [hown]
  · exact absurd hcache hslot

/-- No slot of the store is freed. -/
def Unfreed (s : Store n) : Prop := ∀ h, s.cache h ≠ .freed

theorem unfreed_create (n : Nat) : (create n).Unfreed := by
  intro _ h
  cases h

theorem Unfreed.setSlot (h : s.Unfreed) {i : Fin (n + 1)} {slot : Slot} (hslot : slot ≠ .freed) :
    (s.setSlot i slot).Unfreed := by
  intro j
  by_cases hsame : j = i
  · rw [hsame, setSlot_cache_self]
    exact hslot
  · rw [setSlot_cache_of_ne hsame]
    exact h j

/-- The parent in the slot of an id, whoever's it is. -/
def leftover (s : Store n) (id : Id) : RawId :=
  match s.cache (hashUid n id.bytes) with
  | .live entry => entry.pid
  | _ => .zero

/-- What `uid_update` writes: the parent given, or the one its slot has. -/
def updated (s : Store n) (id : Id) (pid : Option RawId) (status : Ocpp.UidStatus) (expiry : Int) : Record :=
  { id := id.bytes, pid := pid.getD (s.leftover id), status := status, expiry := expiry }

theorem uidUpdate_eq {id : Id} (hslot : s.cache (hashUid n id.bytes) ≠ .freed) (pid : Option RawId)
    (status : Ocpp.UidStatus) (expiry : Int) :
    s.uidUpdate id pid status expiry =
      some ((s.setSlot (hashUid n id.bytes) (.live (s.updated id pid status expiry))).saveEntryIntoFile
        (s.updated id pid status expiry)) := by
  simp only [uidUpdate, updated, leftover]
  cases hcache : s.cache (hashUid n id.bytes) with
  | freed => exact absurd hcache hslot
  | empty => rfl
  | live entry => rfl

theorem uidDelete_eq {id : Id} (hslot : s.cache (hashUid n id.bytes) ≠ .freed) :
    s.uidDelete id =
      some ((if s.holds id then s.setSlot (hashUid n id.bytes) .empty else s).removeEntryFromFile id.bytes) := by
  rw [uidDelete]
  rcases hcache : s.cache (hashUid n id.bytes) with _ | entry | _
  · have hholds : s.holds id = false := by rw [holds, hcache]
    rw [hholds, if_neg Bool.false_ne_true]
  · have hholds : s.holds id = decide (entry.id = id.bytes) := by rw [holds, hcache]
    simp [hholds]
  · exact absurd hcache hslot

/-! ### Each call keeps the cache coherent with the files -/

theorem coherent_uidStatus (h : s.Coherent) {id : Id} {s' : Store n} {answer : Answer}
    (hstatus : s.uidStatus id = some (s', answer)) : s'.Coherent := by
  have hslot : s.cache (hashUid n id.bytes) ≠ .freed := by
    intro hfreed
    rw [uidStatus, hfreed] at hstatus
    cases hstatus
  rw [uidStatus_eq h hslot] at hstatus
  obtain ⟨rfl, -⟩ := Prod.mk.inj (Option.some.inj hstatus)
  split_ifs
  · exact h
  · refine h.setSlot id fun record hrecord => ?_
    cases hstored : s.stored id with
    | some found =>
        rw [hstored] at hrecord
        exact congrArg some (Slot.live.inj hrecord)
    | none =>
        rw [hstored] at hrecord
        cases hcache : s.cache (hashUid n id.bytes) <;> rw [hcache] at hrecord <;> cases hrecord

theorem coherent_uidUpdate (h : s.Coherent) {id : Id} {pid : Option RawId} {status : Ocpp.UidStatus} {expiry : Int}
    {s' : Store n} (hupdate : s.uidUpdate id pid status expiry = some s') : s'.Coherent := by
  have hslot : s.cache (hashUid n id.bytes) ≠ .freed := by
    intro hfreed
    rw [uidUpdate, hfreed] at hupdate
    cases hupdate
  rw [uidUpdate_eq hslot] at hupdate
  cases hupdate
  generalize hrecord : s.updated id pid status expiry = record
  have hid : record.id = id.bytes := by rw [← hrecord]; rfl
  have hfiles : (s.setSlot (hashUid n id.bytes) (.live record)).FilesDistinct := h.files
  refine ⟨hfiles.saveEntryIntoFile record, fun i found hfound => ?_, fun i hfreed => ?_⟩
  · rw [saveEntryIntoFile_cache] at hfound
    by_cases hsame : i = hashUid n id.bytes
    · rw [hsame, setSlot_cache_self] at hfound
      refine ⟨id, hsame.symm, ?_⟩
      rw [stored_saveEntryIntoFile, if_pos hid.symm]
      exact congrArg some (Slot.live.inj hfound)
    · rw [setSlot_cache_of_ne hsame] at hfound
      obtain ⟨id', hhash, hstored⟩ := h.live i found hfound
      -- another slot, so another id, whose record is where it was
      have hne : id'.bytes ≠ record.id := by
        intro heq
        rw [heq, hid] at hhash
        exact hsame hhash.symm
      refine ⟨id', hhash, ?_⟩
      rw [stored_saveEntryIntoFile, if_neg hne]
      exact hstored
  · rw [saveEntryIntoFile_cache] at hfreed
    by_cases hsame : i = hashUid n id.bytes
    · exact ⟨id, hsame.symm⟩
    · rw [setSlot_cache_of_ne hsame] at hfreed
      exact h.freed i hfreed

theorem coherent_uidDelete (h : s.Coherent) {id : Id} {result : Store n × Errno}
    (hdelete : s.uidDelete id = some result) : result.1.Coherent := by
  have hslot : s.cache (hashUid n id.bytes) ≠ .freed := by
    intro hfreed
    rw [uidDelete, hfreed] at hdelete
    cases hdelete
  rw [uidDelete_eq hslot] at hdelete
  have hresult := (Option.some.inj hdelete).symm
  have hemptied : (if s.holds id then s.setSlot (hashUid n id.bytes) .empty else s).Coherent := by
    split_ifs
    · exact h.setSlot id fun record hrecord => by cases hrecord
    · exact h
  have hgone : (if s.holds id then s.setSlot (hashUid n id.bytes) .empty else s).holds id = false := by
    split_ifs with hholds
    · rw [holds, setSlot_cache_self]
    · exact Bool.eq_false_iff.mpr hholds
  generalize (if s.holds id then s.setSlot (hashUid n id.bytes) .empty else s) = s₁ at hresult hemptied hgone
  subst hresult
  refine ⟨hemptied.files.removeEntryFromFile id.bytes, fun i found hfound => ?_, fun i hfreed => ?_⟩
  · rw [removeEntryFromFile_cache] at hfound
    obtain ⟨id', hhash, hstored⟩ := hemptied.live i found hfound
    have hne : id' ≠ id := by
      rintro rfl
      rw [holds, hhash, hfound] at hgone
      exact absurd (s₁.id_of_stored hstored) (of_decide_eq_false hgone)
    refine ⟨id', hhash, ?_⟩
    rw [stored_removeEntryFromFile hemptied.files, if_neg hne]
    exact hstored
  · rw [removeEntryFromFile_cache] at hfreed
    exact hemptied.freed i hfreed

theorem coherent_apply (h : s.Coherent) (op : Op) {s' : Store n} (happly : s.apply op = some s') : s'.Coherent := by
  cases op with
  | status id =>
      obtain ⟨⟨s₁, answer⟩, hstatus, rfl⟩ := Option.map_eq_some_iff.mp happly
      exact coherent_uidStatus h hstatus
  | update id pid status expiry => exact coherent_uidUpdate h happly
  | delete id =>
      obtain ⟨result, hdelete, rfl⟩ := Option.map_eq_some_iff.mp happly
      exact coherent_uidDelete h hdelete
  | clear =>
      simp only [apply, uidClear] at happly
      split_ifs at happly
      cases happly
      exact coherent_create n

/-! ### When the store is the map -/

/-- The parent that the file has on an id, or zero. -/
def storedParent (s : Store n) (id : Id) : RawId := ((s.stored id).map Record.pid).getD .zero

/-- The calls that keep store and map together: a query that finds its slot free or its own, or a record in the file, and an update that is given a parent or finds the right one in its slot. -/
def Safe (s : Store n) : Op → Prop
  | .status id => s.cache (hashUid n id.bytes) = .empty ∨ s.holds id = true ∨ (s.stored id).isSome = true
  | .update id none _ _ => s.leftover id = s.storedParent id
  | _ => True

/-- What the files hold is the map. -/
def Reflects (s : Store n) (m : Map) : Prop := ∀ id, (s.stored id).map Record.entry = m id

theorem answer_eq_iff (found : Option Record) (m : Map) (id : Id) :
    found.elim .noEntry Record.answer = m.answer id ↔ found.map Record.entry = m id := by
  rw [Map.answer]
  cases found with
  | none => cases m id <;> simp [Answer.noEntry]
  | some record =>
      cases m id with
      | none => simp [Answer.noEntry, Record.answer]
      | some entry =>
          obtain ⟨pid, expiry, status⟩ := entry
          simp only [Option.elim_some, Option.map_some, Record.answer, Record.entry, Answer.mk.injEq,
            Option.some.injEq, Prod.mk.injEq, Entry.mk.injEq]
          tauto

theorem agrees_iff (h : s.Coherent) (m : Map) : Held.Agrees ⟨some s, m⟩ ↔ s.Unfreed ∧ s.Reflects m := by
  simp only [Held.Agrees, Option.mem_some_iff, exists_eq_left']
  constructor
  · intro hagrees
    have hunfreed : s.Unfreed := by
      intro i hfreed
      obtain ⟨id, hhash⟩ := h.freed i hfreed
      have hanswer := hagrees id
      rw [uidStatus, hhash, hfreed] at hanswer
      cases hanswer
    refine ⟨hunfreed, fun id => ?_⟩
    have hanswer := hagrees id
    rw [uidStatus_eq h (hunfreed _)] at hanswer
    exact (answer_eq_iff _ m id).mp (Option.some.inj hanswer)
  · intro ⟨hunfreed, hreflects⟩ id
    rw [uidStatus_eq h (hunfreed _)]
    exact congrArg some ((answer_eq_iff _ m id).mpr (hreflects id))

theorem reflects_saveEntryIntoFile_iff {m : Map} (hreflects : s.Reflects m) {i : Fin (n + 1)} {slot : Slot} {id : Id}
    {record : Record} (hid : record.id = id.bytes) (entry : Entry) :
    ((s.setSlot i slot).saveEntryIntoFile record).Reflects (Function.update m id (some entry)) ↔
      record.entry = entry := by
  have hsame : ∀ id' : Id, id'.bytes = record.id ↔ id' = id := by
    intro id'
    rw [hid, Id.mk.injEq]
  constructor
  · intro h
    have hentry := h id
    rw [stored_saveEntryIntoFile, if_pos hid.symm, Function.update_self] at hentry
    exact Option.some.inj hentry
  · rintro rfl id'
    rw [stored_saveEntryIntoFile, Function.update_apply]
    simp only [hsame]
    split_ifs
    · rfl
    · exact hreflects id'

section Calls

variable {m : Map} (h : s.Coherent) (hunfreed : s.Unfreed) (hreflects : s.Reflects m)
include h hunfreed hreflects

theorem agrees_status_iff (id : Id) : Held.Agrees (Held.step ⟨some s, m⟩ (.status id)) ↔ s.Safe (.status id) := by
  have hstatus := uidStatus_eq h (hunfreed (hashUid n id.bytes))
  have hstep : Held.step ⟨some s, m⟩ (.status id) = ⟨(s.uidStatus id).map Prod.fst, m⟩ := rfl
  rw [hstep, hstatus, Option.map_some, agrees_iff (coherent_uidStatus h hstatus), Safe]
  by_cases hholds : s.holds id = true
  · rw [if_pos hholds]
    exact iff_of_true ⟨hunfreed, hreflects⟩ (.inr (.inl hholds))
  · rw [if_neg hholds]
    have hkept : ∀ slot, (s.setSlot (hashUid n id.bytes) slot).Reflects m := fun _ => hreflects
    cases hstored : s.stored id with
    | some record => exact iff_of_true ⟨hunfreed.setSlot (by simp), hkept _⟩ (.inr (.inr rfl))
    | none =>
        rcases hcache : s.cache (hashUid n id.bytes) with _ | record | _
        · exact iff_of_true ⟨hunfreed.setSlot (by simp [Slot.missed]), hkept _⟩ (.inl rfl)
        · refine iff_of_false (fun hagrees => hagrees.1 (hashUid n id.bytes) ?_) (by simp [hholds])
          rw [setSlot_cache_self]
          rfl
        · exact absurd hcache (hunfreed _)

theorem agrees_update_iff (id : Id) (pid : Option RawId) (status : Ocpp.UidStatus) (expiry : Int) :
    Held.Agrees (Held.step ⟨some s, m⟩ (.update id pid status expiry)) ↔ s.Safe (.update id pid status expiry) := by
  have hupdate := uidUpdate_eq (hunfreed (hashUid n id.bytes)) pid status expiry
  have hstep : Held.step ⟨some s, m⟩ (.update id pid status expiry) =
      ⟨s.uidUpdate id pid status expiry, m.apply (.update id pid status expiry)⟩ := rfl
  have hparent : m.parent id = s.storedParent id := by
    rw [Map.parent, storedParent, ← hreflects id, Option.map_map]
    rfl
  rw [hstep, hupdate, agrees_iff (coherent_uidUpdate h hupdate)]
  have hfresh : (s.setSlot (hashUid n id.bytes) (.live (s.updated id pid status expiry))).Unfreed :=
    hunfreed.setSlot (by simp)
  have hstill : ((s.setSlot (hashUid n id.bytes) (.live (s.updated id pid status expiry))).saveEntryIntoFile
      (s.updated id pid status expiry)).Unfreed := by
    rw [Unfreed, saveEntryIntoFile_cache]
    exact hfresh
  rw [and_iff_right hstill, Map.apply, reflects_saveEntryIntoFile_iff (m := m) hreflects rfl, hparent]
  simp only [Record.entry, updated, Entry.mk.injEq, and_true]
  cases pid with
  | none => exact Iff.rfl
  | some pid => exact iff_of_true rfl trivial

theorem agrees_delete (id : Id) : Held.Agrees (Held.step ⟨some s, m⟩ (.delete id)) := by
  have hdelete := uidDelete_eq (hunfreed (hashUid n id.bytes))
  have hstep : Held.step ⟨some s, m⟩ (.delete id) = ⟨(s.uidDelete id).map Prod.fst, m.apply (.delete id)⟩ := rfl
  rw [hstep, hdelete, Option.map_some, agrees_iff (coherent_uidDelete h hdelete)]
  have hemptied : (if s.holds id then s.setSlot (hashUid n id.bytes) .empty else s).Unfreed ∧
      (if s.holds id then s.setSlot (hashUid n id.bytes) .empty else s).Reflects m ∧
      (if s.holds id then s.setSlot (hashUid n id.bytes) .empty else s).FilesDistinct := by
    split_ifs
    · exact ⟨hunfreed.setSlot (by simp), hreflects, h.files⟩
    · exact ⟨hunfreed, hreflects, h.files⟩
  generalize (if s.holds id then s.setSlot (hashUid n id.bytes) .empty else s) = s₁ at hemptied
  obtain ⟨hstill, hkept, hfiles⟩ := hemptied
  refine ⟨?_, fun id' => ?_⟩
  · rw [Unfreed, removeEntryFromFile_cache]
    exact hstill
  · rw [stored_removeEntryFromFile hfiles, Map.apply, Function.update_apply]
    split_ifs
    · rfl
    · exact hkept id'

end Calls

theorem agrees_clear (hunfreed : s.Unfreed) (m : Map) : Held.Agrees (Held.step ⟨some s, m⟩ .clear) := by
  have hclear : s.uidClear = some (create n) := by
    rw [uidClear, if_neg]
    · rfl
    · rintro ⟨i, hfreed⟩
      exact hunfreed i hfreed
  have hstep : Held.step ⟨some s, m⟩ .clear = ⟨s.uidClear, fun _ => none⟩ := rfl
  rw [hstep, hclear, agrees_iff (coherent_create n)]
  exact ⟨unfreed_create n, fun id => rfl⟩

end Store

namespace Held

variable {n : Nat}

/-- The next call is safe on the store there is. -/
def Safe (t : Held n) (op : Op) : Prop := ∃ s ∈ t.store, s.Safe op

theorem coherent_step (t : Held n) (op : Op) (h : ∀ s ∈ t.store, s.Coherent) :
    ∀ s ∈ (t.step op).store, s.Coherent := by
  intro s' hs'
  obtain ⟨s, hs, happly⟩ := Option.bind_eq_some_iff.mp hs'
  exact Store.coherent_apply (h s hs) op happly

theorem agrees_step_iff (t : Held n) (op : Op) (h : ∀ s ∈ t.store, s.Coherent) (hagrees : t.Agrees) :
    (t.step op).Agrees ↔ t.Safe op := by
  obtain ⟨store, m⟩ := t
  obtain ⟨s, rfl, hanswers⟩ := hagrees
  have hcoherent := h s rfl
  obtain ⟨hunfreed, hreflects⟩ := (Store.agrees_iff hcoherent m).mp ⟨s, rfl, hanswers⟩
  have hsafe : Safe ⟨some s, m⟩ op ↔ s.Safe op := by simp [Safe]
  rw [hsafe]
  cases op with
  | status id => exact Store.agrees_status_iff hcoherent hunfreed hreflects id
  | update id pid status expiry => exact Store.agrees_update_iff hcoherent hunfreed hreflects id pid status expiry
  | delete id => exact iff_of_true (Store.agrees_delete hcoherent hunfreed hreflects id) trivial
  | clear => exact iff_of_true (Store.agrees_clear hunfreed m) trivial

end Held

/-- Over any calls the store answers as the map does exactly when every call is safe where it is made. -/
theorem store_is_map_iff (n : Nat) (ops : List Op) :
    EveryState Held.step Held.Agrees (Held.start n) ops ↔ EveryStep Held.step Held.Safe (Held.start n) ops := by
  refine everyState_iff_everyStep (I := fun t => ∀ s ∈ t.store, s.Coherent) Held.coherent_step
    Held.agrees_step_iff ?_ ?_ ops
  · intro s hs
    cases hs
    exact Store.coherent_create n
  · exact (Store.agrees_iff (Store.coherent_create n) _).mpr ⟨Store.unfreed_create n, fun id => rfl⟩

/-- An id of 21 equal bytes. -/
def repeated (byte : UInt8) (h : byte ≠ 0) : Id :=
  ⟨Vector.replicate 21 byte, fun heq => h (congrArg (fun id : RawId => id[0]) heq)⟩

/-- In a store of one slot, a query for an unknown id frees the record of the known one, and the slot still points to it. -/
theorem query_frees_another :
    ¬ EveryState Held.step Held.Agrees (Held.start 0)
        [.update (repeated 0x11 (by decide)) none .accepted 5, .status (repeated 0x22 (by decide))] := by
  intro h
  obtain ⟨s, hs, hanswers⟩ := h.2.2
  have hanswer := hanswers (repeated 0x11 (by decide))
  cases hs
  exact absurd hanswer (by decide +kernel)

/-! ### What a connector sees -/

section Connector

open Ocpp (IdToken UidStore)

/-- The field of an id, zero behind its bytes. -/
def rawId (id : IdToken) : RawId :=
  ⟨(id.bytes ++ List.replicate (21 - id.bytes.length) 0).toArray, by have := id.fits; simp; omega⟩

/-- The id that a field holds up to its NUL. -/
def token (raw : RawId) : IdToken where
  bytes := (raw.toList.take 20).takeWhile (· ≠ 0)
  fits := Nat.le_trans (List.takeWhile_prefix _).length_le (List.length_take_le _ _)
  noNul := fun hmem => by simpa using List.mem_takeWhile_imp hmem

theorem token_rawId (id : IdToken) : token (rawId id) = id := by
  obtain ⟨bytes, hfits, hnoNul⟩ := id
  have hall : ∀ c ∈ bytes, decide (c ≠ 0) = true := fun c hc => decide_eq_true fun hzero => hnoNul (hzero ▸ hc)
  have htake : (bytes ++ List.replicate (21 - bytes.length) 0).take 20 =
      bytes ++ List.replicate (20 - bytes.length) 0 := by
    rw [List.take_append, List.take_of_length_le hfits, List.take_replicate]
    congr 2
    omega
  simp only [token, rawId, Vector.toList_mk, IdToken.mk.injEq, htake]
  rw [List.takeWhile_append_of_pos hall]
  cases 20 - bytes.length <;> simp [List.replicate_succ]

theorem rawId_injective {id id' : IdToken} (h : rawId id = rawId id') : id = id' := by
  rw [← token_rawId id, h, token_rawId]

theorem rawId_empty : rawId .empty = .zero := by decide

/-- An id of a card as the store takes it. -/
def cardId (id : IdToken) (h : id ≠ .empty) : Id :=
  ⟨rawId id, fun hzero => h (rawId_injective (hzero.trans rawId_empty.symm))⟩

/-- A map of the store as the connectors see it. -/
def Map.view (m : Map) : UidStore := fun id =>
  if h : id = .empty then none else (m (cardId id h)).map fun entry => ⟨token entry.pid, entry.status, entry.expiry⟩

/-- The calls of a connector and of the messages' handlers, all with the id of a card. -/
inductive CardCall where
  | status (id : IdToken) (h : id ≠ .empty)
  | update (id : IdToken) (h : id ≠ .empty) (pid : IdToken) (status : Ocpp.UidStatus) (expiry : Int)
  | clear

def CardCall.op : CardCall → Op
  | .status id h => .status (cardId id h)
  | .update id h pid uidStatus expiry => .update (cardId id h) (some (rawId pid)) uidStatus expiry
  | .clear => .clear

/-- What the call does to the store as the connectors see it. -/
def onView (store : UidStore) : CardCall → UidStore
  | .status .. => store
  | .update id _ pid status expiry => Ocpp.uidUpdate store id pid status expiry
  | .clear => fun _ => none

theorem view_apply (m : Map) (call : CardCall) : (m.apply call.op).view = onView m.view call := by
  cases call with
  | status id h => rfl
  | update id h pid status expiry =>
      funext other
      simp only [CardCall.op, Map.apply, Map.view, onView, Ocpp.uidUpdate]
      by_cases hother : other = id
      · subst hother
        rw [dif_neg h, if_pos rfl, Function.update_self, Option.map_some, Option.getD_some, token_rawId]
      · have hne : ∀ h', cardId other h' ≠ cardId id h := fun h' heq =>
          hother (rawId_injective (congrArg Id.bytes heq))
        rw [if_neg hother]
        split
        · rfl
        · rw [Function.update_of_ne (hne _)]
  | clear =>
      funext other
      simp only [CardCall.op, Map.apply, Map.view, onView]
      split <;> rfl

/-- What a caller reads of an answer, with the parent over a zeroed buffer. -/
def Answer.read (answer : Answer) : Ocpp.UidStatus × IdToken :=
  (answer.status, (answer.out.map fun out => token out.1).getD .empty)

theorem read_answer (m : Map) (id : IdToken) (h : id ≠ .empty) :
    (m.answer (cardId id h)).read = (Ocpp.uidStatus m.view id, Ocpp.uidParent m.view id) := by
  rw [Map.answer, Ocpp.uidStatus, Ocpp.uidParent, Map.view, dif_neg h]
  cases m (cardId id h) <;> rfl

theorem view_run {n : Nat} (t : Held n) (calls : List CardCall) :
    (run Held.step t (calls.map CardCall.op)).map.view = run onView t.map.view calls := by
  induction calls generalizing t with
  | nil => rfl
  | cons call calls ih =>
      rw [List.map_cons, run_cons, run_cons, ih, ← view_apply]
      rfl

/-- As long as every call is safe where it is made, a store that answers as a map does keeps on answering a connector as the store of its callers: the map it stands for, with every update written through. -/
theorem connector_store {n : Nat} {t : Held n} (hcoherent : ∀ s ∈ t.store, s.Coherent) (hagrees : t.Agrees)
    {calls : List CardCall} (hsafe : EveryStep Held.step Held.Safe t (calls.map CardCall.op)) :
    ∃ s ∈ (run Held.step t (calls.map CardCall.op)).store, ∀ id (h : id ≠ .empty),
      (s.uidStatus (cardId id h)).map (fun result => result.2.read) =
        some (Ocpp.uidStatus (run onView t.map.view calls) id, Ocpp.uidParent (run onView t.map.view calls) id) := by
  have hkept : ∀ (t : Held n) op, ((∀ s ∈ t.store, s.Coherent) ∧ t.Agrees) → t.Safe op →
      (∀ s ∈ (t.step op).store, s.Coherent) ∧ (t.step op).Agrees := fun t op h hop =>
    ⟨Held.coherent_step t op h.1, (Held.agrees_step_iff t op h.1 h.2).mpr hop⟩
  obtain ⟨-, s, hs, hanswers⟩ := run_conditional_invariant hkept ⟨hcoherent, hagrees⟩ hsafe
  refine ⟨s, hs, fun id h => ?_⟩
  have hanswer := congrArg (Option.map Answer.read) (hanswers (cardId id h))
  rw [Option.map_map, Option.map_some, read_answer, view_run] at hanswer
  exact hanswer

end Connector

end Evse.Uid
