import Evse.Uid

/-!
# The uid store when the file system fails

The calls of `uid.c` again, now with what the file system and the allocator make of each: a read may find no file or lose records, a write may fail and then leaves the file as it was, a new entry may get no memory. `uid_update` fills the cache entry before it writes the file, so an update that fails is in the cache all the same.
-/

namespace Evse.Uid.Faulty

open RecordFile StepRun

/-- What happens to a call: whether there is memory for an entry, whether the size of the file is found and the record in each place read, whether a write or an append succeeds, and which files can be deleted. -/
structure Io where
  memory : Bool
  size : Bool
  reads : Nat → Bool
  writes : Bool
  deletes : UInt8 → UInt8 → Bool

def Io.reliable : Io := ⟨true, true, fun _ => true, true, fun _ _ => true⟩

/-- 0, `-ENOMEM` and `-EIO`. -/
inductive Result where
  | ok | noMem | io
  deriving DecidableEq, Repr

variable {n : Nat} (io : Io) (s : Store n)

def readEntryFromFile (id : RawId) : Option (Nat × Record) :=
  if io.size then
    (List.range (s.file id).length).findSome? fun i =>
      if io.reads i then matchAt Record.id id (s.file id) i else none
  else none

/-- Nothing for a negative value, with the files as they were. -/
def saveEntryIntoFile (record : Record) : Option (Store n) :=
  match readEntryFromFile io s record.id with
  | some (offset, _) =>
      if io.writes then some (s.setFile record.id ((s.file record.id).set offset record)) else none
  | none => if io.writes then some (s.setFile record.id (s.file record.id ++ [record])) else none

def removeEntryFromFile (id : RawId) : Store n :=
  match readEntryFromFile io s id with
  | some (offset, _) => if io.writes then s.setFile id ((s.file id).set offset .blank) else s
  | none => s

/-- A miss in the cache, with the slot that is left if the file has no record either. -/
def loadEntry (h : Fin (n + 1)) (missed : Slot) (id : RawId) : Store n × Answer :=
  match readEntryFromFile io s id with
  | some (_, record) => (s.setSlot h (.live record), record.answer)
  | none => (s.setSlot h missed, .noEntry)

def uidStatus (id : RawId) : Option (Store n × Answer) :=
  let h := hashUid n id
  match s.cache h with
  | .freed => none
  | .live record => if record.id = id then some (s, record.answer) else some (loadEntry io s h .freed id)
  | .empty => if io.memory then some (loadEntry io s h .empty id) else some (s, .noEntry)

/-- The record that an update makes of an entry; without a pid the entry keeps its own. -/
def updated (entry : Record) (id : RawId) (pid : Option RawId) (status : Ocpp.UidStatus) (expiry : Int) : Record :=
  { id := id, pid := pid.getD entry.pid, status := status, expiry := expiry }

/-- The store after `uid_update`, what it returns, and whether it calls the callback, if one is registered. -/
def uidUpdate (registered : Bool) (id : RawId) (pid : Option RawId) (status : Ocpp.UidStatus) (expiry : Int) :
    Option (Store n × Result × Bool) :=
  let h := hashUid n id
  let update (entry : Record) : Store n × Result × Bool :=
    let record := updated entry id pid status expiry
    let s := s.setSlot h (.live record)
    match saveEntryIntoFile io s record with
    | none => (s, .io, false)
    | some s => (s, .ok, registered)
  match s.cache h with
  | .freed => none
  | .live entry => some (update entry)
  | .empty => if io.memory then some (update .blank) else some (s, .noMem, false)

def uidDelete (id : RawId) : Option (Store n) :=
  let h := hashUid n id
  match s.cache h with
  | .freed => none
  | .live entry =>
      let s := if entry.id = id then s.setSlot h .empty else s
      some (removeEntryFromFile io s id)
  | .empty => some (removeEntryFromFile io s id)

def uidClear : Option (Store n) :=
  if ∃ h, s.cache h = .freed then none
  else some ⟨fun _ => .empty, fun dir name => if io.deletes dir name then [] else s.files dir name⟩

/-! ### What later calls tell -/

/-- A call and what happens to it. -/
inductive Call where
  | status (io : Io) (id : RawId)
  | update (io : Io) (registered : Bool) (id : RawId) (pid : Option RawId) (status : Ocpp.UidStatus) (expiry : Int)
  | delete (io : Io) (id : RawId)
  | clear (io : Io)

/-- The store after a call, and the answer of `uid_status`. -/
def call : Call → Option (Store n × List Answer)
  | .status io id => (uidStatus io s id).map fun result => (result.1, [result.2])
  | .update io registered id pid status expiry =>
      (uidUpdate io s registered id pid status expiry).map fun result => (result.1, [])
  | .delete io id => (uidDelete io s id).map fun s => (s, [])
  | .clear io => (uidClear io s).map fun s => (s, [])

/-- What every `uid_status` among later calls answers, up to one whose outcome is undefined. -/
def answers : Store n → List Call → List (Option Answer)
  | _, [] => []
  | s, next :: later =>
      match call s next with
      | none => [none]
      | some (s, answer) => answer.map some ++ answers s later

/-- The slot of the id already holds what the update would put there. -/
def HoldsAlready (id : RawId) (pid : Option RawId) (status : Ocpp.UidStatus) (expiry : Int) : Prop :=
  ∃ entry, s.cache (hashUid n id) = .live entry ∧ entry = updated entry id pid status expiry

/-! ### With everything in order -/

theorem readEntryFromFile_reliable (id : RawId) : readEntryFromFile .reliable s id = s.readEntryFromFile id := by
  rw [Store.readEntryFromFile, locate_eq_findSome?]
  rfl

/-- These are the calls of the store's own module if nothing fails. -/
theorem uidStatus_reliable (id : Id) : uidStatus .reliable s id.bytes = s.uidStatus id := by
  have hload : ∀ h missed, loadEntry .reliable s h missed id.bytes = s.loadEntry h missed id.bytes := by
    intro h missed
    rw [loadEntry, readEntryFromFile_reliable]
    rfl
  simp only [uidStatus, Store.uidStatus, hload]
  rfl

theorem uidUpdate_reliable (registered : Bool) (id : Id) (pid : Option RawId) (status : Ocpp.UidStatus) (expiry : Int) :
    uidUpdate .reliable s registered id.bytes pid status expiry =
      (s.uidUpdate id pid status expiry).map fun s => (s, .ok, registered) := by
  have hsave : ∀ (s : Store n) (record : Record),
      saveEntryIntoFile .reliable s record = some (s.saveEntryIntoFile record) := by
    intro s record
    rw [saveEntryIntoFile, readEntryFromFile_reliable, Store.saveEntryIntoFile]
    cases s.readEntryFromFile record.id with
    | none => rfl
    | some found => rfl
  simp only [uidUpdate, Store.uidUpdate, hsave]
  cases s.cache (hashUid n id.bytes) with
  | empty => rfl
  | live entry => rfl
  | freed => rfl

/-! ### An update that fails -/

section Failed

variable {io s} {registered : Bool} {id : RawId} {pid : Option RawId} {status : Ocpp.UidStatus} {expiry : Int}
  {s' : Store n} {result : Result} {called : Bool}

/-- What is left of an update that fails: nothing without memory, and otherwise its record in the slot. -/
theorem failed_cases (h : uidUpdate io s registered id pid status expiry = some (s', result, called))
    (hfail : result ≠ .ok) :
    called = false ∧ ((s.cache (hashUid n id) = .empty ∧ io.memory = false ∧ s' = s) ∨
      ∃ entry, (s.cache (hashUid n id) = .live entry ∨
          s.cache (hashUid n id) = .empty ∧ io.memory = true ∧ entry = .blank) ∧
        s' = s.setSlot (hashUid n id) (.live (updated entry id pid status expiry))) := by
  have hupdate : ∀ entry : Record,
      (match saveEntryIntoFile io (s.setSlot (hashUid n id) (.live (updated entry id pid status expiry)))
          (updated entry id pid status expiry) with
        | none => (s.setSlot (hashUid n id) (.live (updated entry id pid status expiry)), Result.io, false)
        | some s => (s, .ok, registered)) = (s', result, called) →
      called = false ∧ s' = s.setSlot (hashUid n id) (.live (updated entry id pid status expiry)) := by
    intro entry heq
    split at heq
    · cases heq
      exact ⟨rfl, rfl⟩
    · cases heq
      exact absurd rfl hfail
  simp only [uidUpdate] at h
  split at h
  next => cases h
  next entry hslot =>
    obtain ⟨hcalled, hstore⟩ := hupdate entry (Option.some.inj h)
    exact ⟨hcalled, .inr ⟨entry, .inl hslot, hstore⟩⟩
  next hslot =>
    split at h
    next hmemory =>
      obtain ⟨hcalled, hstore⟩ := hupdate .blank (Option.some.inj h)
      exact ⟨hcalled, .inr ⟨.blank, .inr ⟨hslot, hmemory, rfl⟩, hstore⟩⟩
    next hmemory =>
      cases h
      exact ⟨rfl, .inl ⟨hslot, by simpa using hmemory, rfl⟩⟩

theorem answers_of_hit {entry : Record} (hslot : s.cache (hashUid n id) = .live entry) (hid : entry.id = id) :
    answers s [.status io id] = [some entry.answer] := by
  simp [answers, call, uidStatus, hslot, hid]

/-- The file of the id cannot be read. -/
def Io.unreadable : Io := { Io.reliable with size := false }

theorem answers_of_miss (hslot : s.cache (hashUid n id) = .empty ∨
    ∃ entry, s.cache (hashUid n id) = .live entry ∧ entry.id ≠ id) :
    answers s [.status .unreadable id] = [some .noEntry] := by
  have hload : ∀ missed, (loadEntry .unreadable s (hashUid n id) missed id).2 = .noEntry := fun _ => rfl
  obtain hslot | ⟨entry, hslot, hid⟩ := hslot
  · have hmemory : Io.unreadable.memory = true := rfl
    simp [answers, call, uidStatus, hslot, hload, hmemory]
  · simp [answers, call, uidStatus, hslot, hid, hload]

/-- An update that fails never calls the callback, but later calls can tell it from one that was not made unless there was no memory for it or the slot already held its record. -/
theorem failed_update_unnoticed_iff (h : uidUpdate io s registered id pid status expiry = some (s', result, called))
    (hfail : result ≠ .ok) :
    (called = false ∧ ∀ later, answers s' later = answers s later) ↔
      (s.cache (hashUid n id) = .empty ∧ io.memory = false) ∨ HoldsAlready s id pid status expiry := by
  obtain ⟨hcalled, ⟨hempty, hmemory, rfl⟩ | ⟨entry, hslot, rfl⟩⟩ := failed_cases h hfail
  · exact iff_of_true ⟨hcalled, fun _ => rfl⟩ (.inl ⟨hempty, hmemory⟩)
  · constructor
    · rintro ⟨-, hsame⟩
      -- The id is asked for while its file cannot be read, so that only the slot can answer.
      have hafter : answers (s.setSlot (hashUid n id) (.live (updated entry id pid status expiry)))
          [.status .unreadable id] = [some (updated entry id pid status expiry).answer] :=
        answers_of_hit (by simp [Store.setSlot]) rfl
      have hanswers := hafter.symm.trans (hsame [.status .unreadable id])
      obtain hslot | ⟨hslot, -, -⟩ := hslot
      · by_cases hid : entry.id = id
        · rw [answers_of_hit hslot hid] at hanswers
          refine .inr ⟨entry, hslot, ?_⟩
          obtain ⟨entryId, entryPid, entryExpiry, entryStatus⟩ := entry
          simp only [Record.answer, updated, List.cons.injEq, Option.some.injEq, Answer.mk.injEq, Prod.mk.injEq,
            and_true] at hanswers
          obtain ⟨hstatus, hpid, hexpiry⟩ := hanswers
          simp only [updated, Record.mk.injEq]
          exact ⟨hid, hpid.symm, hexpiry.symm, hstatus.symm⟩
        · rw [answers_of_miss (.inr ⟨entry, hslot, hid⟩)] at hanswers
          simp [Record.answer, Answer.noEntry] at hanswers
      · rw [answers_of_miss (.inl hslot)] at hanswers
        simp [Record.answer, Answer.noEntry] at hanswers
    · rintro (⟨hempty, hmemory⟩ | ⟨held, hheld, hsame⟩)
      · obtain hslot | ⟨-, hmemory', -⟩ := hslot
        · rw [hslot] at hempty
          cases hempty
        · rw [hmemory] at hmemory'
          cases hmemory'
      · obtain hslot | ⟨hslot, -, -⟩ := hslot
        · rw [hslot] at hheld
          cases hheld
          have hstore : s.setSlot (hashUid n id) (.live (updated entry id pid status expiry)) = s := by
            rw [← hsame, ← hslot, Store.setSlot, Function.update_eq_self]
          rw [hstore]
          exact ⟨hcalled, fun _ => rfl⟩
        · rw [hslot] at hheld
          cases hheld

/-- An id of ones. -/
def someId : RawId := Vector.replicate 21 1

/-- Everything works but the write. -/
def Io.unwritable : Io := { Io.reliable with writes := false }

/-- A new store whose only slot holds a record of the id. -/
def holding : Store 0 := (Store.create 0).setSlot (hashUid 0 someId) (.live ⟨someId, .zero, 60, .accepted⟩)

theorem failed_update_unnoticed :
    ∃ s' called, uidUpdate .unwritable holding true someId none .accepted 60 = some (s', .io, called) ∧
      called = false ∧ ∀ later, answers s' later = answers holding later := by
  have hslot : holding.cache (hashUid 0 someId) = .live ⟨someId, .zero, 60, .accepted⟩ := by
    simp [holding, Store.setSlot]
  have hfails : uidUpdate .unwritable holding true someId none .accepted 60 =
      some (holding.setSlot (hashUid 0 someId) (.live ⟨someId, .zero, 60, .accepted⟩), .io, false) := by
    rw [uidUpdate, hslot]
    rfl
  exact ⟨_, _, hfails, (failed_update_unnoticed_iff hfails (by decide)).2 (.inr ⟨_, hslot, rfl⟩)⟩

/-- A new store without files accepts an id for which `uid_update` has returned `-EIO`. -/
theorem failed_update_noticed :
    ∃ s' called, uidUpdate .unwritable (Store.create 0) true someId none .accepted 60 = some (s', .io, called) ∧
      answers s' [.status .reliable someId] = [some ⟨.accepted, some (.zero, 60)⟩] ∧
      answers (Store.create 0) [.status .reliable someId] = [some .noEntry] := by
  have hslot : ((Store.create 0).setSlot (hashUid 0 someId) (.live ⟨someId, .zero, 60, .accepted⟩)).cache
      (hashUid 0 someId) = .live ⟨someId, .zero, 60, .accepted⟩ := by
    simp [Store.setSlot]
  exact ⟨_, _, rfl, answers_of_hit hslot rfl, by decide +kernel⟩

end Failed

end Evse.Uid.Faulty
