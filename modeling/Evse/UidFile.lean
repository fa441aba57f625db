import Evse.Uid
import Evse.Lib.ByteBlock
import Evse.Lib.CString

/-!
# The files of the uid store

The records of an id as bytes in the file that its first two bytes name. Where the store's own module has a list of records, here is what the code does to the file: it reads one record after another up to the file's size, writes over the place it has found, blanks it, or appends. The bridge between the two is that a file is always a row of whole records.
-/

namespace Evse.UidFile

open CString RecordFile StepRun Uid

/-- `struct uid_record` in memory and in the file. -/
abbrev RawRecord := ByteBlock 54

/-- The field `id`, the first in the structure. -/
def RawRecord.id (record : RawRecord) : RawId := ⟨(record.slice 0 21).toArray, by
  simp [ByteBlock.slice, record.size]⟩

/-- Files by their path. -/
abbrev FileSystem := Text → Option (List UInt8)

namespace FileSystem

variable (fs : FileSystem) (path : Text)

def size : Option Nat := (fs path).map List.length

/-- The bytes that are read, possibly fewer than asked for. -/
def read (offset len : Nat) : List UInt8 := (((fs path).getD []).drop offset).take len

def write (offset : Nat) (data : List UInt8) : FileSystem :=
  Function.update fs path (some (ByteBlock.overwrite ((fs path).getD []) offset data))

def append (data : List UInt8) : FileSystem := Function.update fs path (some ((fs path).getD [] ++ data))

end FileSystem

/-- The conversion `%02X` of a byte. -/
def hexByte (byte : UInt8) : Text :=
  let digit (n : Nat) : UInt8 := if n < 10 then .ofNat (48 + n) else .ofNat (55 + n)
  [digit (byte.toNat / 16), digit (byte.toNat % 16)]

/-- `FILEPATH_MAXLEN + FILENAME_MAXLEN`. -/
def filepathSize : Nat := 16 + 16

variable (ns : Text)

def getFilename (id : RawId) : Text :=
  snprintfAt [] 0 filepathSize
    (ascii "uid" ++ ascii "/" ++ ns ++ ascii "/" ++ hexByte id.dir ++ ascii "/" ++ hexByte id.name ++ ascii ".bin")

/-- One turn of the loop of `read_entry_from_file`. -/
def readRecord (fs : FileSystem) (path : Text) (id : RawId) (i : Nat) : Option (Nat × RawRecord) :=
  let data := fs.read path (i * 54) 54
  if h : data.length = 54 then
    if RawRecord.id ⟨data, h⟩ = id then some (i * 54, ⟨data, h⟩) else none
  else none

/-- The id's record and its offset, or nothing for `-ENOENT`. -/
def readEntryFromFile (fs : FileSystem) (id : RawId) : Option (Nat × RawRecord) :=
  match fs.size (getFilename ns id) with
  | none => none
  | some filesize => (List.range (filesize / 54)).findSome? (readRecord fs (getFilename ns id) id)

def saveEntryIntoFile (fs : FileSystem) (record : RawRecord) : FileSystem :=
  match readEntryFromFile ns fs (RawRecord.id record) with
  | some (offset, _) => fs.write (getFilename ns (RawRecord.id record)) offset record.bytes
  | none => fs.append (getFilename ns (RawRecord.id record)) record.bytes

/-- The file system after the call, and whether there was an entry to remove. -/
def removeEntryFromFile (fs : FileSystem) (id : RawId) : FileSystem × Errno :=
  match readEntryFromFile ns fs id with
  | some (offset, _) => (fs.write (getFilename ns id) offset (ByteBlock.zero : RawRecord).bytes, .ok)
  | none => (fs, .noEnt)

/-- The calls that change files, for ids that are not all zero. -/
inductive Op where
  | save (record : RawRecord) (nonzero : RawRecord.id record ≠ .zero)
  | remove (id : Id)

def Op.id : Op → RawId
  | .save record _ => RawRecord.id record
  | .remove id => id.bytes

def step (fs : FileSystem) : Op → FileSystem
  | .save record _ => saveEntryIntoFile ns fs record
  | .remove id => (removeEntryFromFile ns fs id.bytes).1

/-- What is left of the record saved last for an id after another call. -/
def Op.keep (id : RawId) (last : Option RawRecord) : Op → Option RawRecord
  | .save record _ => if id = RawRecord.id record then some record else last
  | .remove removed => if id = removed.bytes then none else last

/-- The record saved last for an id and not removed since. -/
def lastSaved (id : RawId) (ops : List Op) : Option RawRecord := ops.foldl (Op.keep id) none

/-- The record in that place of a file begins with the id. -/
def Occupies (fs : FileSystem) (path : Text) (id : RawId) (i : Nat) : Prop := fs.read path (i * 54) 21 = id.toList

/-! ### Files as rows of records -/

/-- The files are rows of whole records. -/
def Rows (fs : FileSystem) (rows : Text → List RawRecord) : Prop :=
  ∀ path, (fs path).getD [] = ByteBlock.concat (rows path)

section Rows

variable {ns} {fs : FileSystem} {rows : Text → List RawRecord} (h : Rows fs rows)
include h

theorem length_of_rows (path : Text) : ((fs path).getD []).length = (rows path).length * 54 := by
  rw [h path, ByteBlock.length_concat]

theorem readRecord_eq (path : Text) (id : RawId) (i : Nat) :
    readRecord fs path id i =
      (matchAt RawRecord.id id (rows path) i).map fun found => (found.1 * 54, found.2) := by
  cases hrecord : (rows path)[i]? with
  | none =>
    have hend : (fs.read path (i * 54) 54).length ≠ 54 := by
      have hlength := length_of_rows h path
      have hi := List.getElem?_eq_none_iff.1 hrecord
      rw [FileSystem.read, List.length_take, List.length_drop, hlength]
      omega
    rw [readRecord, dif_neg hend, matchAt, hrecord]
    rfl
  | some record =>
    have hread : fs.read path (i * 54) 54 = record.bytes := by
      rw [FileSystem.read, h path]
      exact ByteBlock.slice_concat hrecord
    have hlength : (fs.read path (i * 54) 54).length = 54 := by rw [hread, record.size]
    have hblock : (⟨fs.read path (i * 54) 54, hlength⟩ : RawRecord) = record := ByteBlock.ext hread
    simp only [readRecord, dif_pos hlength, hblock, matchAt, hrecord, Option.bind_some]
    split_ifs <;> rfl

/-- The loop over the file finds what a search of the row finds. -/
theorem readEntryFromFile_eq (id : RawId) :
    readEntryFromFile ns fs id =
      (locate RawRecord.id id (rows (getFilename ns id))).map fun found => (found.1 * 54, found.2) := by
  have hlength := length_of_rows h (getFilename ns id)
  have hturns : readRecord fs (getFilename ns id) id =
      Option.map (fun found => (found.1 * 54, found.2)) ∘ matchAt RawRecord.id id (rows (getFilename ns id)) :=
    funext (readRecord_eq h (getFilename ns id) id)
  have hcount : (rows (getFilename ns id)).length * 54 / 54 = (rows (getFilename ns id)).length :=
    Nat.mul_div_cancel _ (by decide)
  rw [locate_eq_findSome?, List.map_findSome?, ← hturns, readEntryFromFile, FileSystem.size]
  cases hfile : fs (getFilename ns id) with
  | none =>
    rw [hfile, Option.getD_none, List.length_nil] at hlength
    have hempty : (rows (getFilename ns id)).length = 0 := by omega
    rw [hempty]
    rfl
  | some bytes =>
    rw [hfile, Option.getD_some] at hlength
    simp only [Option.map_some, hlength, hcount]

theorem rows_write {path : Text} {i : Nat} (hi : i < (rows path).length) (record : RawRecord) :
    Rows (fs.write path (i * 54) record.bytes) (Function.update rows path ((rows path).set i record)) := by
  intro path'
  by_cases hpath : path' = path
  · subst hpath
    rw [FileSystem.write, Function.update_self, Function.update_self, h path', Option.getD_some,
      ByteBlock.overwrite_concat hi]
  · rw [FileSystem.write, Function.update_of_ne hpath, Function.update_of_ne hpath, h path']

theorem rows_append (path : Text) (record : RawRecord) :
    Rows (fs.append path record.bytes) (Function.update rows path (rows path ++ [record])) := by
  intro path'
  by_cases hpath : path' = path
  · subst hpath
    rw [FileSystem.append, Function.update_self, Function.update_self, h path', Option.getD_some,
      ByteBlock.concat_append]
    simp [ByteBlock.concat]
  · rw [FileSystem.append, Function.update_of_ne hpath, Function.update_of_ne hpath, h path']

theorem rows_saveEntryIntoFile (record : RawRecord) :
    Rows (saveEntryIntoFile ns fs record)
      (Function.update rows (getFilename ns (RawRecord.id record))
        (save RawRecord.id record (rows (getFilename ns (RawRecord.id record))))) := by
  rw [saveEntryIntoFile, readEntryFromFile_eq h, save]
  cases hfound : locate RawRecord.id (RawRecord.id record) (rows (getFilename ns (RawRecord.id record))) with
  | none => exact rows_append h _ record
  | some found =>
    obtain ⟨hi, -⟩ := List.getElem?_eq_some_iff.1 (locate_getElem hfound).1
    exact rows_write h hi record

theorem rows_removeEntryFromFile (id : RawId) :
    Rows (removeEntryFromFile ns fs id).1
      (Function.update rows (getFilename ns id)
        (remove RawRecord.id ByteBlock.zero id (rows (getFilename ns id)))) := by
  rw [removeEntryFromFile, readEntryFromFile_eq h, remove]
  cases hfound : locate RawRecord.id id (rows (getFilename ns id)) with
  | none =>
    rw [Function.update_eq_self]
    exact h
  | some found =>
    obtain ⟨hi, -⟩ := List.getElem?_eq_some_iff.1 (locate_getElem hfound).1
    exact rows_write h hi ByteBlock.zero

end Rows

/-! ### The files as a map -/

theorem id_zero : RawRecord.id ByteBlock.zero = .zero := by decide

/-- The files hold one record for each id that has one, and these are the ones given. -/
def Keeps (fs : FileSystem) (saved : RawId → Option RawRecord) : Prop :=
  ∃ rows, Rows fs rows ∧ (∀ path, Distinct RawRecord.id ByteBlock.zero (rows path)) ∧
    ∀ id : Id, lookup RawRecord.id id.bytes (rows (getFilename ns id.bytes)) = saved id.bytes

variable {ns} {fs : FileSystem} {saved : RawId → Option RawRecord}

theorem read_of_keeps (h : Keeps ns fs saved) (id : Id) :
    (readEntryFromFile ns fs id.bytes).map Prod.snd = saved id.bytes := by
  obtain ⟨rows, hrows, -, hsaved⟩ := h
  rw [readEntryFromFile_eq hrows, ← hsaved id, lookup, Option.map_map]
  rfl

theorem keeps_step (h : Keeps ns fs saved) (op : Op) :
    Keeps ns (step ns fs op) fun id => Op.keep id (saved id) op := by
  obtain ⟨rows, hrows, hdistinct, hsaved⟩ := h
  cases op with
  | save record nonzero =>
    refine ⟨_, rows_saveEntryIntoFile hrows record, ?_, ?_⟩
    · intro path
      by_cases hpath : path = getFilename ns (RawRecord.id record)
      · subst hpath
        rw [Function.update_self]
        exact distinct_save (hdistinct _) record
      · rw [Function.update_of_ne hpath]
        exact hdistinct path
    · intro id
      simp only [Op.keep]
      by_cases hpath : getFilename ns id.bytes = getFilename ns (RawRecord.id record)
      · rw [hpath, Function.update_self, lookup_save, ← hsaved id, hpath]
      · have hne : id.bytes ≠ RawRecord.id record := fun heq => hpath (by rw [heq])
        rw [Function.update_of_ne hpath, if_neg hne, hsaved id]
  | remove removed =>
    refine ⟨_, rows_removeEntryFromFile hrows removed.bytes, ?_, ?_⟩
    · intro path
      by_cases hpath : path = getFilename ns removed.bytes
      · subst hpath
        rw [Function.update_self]
        exact distinct_remove (hdistinct _) removed.bytes
      · rw [Function.update_of_ne hpath]
        exact hdistinct path
    · intro id
      simp only [Op.keep]
      by_cases hpath : getFilename ns id.bytes = getFilename ns removed.bytes
      · have hblank : ∀ id : Id, id.bytes ≠ RawRecord.id ByteBlock.zero := fun id => id_zero ▸ id.nonzero
        rw [hpath, Function.update_self, lookup_remove (hdistinct _) (hblank removed) (hblank id), ← hsaved id,
          hpath]
      · have hne : id.bytes ≠ removed.bytes := fun heq => hpath (by rw [heq])
        rw [Function.update_of_ne hpath, if_neg hne, hsaved id]

theorem keeps_run (h : Keeps ns fs saved) (ops : List Op) :
    Keeps ns (run (step ns) fs ops) fun id => ops.foldl (Op.keep id) (saved id) := by
  induction ops generalizing fs saved with
  | nil => exact h
  | cons op ops ih => exact ih (keeps_step h op)

theorem keeps_empty : Keeps ns (fun _ => none) fun _ => none :=
  ⟨fun _ => [], fun _ => rfl, fun _ => .nil, fun _ => rfl⟩

/-- What occupies a place of a file is the record there. -/
theorem record_of_occupies {rows : Text → List RawRecord} (h : Rows fs rows) {path : Text} {id : RawId} {i : Nat}
    (hi : Occupies fs path id i) : ∃ hlt : i < (rows path).length, RawRecord.id (rows path)[i] = id := by
  have hlt : i < (rows path).length := by
    have hlength := congrArg List.length hi
    rw [FileSystem.read, List.length_take, List.length_drop, length_of_rows h, Vector.length_toList] at hlength
    omega
  have hread : fs.read path (i * 54) 21 = (rows path)[i].slice 0 21 := by
    have hslice := ByteBlock.slice_concat (List.getElem?_eq_getElem hlt)
    rw [FileSystem.read, h path, ByteBlock.slice, List.drop_zero, ← hslice, List.take_take, Nat.min_eq_left (by decide)]
  refine ⟨hlt, ?_⟩
  apply Vector.toList_inj.1
  exact hread.symm.trans hi

/-- An id is in one place of a file at most. -/
theorem occupies_unique (h : Keeps ns fs saved) {path : Text} {id : Id} {i j : Nat}
    (hi : Occupies fs path id.bytes i) (hj : Occupies fs path id.bytes j) : i = j := by
  obtain ⟨rows, hrows, hdistinct, -⟩ := h
  have hpairs := List.pairwise_iff_getElem.1 (hdistinct path)
  obtain ⟨hlti, hidi⟩ := record_of_occupies hrows hi
  obtain ⟨hltj, hidj⟩ := record_of_occupies hrows hj
  have hblank : ∀ record : RawRecord, RawRecord.id record = id.bytes →
      RawRecord.id record ≠ RawRecord.id ByteBlock.zero := fun record hid hzero =>
    id.nonzero (hid.symm.trans (hzero.trans id_zero))
  rcases Nat.lt_trichotomy i j with hlt | heq | hgt
  · exact absurd (hpairs i j hlti hltj hlt (hidi.trans hidj.symm)) (hblank _ hidi)
  · exact heq
  · exact absurd (hpairs j i hltj hlti hgt (hidj.trans hidi.symm)) (hblank _ hidj)

/-- A call leaves the records of other ids, and their places, as they are. -/
theorem readEntryFromFile_step (h : Keeps ns fs saved) (op : Op) {id : Id} (hne : id.bytes ≠ op.id) :
    readEntryFromFile ns (step ns fs op) id.bytes = readEntryFromFile ns fs id.bytes := by
  obtain ⟨rows, hrows, -, -⟩ := h
  rw [readEntryFromFile_eq hrows]
  cases op with
  | save record nonzero =>
    have hne' : id.bytes ≠ RawRecord.id record := hne
    rw [step, readEntryFromFile_eq (rows_saveEntryIntoFile hrows record)]
    by_cases hpath : getFilename ns id.bytes = getFilename ns (RawRecord.id record)
    · rw [hpath, Function.update_self, locate_save_of_ne hne']
    · rw [Function.update_of_ne hpath]
  | remove removed =>
    have hne' : id.bytes ≠ removed.bytes := hne
    rw [step, readEntryFromFile_eq (rows_removeEntryFromFile hrows removed.bytes)]
    by_cases hpath : getFilename ns id.bytes = getFilename ns removed.bytes
    · rw [hpath, Function.update_self, locate_remove_of_ne hne' (id_zero ▸ id.nonzero)]
    · rw [Function.update_of_ne hpath]

/-- After any calls on an empty file system: reading an id finds the record saved last and not removed since, or nothing; no id is in two places of a file; files are whole records; and a further call leaves every other id's record, and its place, as it was. -/
theorem files_are_map (ns : Text) (ops : List Op) :
    (∀ id : Id, (readEntryFromFile ns (run (step ns) (fun _ => none) ops) id.bytes).map Prod.snd =
      lastSaved id.bytes ops) ∧
    (∀ (path : Text) (id : Id) (i j : Nat), Occupies (run (step ns) (fun _ => none) ops) path id.bytes i →
      Occupies (run (step ns) (fun _ => none) ops) path id.bytes j → i = j) ∧
    (∀ path bytes, run (step ns) (fun _ => none) ops path = some bytes → 54 ∣ bytes.length) ∧
    ∀ (op : Op) (id : Id), id.bytes ≠ op.id →
      readEntryFromFile ns (step ns (run (step ns) (fun _ => none) ops) op) id.bytes =
        readEntryFromFile ns (run (step ns) (fun _ => none) ops) id.bytes := by
  have hkeeps : Keeps ns (run (step ns) (fun _ => none) ops) fun id => lastSaved id ops := keeps_run keeps_empty ops
  refine ⟨read_of_keeps hkeeps, fun _ _ _ _ => occupies_unique hkeeps, ?_, fun op _ => readEntryFromFile_step hkeeps op⟩
  intro path bytes hfile
  obtain ⟨rows, hrows, -⟩ := hkeeps
  have hlength := length_of_rows hrows path
  rw [hfile, Option.getD_some] at hlength
  rw [hlength]
  exact Nat.dvd_mul_left 54 _

end Evse.UidFile
