import Evse.Lib.Directory
import Evse.Lib.Printf
import Evse.Lib.RingBuffer
import Evse.Lib.Run
import Evse.Lib.SortedList
import Mathlib.Data.Int.Order.Basic

/-!
# The log store

`logfs.c` keeps one file for each timestamp in a directory of its own. Data is written to a cache first and flushed to the file of the cached timestamp when the cache is full, when another timestamp is written and on request. Before a flush the oldest logs are reclaimed until the number of logs and their total size leave room; the list of logs they are picked from is read from the directory when it is empty.

A log's file is named by its timestamp here: the base path with the timestamp behind it is taken to be shorter than `FS_FILENAME_MAX`, at which `get_filepath` would cut it. The last section says which timestamps that leaves: all of 64 bits under the base path of the firmware, and those of thirty thousand years under any. The file system fails appends as scripted, and without a script not at all; so does `malloc` fail the nodes of the list. What was reclaimed, what each flush found and left, and the logs whose entry got no memory are recorded beside the store.
-/

namespace Evse.Logfs

open StepRun CString

abbrev Time := Int
abbrev Byte := UInt8

def logfsMinCacheSize : Nat := 4096

def EFBIG : Int := 27
def ENOENT : Int := 2

/-- `struct file` of the list. -/
structure LogFile where
  timestamp : Time
  size : Nat
  deriving DecidableEq, Repr

structure Cache where
  buffer : RingBuffer Byte
  timestamp : Time

/-- The directory of the store, and which of the coming appends fail. -/
structure Fs where
  dir : Directory Time Byte
  appendFails : List Bool := []

/-- Which of the coming allocations of list nodes fail, and the logs whose last `add_list` got no memory. -/
structure Memory where
  fails : List Bool := []
  missed : List Time := []
  deriving DecidableEq

/-- One call of `flush_logcache`: its log and the number of bytes it was to append, the list it found, after the directory was read if need be, the list it reclaimed down to and the logs then missed in it, the list it left, the names and sizes in the directory then, and the logs missed in that list. -/
structure Flush where
  timestamp : Time
  appended : Nat
  found : List LogFile
  kept : List LogFile
  missed : List Time
  left : List LogFile
  files : List LogFile
  unlisted : List Time
  deriving DecidableEq

structure Logfs where
  fs : Fs
  maxSize : Nat
  maxLogs : Nat
  cache : Cache
  logList : List LogFile
  memory : Memory
  /-- The timestamps of the logs deleted to make room, in order. -/
  reclaimed : List Time
  flushes : List Flush

/-! ### The list and the files -/

section Files

variable (self : Logfs) (ts : Time)

/-- `add_list` and `add_list_sorted`. The node is allocated first, also for a log that is listed already. -/
def addList (logsize : Nat) : Logfs :=
  match self.memory.fails with
  | true :: fails => { self with memory := { fails := fails, missed := ts :: self.memory.missed } }
  | fails =>
      { self with
        logList := SortedList.insert LogFile.timestamp ⟨ts, logsize⟩ self.logList
        memory := { fails := fails.tail, missed := self.memory.missed.filter (· ≠ ts) } }

/-- The result of a failing `fs_append` is negative, of any other the number of bytes. -/
def fsAppend (fs : Fs) (data : List Byte) : Fs × Option Nat :=
  match fs.appendFails with
  | true :: rest => ({ fs with appendFails := rest }, none)
  | false :: rest => ({ dir := fs.dir.append ts data, appendFails := rest }, some data.length)
  | [] => ({ fs with dir := fs.dir.append ts data }, some data.length)

def fsSize : Option Nat := (self.fs.dir.find ts).map List.length

/-- A file that is not there cannot be deleted. -/
def deleteLog : Logfs × Int :=
  match self.fs.dir.find ts with
  | none => (self, -ENOENT)
  | some _ =>
      let removed := SortedList.remove LogFile.timestamp ts self.logList
      ({ self with
          fs.dir := self.fs.dir.delete ts
          logList := removed.1
          memory.missed := self.memory.missed.filter (· ≠ ts) },
        if removed.2 then 0 else -ENOENT)

def computeTotalSize (logs : List LogFile) : Nat := (logs.map LogFile.size).sum

/-- The names and sizes in the directory. -/
def fsDir (dir : Directory Time Byte) : List LogFile := dir.files.map fun file => ⟨file.1, file.2.length⟩

/-- `fs_dir` with `on_dir_scan`. -/
def scan : Logfs := (fsDir self.fs.dir).foldl (fun self file => addList self file.timestamp file.size) self

end Files

/-! ### Reclaiming -/

section Reclaim

variable (self : Logfs)

/-- A deletion to make room, recorded. -/
def reclaimLog (ts : Time) : Logfs :=
  { (deleteLog self ts).1 with reclaimed := self.reclaimed ++ [ts] }

/-- Delete the first log of the list, over and over. -/
def reclaimFirst : Nat → Logfs → Logfs
  | 0, self => self
  | n + 1, self =>
      match self.logList with
      | [] => self
      | file :: _ => reclaimFirst n (reclaimLog self file.timestamp)

def reclaimByCount (n : Nat) : Logfs :=
  if self.maxLogs = 0 ∨ self.logList.length + n ≤ self.maxLogs then self
  else reclaimFirst (self.logList.length + n - self.maxLogs) self

/-- The loop of `reclaim_by_size` over the list as it was when the loop began. -/
def reclaimUntil (bytesToAppend : Nat) : List LogFile → Logfs → Logfs
  | [], self => self
  | file :: rest, self =>
      let self := reclaimLog self file.timestamp
      if computeTotalSize self.logList + bytesToAppend ≤ self.maxSize then self
      else reclaimUntil bytesToAppend rest self

def reclaimBySize (bytesToAppend : Nat) : Logfs :=
  if self.maxSize = 0 ∨ computeTotalSize self.logList + bytesToAppend ≤ self.maxSize then self
  else reclaimUntil bytesToAppend self.logList self

def scanIfEmpty : Logfs := if self.logList.isEmpty then scan self else self

def reclaim (bytesToAppend : Nat) : Logfs :=
  let self := scanIfEmpty self
  let self := reclaimByCount self (if bytesToAppend = 0 then 0 else 1)
  reclaimBySize self bytesToAppend

end Reclaim

/-! ### Flushing and writing -/

section Flush

variable (ts : Time)

/-- The loop of `flush_logcache`, and whether it came to its end. A piece is what the ring buffer shows at once; each takes at least one byte away, so the length of the content is enough fuel. -/
def drain : Nat → Logfs → Logfs × Bool
  | 0, self => (self, true)
  | fuel + 1, self =>
      if self.cache.buffer.length = 0 then (self, true)
      else
        match fsAppend ts self.fs self.cache.buffer.contiguous with
        | (fs, none) => ({ self with fs := fs }, false)
        | (fs, some n) => drain fuel { self with fs := fs, cache.buffer := self.cache.buffer.consume n }

/-- The tail of `flush_logcache`, after its loop came to its end. -/
def listFlushed (self : Logfs) : Logfs :=
  match fsSize self ts with
  | some logsize => if logsize > 0 then addList self ts logsize else self
  | none => self

def flushCore (self : Logfs) (bytesToAppend : Nat) : Logfs :=
  let self := reclaim self bytesToAppend
  let (self, drained) := drain ts self.cache.buffer.length self
  if drained then listFlushed ts self else self

/-- `flush_logcache`, recorded. -/
def flushLogcache (self : Logfs) (bytesToAppend : Nat) : Logfs :=
  let after := flushCore ts self bytesToAppend
  { after with
    flushes := after.flushes ++
      [{ timestamp := ts
         appended := self.cache.buffer.length
         found := (scanIfEmpty self).logList
         kept := (reclaim self bytesToAppend).logList
         missed := (reclaim self bytesToAppend).memory.missed
         left := after.logList
         files := fsDir after.fs.dir
         unlisted := after.memory.missed }] }

end Flush

section Write

/-- `ringbuf_write`: as much as there is room for, and how much that was. -/
def ringbufWrite (self : Logfs) (data : List Byte) : Logfs × Nat :=
  ({ self with cache.buffer := self.cache.buffer.write data },
    min (self.cache.buffer.capacity - self.cache.buffer.length) data.length)

variable (timestamp : Time) (log : List Byte)

/-- The loop of `logfs_write`. The next piece is read from where the last piece was as long. -/
def writeLoop : Nat → Logfs → Nat → Nat → Logfs × Nat
  | 0, self, _, writtenTotal => (self, writtenTotal)
  | fuel + 1, self, written, writtenTotal =>
      if written ≠ 0 ∧ writtenTotal < log.length then
        let remain := log.length - writtenTotal
        let self := flushLogcache timestamp self (self.cache.buffer.capacity + remain)
        let (self, written) := ringbufWrite self ((log.drop written).take remain)
        writeLoop fuel self written (writtenTotal + written)
      else (self, writtenTotal)

/-- Another timestamp has the cache flushed to the file of the previous one. -/
def changeTimestamp (self : Logfs) : Logfs :=
  if timestamp ≠ self.cache.timestamp then
    { flushLogcache self.cache.timestamp self (self.cache.buffer.length + log.length) with
      cache.timestamp := timestamp }
  else self

def logfsWrite (self : Logfs) : Logfs × Int :=
  if log.length > self.maxSize then (self, -EFBIG)
  else
    let self := changeTimestamp timestamp log self
    let (self, written) := ringbufWrite self log
    let (self, writtenTotal) := writeLoop timestamp log (log.length + 1) self written written
    (self, writtenTotal)

end Write

def logfsFlush (self : Logfs) : Logfs :=
  flushLogcache self.cache.timestamp self self.cache.buffer.length

def logfsDelete (self : Logfs) (timestamp : Time) : Logfs × Int := deleteLog self timestamp

/-- The errors of the deletions are only collected. -/
def logfsClear (self : Logfs) : Logfs :=
  { self with
    fs.dir := self.logList.foldl (fun dir file => dir.delete file.timestamp) self.fs.dir
    logList := []
    memory.missed := self.memory.missed.filter (· ∉ self.logList.map LogFile.timestamp) }

def logfsCreate (fs : Fs) (maxSize maxLogs cacheSize : Nat) (mallocFails : List Bool := []) : Logfs where
  fs := fs
  maxSize := maxSize
  maxLogs := maxLogs
  cache := { buffer := RingBuffer.create (max cacheSize logfsMinCacheSize), timestamp := 0 }
  logList := []
  memory := { fails := mallocFails }
  reclaimed := []
  flushes := []

/-- The calls of the store's interface that change it. -/
inductive Op where
  | write (timestamp : Time) (log : List Byte)
  | flush
  | delete (timestamp : Time)
  | clear
  deriving DecidableEq, Repr

def step (self : Logfs) : Op → Logfs
  | .write timestamp log => (logfsWrite timestamp log self).1
  | .flush => logfsFlush self
  | .delete timestamp => (logfsDelete self timestamp).1
  | .clear => logfsClear self

/-! ### File names -/

def fsFilenameMax : Nat := 32
def lognameMaxlen : Nat := 14

/-- `logfs_create` takes no longer base path. -/
def basePathMaxlen : Nat := fsFilenameMax - lognameMaxlen - 1

/-- The path of a log, in a buffer of `FS_FILENAME_MAX + 1` bytes of which `snprintf` is given all but one. -/
def getFilepath (basedir : Text) (ts : Time) : Text := snprintfAt [] 0 fsFilenameMax (basedir ++ 47 :: printInt ts)

/-- The path is not cut off. -/
def PathFits (basedir : Text) (ts : Time) : Prop := basedir.length + 1 + (printInt ts).length < fsFilenameMax

theorem getFilepath_eq {basedir : Text} {ts : Time} (h : PathFits basedir ts) :
    getFilepath basedir ts = basedir ++ 47 :: printInt ts := by
  have hlength : (basedir ++ 47 :: printInt ts).length < fsFilenameMax := by
    rw [List.length_append, List.length_cons]
    unfold PathFits at h
    omega
  exact @snprintfAt_end [] _ _ hlength

/-- `on_dir_scan` reads the timestamp back from the name of the file. -/
theorem strtol_name {basedir : Text} {ts : Time} (h : PathFits basedir ts) (hlow : -2 ^ 63 ≤ ts) (hhigh : ts < 2 ^ 63) :
    strtol 64 ((getFilepath basedir ts).drop (basedir.length + 1)) = ts := by
  rw [getFilepath_eq h, ← List.drop_drop, List.drop_left, List.drop_one, List.tail_cons]
  exact strtol_printInt hlow hhigh

/-- No two logs have one file. -/
theorem getFilepath_inj {basedir : Text} {ts ts' : Time} (h : PathFits basedir ts) (h' : PathFits basedir ts')
    (heq : getFilepath basedir ts = getFilepath basedir ts') : ts = ts' := by
  rw [getFilepath_eq h, getFilepath_eq h'] at heq
  exact printInt_injective ((List.cons_inj_right 47).mp (List.append_cancel_left heq))

/-- A path is not cut off if there is room for a sign and all digits of the timestamp. -/
theorem pathFits_of_lt {basedir : Text} {ts : Time} {k : Nat} (hk : 0 < k) (h : ts.natAbs < 10 ^ k)
    (hbase : basedir.length + k + 2 < fsFilenameMax) : PathFits basedir ts := by
  have hdigits := length_printNat_le hk h
  have hsign : (printSign (ts < 0)).length ≤ 1 := by
    unfold printSign
    split <;> simp
  rw [PathFits, printInt, List.length_append]
  omega

/-- Whatever base path the store is created with, the logs of thirty thousand years have files of their own. -/
theorem pathFits_of_create {basedir : Text} (hbase : basedir.length ≤ basePathMaxlen) {ts : Time}
    (h : ts.natAbs < 10 ^ 12) : PathFits basedir ts := by
  refine pathFits_of_lt (by decide) h ?_
  have hmax : basePathMaxlen + 12 + 2 < fsFilenameMax := by decide
  omega

/-- And under the base path of the firmware all 64-bit timestamps have. -/
theorem pathFits_logfs {ts : Time} (h : ts.natAbs ≤ 2 ^ 63) : PathFits (ascii "logfs") ts :=
  pathFits_of_lt (k := 19) (by decide) (Nat.lt_of_le_of_lt h (by decide)) (by decide)

end Evse.Logfs
