import Evse.Fs.Contents
import Evse.Fs.Retention

/-!
# Appending to a log that is there

Whatever the limits, zero included, the list follows the directory once it has been read, as far as there is memory for it. The reclaim in front of a flush counts one log more than the list has whenever bytes are to be appended, whether or not their log is listed already; so a store that is at its limit of logs deletes one to append to another, or deletes the log it appends to. Below that limit an append deletes nothing as long as the sizes leave room.
-/

namespace Evse.Logfs

open StepRun

/-- The list is the directory but for the logs missed, or has not been read from it. -/
structure Tracks (s : Logfs) : Prop where
  reliable : Reliable s
  listed : s.logList = [] ∨ Listed s

/-- The cache does not matter. -/
theorem Tracks.cache {s : Logfs} (h : Tracks s) (cache : Cache) : Tracks { s with cache := cache } :=
  ⟨h.reliable, h.listed⟩

/-- The timestamps of the listed logs. -/
def listed (s : Logfs) : List Time := s.logList.map LogFile.timestamp

theorem Lists.mem_timestamps {list : List LogFile} {dir : Directory Time Byte} (h : Lists list dir) (t : Time) :
    t ∈ list.map LogFile.timestamp ↔ dir.find t ≠ none := by
  rw [List.mem_map]
  constructor
  · rintro ⟨file, hfile, rfl⟩ hnone
    have hfind := mem_fsDir.1 ((h.2 file).1 hfile)
    rw [hnone] at hfind
    cases hfind
  · intro hfind
    obtain ⟨content, hcontent⟩ := Option.ne_none_iff_exists'.1 hfind
    exact ⟨⟨t, content.length⟩, (h.2 _).2 (mem_fsDir.2 (by rw [hcontent]; rfl)), rfl⟩

/-! ### Reclaiming nothing -/

section Reclaim

variable {s : Logfs} {bytesToAppend : Nat}

theorem scanIfEmpty_of_listed {t : Time} (h : t ∈ listed s) : scanIfEmpty s = s := by
  unfold scanIfEmpty
  split
  · rename_i hempty
    rw [listed, List.isEmpty_iff.1 hempty] at h
    cases h
  · rfl

/-- Nothing is reclaimed where the limits, if any, leave room for one more log and for the bytes. -/
theorem reclaim_eq_scanIfEmpty
    (hlogs : s.maxLogs = 0 ∨ (scanIfEmpty s).logList.length + (if bytesToAppend = 0 then 0 else 1) ≤ s.maxLogs)
    (hsize : s.maxSize = 0 ∨ computeTotalSize (scanIfEmpty s).logList + bytesToAppend ≤ s.maxSize) :
    reclaim s bytesToAppend = scanIfEmpty s := by
  have hscan := (steps_scanIfEmpty s).reclaims
  rw [← hscan.maxLogs] at hlogs
  rw [← hscan.maxSize] at hsize
  rw [reclaim, reclaimByCount, if_pos hlogs, reclaimBySize, if_pos hsize]

/-- At the limit of logs a reclaim for bytes deletes one at least. -/
theorem reclaim_of_full {t : Time} (h : t ∈ listed s) (hlogs : s.maxLogs ≠ 0) (hfull : s.maxLogs ≤ s.logList.length)
    (hbytes : bytesToAppend ≠ 0) : s.reclaimed.length < (reclaim s bytesToAppend).reclaimed.length := by
  obtain ⟨file, rest, hlist⟩ : ∃ file rest, s.logList = file :: rest := by
    cases hcases : s.logList with
    | nil =>
        rw [listed, hcases] at h
        cases h
    | cons file rest => exact ⟨file, rest, rfl⟩
  obtain ⟨n, hn⟩ : ∃ n, s.logList.length + 1 - s.maxLogs = n + 1 := ⟨s.logList.length - s.maxLogs, by omega⟩
  have hcount : reclaimByCount s 1 = reclaimFirst n (reclaimLog s file.timestamp) := by
    rw [reclaimByCount, if_neg (by omega), hn, reclaimFirst, hlist]
  have hreclaim : reclaim s bytesToAppend =
      reclaimBySize (reclaimFirst n (reclaimLog s file.timestamp)) bytesToAppend := by
    rw [reclaim, scanIfEmpty_of_listed h, if_neg hbytes, hcount]
  have hrest : ReclaimSteps (reclaimLog s file.timestamp) _ :=
    (steps_reclaimFirst n _).trans (steps_reclaimBySize _ bytesToAppend)
  obtain ⟨deleted, hdeleted, -⟩ := hrest.reclaims.deleted
  have hfirst : (reclaimLog s file.timestamp).reclaimed = s.reclaimed ++ [file.timestamp] := rfl
  rw [hreclaim, hdeleted, hfirst, List.length_append, List.length_append, List.length_singleton]
  omega

end Reclaim

/-! ### Flushing -/

/-- What a flush leaves, from what the reclaim in front of it left. -/
structure Appended (ts : Time) (data : List Byte) (kept s' : Logfs) : Prop where
  find : ∀ t, s'.fs.dir.find t = if t = ts ∧ data ≠ [] then some (stored kept ts ++ data) else kept.fs.dir.find t
  follows : Listed s'
  length : Plenty kept → s'.logList.length ≤ kept.logList.length + if data = [] then 0 else 1
  grown : ts ∈ listed kept → s'.logList.length = kept.logList.length
  total : Plenty kept → computeTotalSize s'.logList = computeTotalSize kept.logList + data.length
  reclaimed : s'.reclaimed = kept.reclaimed

theorem appended_flushLogcache {s : Logfs} (h : Tracks s) (ts : Time) (bytesToAppend : Nat) :
    Appended ts s.cache.buffer.content (reclaim s bytesToAppend) (flushLogcache ts s bytesToAppend) := by
  obtain ⟨d, hdrained, hlist, hmemory, hdir, hreclaimed, -⟩ := flushLogcache_recorded h.reliable ts bytesToAppend
  have hkept := (drops_reclaim h.listed bytesToAppend).listed
  have hcache := (steps_reclaim s bytesToAppend).reclaims.cache
  have hfind := hdrained.find
  have hmissed : Plenty (reclaim s bytesToAppend) → ts ∉ (reclaim s bytesToAppend).memory.missed := by
    intro hplenty
    rw [hplenty.2]
    exact List.not_mem_nil
  rw [hcache] at hfind
  constructor
  · rw [hdir]
    exact hfind
  · unfold Listed
    rw [hlist, hmemory, hdir]
    exact listed_listFlushed hdrained hkept
  · intro hplenty
    rw [hlist]
    by_cases hempty : s.cache.buffer.content = []
    · rw [if_pos hempty, length_listFlushed_of_nothing hdrained hkept (hmissed hplenty) (by rw [hcache]; exact hempty)]
      exact Nat.le_refl _
    · rw [if_neg hempty]
      exact length_listFlushed_le hdrained hkept.sorted
  · intro hmem
    rw [hlist]
    exact length_listFlushed_of_listed hdrained hkept.sorted hmem
  · intro hplenty
    obtain hsum | ⟨hfails, -⟩ := total_listFlushed hdrained hkept (hmissed hplenty)
    · rw [hlist, hsum, hcache]
    · exact absurd hfails hplenty.head
  · exact hreclaimed

theorem tracks_flushLogcache {s : Logfs} (h : Tracks s) (ts : Time) (bytesToAppend : Nat) :
    Tracks (flushLogcache ts s bytesToAppend) where
  reliable := (flushed_flushLogcache h.reliable ts bytesToAppend).reliable h.reliable
  listed := .inr (appended_flushLogcache h ts bytesToAppend).follows

theorem tracks_logfsDelete {s : Logfs} (h : Tracks s) (ts : Time) : Tracks (logfsDelete s ts).1 := by
  constructor
  · obtain ⟨dir, list, missed, hframe⟩ := logfsDelete_frame s ts
    rw [hframe]
    exact h.reliable
  · refine h.listed.imp (fun hempty => ?_) fun hlisted => listed_logfsDelete hlisted ts
    have hsublist := sublist_logfsDelete s ts
    rwa [hempty, List.sublist_nil] at hsublist

theorem tracks_logfsClear {s : Logfs} (h : Tracks s) : Tracks (logfsClear s) := ⟨h.reliable, .inl rfl⟩

theorem preserved_tracks : Preserved Tracks fun _ => True where
  reliable := fun h => h.reliable
  flush := fun h _ => tracks_flushLogcache h _ _
  timestamp := fun h _ _ => h.cache _
  write := fun h _ => h.cache _
  delete := fun h => tracks_logfsDelete h _
  clear := fun h => tracks_logfsClear h

theorem tracks_run {fs : Fs} (hreliable : fs.appendFails = []) (maxSize maxLogs cacheSize : Nat) (mallocFails : List Bool)
    (ops : List Op) : Tracks (run step (logfsCreate fs maxSize maxLogs cacheSize mallocFails) ops) := by
  have hstart : Tracks (logfsCreate fs maxSize maxLogs cacheSize mallocFails) := ⟨hreliable, .inl rfl⟩
  have hstep : ∀ (s : Logfs) (op : Op), Tracks s → Tracks (step s op) :=
    fun _ _ h => preserved_tracks.step h fun _ _ _ => trivial
  exact run_invariant hstep hstart ops

/-! ### The number of listed logs -/

/-- A store with a limit of logs between two calls. -/
structure Counted (maxLogs : Nat) (s : Logfs) : Prop where
  tracks : Tracks s
  plenty : Plenty s
  limit : s.maxLogs = maxLogs
  length : s.logList.length ≤ maxLogs

theorem counted_flushLogcache {maxLogs : Nat} (hlogs : maxLogs ≠ 0) {s : Logfs} (h : Counted maxLogs s) (ts : Time)
    {bytesToAppend : Nat} (hbytes : s.cache.buffer.content.length ≤ bytesToAppend) :
    Counted maxLogs (flushLogcache ts s bytesToAppend) := by
  have hflushed := flushed_flushLogcache h.tracks.reliable ts bytesToAppend
  refine ⟨tracks_flushLogcache h.tracks ts bytesToAppend, hflushed.plenty h.plenty, hflushed.maxLogs.trans h.limit, ?_⟩
  have hlength := (appended_flushLogcache h.tracks ts bytesToAppend).length
    ((steps_reclaim s bytesToAppend).reclaims.plenty h.plenty)
  have hroom := length_reclaim h.tracks.listed bytesToAppend (by rwa [h.limit])
  rw [h.limit] at hroom
  -- A log is entered only with bytes, and then one was counted in advance.
  by_cases hempty : s.cache.buffer.content = []
  · rw [if_pos hempty] at hlength
    omega
  · have hpos := List.length_pos_iff.2 hempty
    rw [if_neg hempty] at hlength
    rw [if_neg (by omega)] at hroom
    omega

theorem counted_step {maxLogs : Nat} (hlogs : maxLogs ≠ 0) {s : Logfs} (op : Op) (h : Counted maxLogs s) :
    Counted maxLogs (step s op) := by
  have hpreserved : Preserved (Counted maxLogs) fun _ => True :=
    { reliable := fun h => h.tracks.reliable
      flush := fun h hbytes => counted_flushLogcache hlogs h _ hbytes
      timestamp := fun h _ _ => ⟨h.tracks.cache _, h.plenty, h.limit, h.length⟩
      write := fun h _ => ⟨h.tracks.cache _, h.plenty, h.limit, h.length⟩
      delete := fun {s ts} h => by
        refine ⟨tracks_logfsDelete h.tracks ts, plenty_deleteLog h.plenty ts, ?_,
          Nat.le_trans (sublist_logfsDelete s ts).length_le h.length⟩
        obtain ⟨dir, list, missed, hframe⟩ := logfsDelete_frame s ts
        rw [hframe]
        exact h.limit
      clear := fun h => ⟨tracks_logfsClear h.tracks, plenty_logfsClear h.plenty, h.limit, Nat.zero_le maxLogs⟩ }
  exact hpreserved.step h fun _ _ _ => trivial

theorem counted_run {fs : Fs} (hreliable : fs.appendFails = []) {maxLogs : Nat} (hlogs : maxLogs ≠ 0)
    (maxSize cacheSize : Nat) (ops : List Op) :
    Counted maxLogs (run step (logfsCreate fs maxSize maxLogs cacheSize) ops) := by
  have hstart : Counted maxLogs (logfsCreate fs maxSize maxLogs cacheSize) :=
    ⟨⟨hreliable, .inl rfl⟩, ⟨List.not_mem_nil, rfl⟩, rfl, Nat.zero_le maxLogs⟩
  exact run_invariant (fun _ op h => counted_step hlogs op h) hstart ops

/-! ### Appends -/

/-- The bytes a call writes. -/
def Op.bytes : Op → List Byte
  | .write _ log => log
  | .flush | .delete _ | .clear => []

/-- A write to the timestamp, or a flush. -/
def Op.LogsTo (ts : Time) : Op → Prop
  | .write timestamp _ => timestamp = ts
  | .flush => True
  | .delete _ | .clear => False

/-- A write or flush to a listed log that is the cached one, with room for the bytes of all logs, of the cache and of the call. -/
structure Appends (s : Logfs) (op : Op) : Prop where
  cached : op.LogsTo s.cache.timestamp
  listed : s.cache.timestamp ∈ listed s
  size : computeTotalSize s.logList + s.cache.buffer.length + op.bytes.length ≤ s.maxSize

/-- The call has bytes to append to the file: a flush of what is cached, or a write that the cache has room for a part of. -/
def FlushesBytes (s : Logfs) : Op → Prop
  | .write timestamp log => 0 < room s timestamp ∧ room s timestamp < log.length
  | .flush => s.cache.buffer.content ≠ []
  | .delete _ | .clear => False

instance (ts : Time) : DecidablePred (Op.LogsTo ts)
  | .write timestamp _ => inferInstanceAs (Decidable (timestamp = ts))
  | .flush => isTrue trivial
  | .delete _ | .clear => isFalse id

section Append

variable {s : Logfs} {ts : Time} (h : Tracks s) (hplenty : Plenty s) (hlisted : ts ∈ listed s)

include h hplenty hlisted

/-- With room under both limits a flush to a listed log leaves every log in place. -/
theorem appended_in_place {bytesToAppend : Nat}
    (hlogs : s.logList.length + (if bytesToAppend = 0 then 0 else 1) ≤ s.maxLogs)
    (hsize : computeTotalSize s.logList + bytesToAppend ≤ s.maxSize) :
    Appended ts s.cache.buffer.content s (flushLogcache ts s bytesToAppend) ∧
      ts ∈ listed (flushLogcache ts s bytesToAppend) := by
  have hscan := scanIfEmpty_of_listed hlisted
  have hreclaim : reclaim s bytesToAppend = s := by
    rw [reclaim_eq_scanIfEmpty (.inr (by rwa [hscan])) (.inr (by rwa [hscan])), hscan]
  have happended := appended_flushLogcache h ts bytesToAppend
  rw [hreclaim] at happended
  refine ⟨happended, ?_⟩
  have hlists : Lists s.logList s.fs.dir := by
    refine (h.listed.resolve_left fun hempty => ?_).lists hplenty
    rw [listed, hempty] at hlisted
    cases hlisted
  have hplenty' := (flushed_flushLogcache h.reliable ts bytesToAppend).plenty hplenty
  rw [listed, (happended.follows.lists hplenty').mem_timestamps, happended.find]
  split
  · exact Option.some_ne_none _
  · exact (hlists.mem_timestamps ts).1 hlisted

end Append

/-- A write in the middle: the cache is full, and there is room for it and for what remains to be written. -/
structure Spilling (ts : Time) (remain : Nat) (s : Logfs) : Prop where
  tracks : Tracks s
  plenty : Plenty s
  listed : ts ∈ listed s
  room : s.logList.length < s.maxLogs
  full : s.cache.buffer.content.length = s.cache.buffer.capacity
  size : computeTotalSize s.logList + (s.cache.buffer.capacity + remain) ≤ s.maxSize

/-- A turn moves a cacheful from the cache to the listed log, and as much from what remains to the cache. -/
theorem spilling_turn {s : Logfs} {ts : Time} {piece : List Byte} (h : Spilling ts piece.length s) :
    (ringbufWrite (flushLogcache ts s (s.cache.buffer.capacity + piece.length)) piece).2 =
        min s.cache.buffer.capacity piece.length ∧
      (ringbufWrite (flushLogcache ts s (s.cache.buffer.capacity + piece.length)) piece).1.reclaimed = s.reclaimed ∧
      (s.cache.buffer.capacity < piece.length →
        Spilling ts (piece.length - s.cache.buffer.capacity)
          (ringbufWrite (flushLogcache ts s (s.cache.buffer.capacity + piece.length)) piece).1) := by
  have hlogs : s.logList.length + (if s.cache.buffer.capacity + piece.length = 0 then 0 else 1) ≤ s.maxLogs := by
    have hroom := h.room
    split <;> omega
  obtain ⟨happended, hlisted⟩ := appended_in_place h.tracks h.plenty h.listed hlogs h.size
  have htracks := tracks_flushLogcache h.tracks ts (s.cache.buffer.capacity + piece.length)
  have hflushed := flushed_flushLogcache h.tracks.reliable ts (s.cache.buffer.capacity + piece.length)
  have hplenty := hflushed.plenty h.plenty
  have hmaxLogs := hflushed.maxLogs
  have hmaxSize := hflushed.maxSize
  generalize flushLogcache ts s (s.cache.buffer.capacity + piece.length) = s'
    at happended hlisted htracks hflushed hplenty hmaxLogs hmaxSize
  have htaken : (ringbufWrite s' piece).2 = min s.cache.buffer.capacity piece.length := by
    show min (s'.cache.buffer.capacity - s'.cache.buffer.content.length) piece.length = _
    rw [hflushed.content, hflushed.capacity]
    rfl
  refine ⟨htaken, happended.reclaimed, fun hmore => ?_⟩
  have hsize := h.size
  have hroom := h.room
  have htotal := happended.total h.plenty
  have hgrown := happended.grown h.listed
  rw [h.full] at htotal
  refine ⟨htracks.cache _, hplenty, hlisted, ?_, ?_, ?_⟩
  · show s'.logList.length < s'.maxLogs
    omega
  · show (s'.cache.buffer.content ++ piece.take _).length = s'.cache.buffer.capacity
    rw [hflushed.content, hflushed.capacity, List.nil_append, List.length_take, List.length_nil]
    omega
  · show computeTotalSize s'.logList + (s'.cache.buffer.capacity + _) ≤ s'.maxSize
    rw [hflushed.capacity]
    omega

theorem reclaimed_writeLoop {ts : Time} {log : List Byte} (fuel : Nat) {s : Logfs} {written writtenTotal : Nat}
    (hwritten : written ≤ writtenTotal) (h : Spilling ts (log.length - writtenTotal) s) :
    (writeLoop ts log fuel s written writtenTotal).1.reclaimed = s.reclaimed := by
  induction fuel generalizing s written writtenTotal with
  | zero => rfl
  | succ fuel ih =>
      by_cases hcontinues : written ≠ 0 ∧ writtenTotal < log.length
      · rw [writeLoop_turn ts hcontinues.1 hcontinues.2]
        have hremain : ((log.drop written).take (log.length - writtenTotal)).length = log.length - writtenTotal := by
          rw [List.length_take, List.length_drop]
          omega
        generalize (log.drop written).take (log.length - writtenTotal) = piece at hremain
        rw [← hremain] at h ⊢
        obtain ⟨htaken, hreclaimed, hnext⟩ := spilling_turn h
        rw [htaken, ← hreclaimed]
        by_cases hmore : s.cache.buffer.capacity < piece.length
        · rw [Nat.min_eq_left (Nat.le_of_lt hmore)]
          have hrest : log.length - (writtenTotal + s.cache.buffer.capacity) =
              piece.length - s.cache.buffer.capacity := by omega
          exact ih (Nat.le_add_left _ _) (hrest ▸ hnext hmore)
        · -- The cache takes all the rest.
          have hall : writtenTotal + min s.cache.buffer.capacity piece.length = log.length := by omega
          rw [hall, writeLoop_done]
      · rw [writeLoop, if_neg hcontinues]

/-! ### What is deleted -/

/-- A property of what no call but a flush changes. -/
theorem preserved_of_flushed {Q : Logfs → Prop}
    (hsame : ∀ s dir list memory cache, Q s →
      Q { s with fs.dir := dir, logList := list, memory := memory, cache := cache })
    (hflush : ∀ {ts s s'}, Flushed ts s s' → Q s → Q s') : Preserved (fun s => Reliable s ∧ Q s) fun _ => True where
  reliable := And.left
  flush := fun {s bytesToAppend} h _ => by
    have hflushed := flushed_flushLogcache h.1 s.cache.timestamp bytesToAppend
    exact ⟨hflushed.reliable h.1, hflush hflushed h.2⟩
  timestamp := fun h _ _ => ⟨h.1, hsame _ _ _ _ _ h.2⟩
  write := fun h _ => ⟨h.1, hsame _ _ _ _ _ h.2⟩
  delete := fun {s ts} h => by
    obtain ⟨dir, list, missed, hframe⟩ := logfsDelete_frame s ts
    rw [hframe]
    exact ⟨h.1, hsame s dir list _ s.cache h.2⟩
  clear := fun {s} h => ⟨h.1, hsame s _ _ _ s.cache h.2⟩

/-- What has been reclaimed stays recorded. -/
theorem preserved_reclaimed (n : Nat) :
    Preserved (fun s => Reliable s ∧ n ≤ s.reclaimed.length) fun _ => True := by
  refine preserved_of_flushed (fun _ _ _ _ _ h => h) fun hflushed h => ?_
  obtain ⟨deleted, hdeleted, -⟩ := hflushed.stored
  rw [hdeleted, List.length_append]
  exact Nat.le_add_right_of_le h

section Deletion

variable {maxLogs : Nat} (hlogs : maxLogs ≠ 0) {s : Logfs} (h : Counted maxLogs s)

include hlogs h

/-- At the limit of logs a flush for bytes deletes. -/
theorem flush_deletes {ts : Time} (hlisted : ts ∈ listed s) (hfull : ¬ s.logList.length < maxLogs)
    {bytesToAppend : Nat} (hbytes : bytesToAppend ≠ 0) :
    s.reclaimed.length < (flushLogcache ts s bytesToAppend).reclaimed.length := by
  rw [(appended_flushLogcache h.tracks ts bytesToAppend).reclaimed]
  have hlimit := h.limit
  exact reclaim_of_full hlisted (by omega) (by omega) hbytes

/-- So does the loop of a write that spills over. -/
theorem writeLoop_deletes (hlisted : s.cache.timestamp ∈ listed s) (hfull : ¬ s.logList.length < maxLogs)
    {log : List Byte} {written : Nat} (hsome : 0 < written) (hspills : written < log.length) (fuel : Nat) :
    s.reclaimed.length < (writeLoop s.cache.timestamp log (fuel + 1) s written written).1.reclaimed.length := by
  have hbytes : s.cache.buffer.capacity + (log.length - written) ≠ 0 := by omega
  have hdeletes := flush_deletes hlogs h hlisted hfull hbytes
  have hflushed := flushed_flushLogcache h.tracks.reliable s.cache.timestamp
    (s.cache.buffer.capacity + (log.length - written))
  rw [writeLoop_turn s.cache.timestamp (Nat.ne_of_gt hsome) hspills]
  generalize flushLogcache s.cache.timestamp s (s.cache.buffer.capacity + (log.length - written)) = s'
    at hdeletes hflushed
  generalize (log.drop written).take (log.length - written) = piece
  have hreliable : Reliable (ringbufWrite s' piece).1 := hflushed.reliable h.tracks.reliable
  have hgrows := (preserved_reclaimed s'.reclaimed.length).writeLoop ⟨hreliable, Nat.le_refl _⟩ hflushed.timestamp trivial
    log fuel (ringbufWrite s' piece).2 (written + (ringbufWrite s' piece).2)
  exact Nat.lt_of_lt_of_le hdeletes hgrows.2

theorem reclaimed_flush_iff (hop : Appends s .flush) :
    (logfsFlush s).reclaimed = s.reclaimed ↔ ¬ FlushesBytes s .flush ∨ s.logList.length < maxLogs := by
  constructor
  · intro hsame
    by_contra hnot
    obtain ⟨hbytes, hfull⟩ := not_or.1 hnot
    have hne : s.cache.buffer.content ≠ [] := not_not.1 hbytes
    have hdeletes := flush_deletes hlogs h hop.listed hfull (List.length_eq_zero_iff.not.2 hne)
    rw [← hsame] at hdeletes
    exact Nat.lt_irrefl _ hdeletes
  · intro hwhen
    have hcount : s.logList.length + (if s.cache.buffer.length = 0 then 0 else 1) ≤ s.maxLogs := by
      have hlength := h.length
      rw [h.limit]
      cases hwhen with
      | inl hnone =>
          have hempty : s.cache.buffer.length = 0 := List.length_eq_zero_iff.2 (not_not.1 hnone)
          rw [if_pos hempty]
          exact hlength
      | inr hroom => split <;> omega
    exact (appended_in_place h.tracks h.plenty hop.listed hcount hop.size).1.reclaimed

theorem reclaimed_write_iff {ts : Time} {log : List Byte} (hop : Appends s (.write ts log)) :
    (logfsWrite ts log s).1.reclaimed = s.reclaimed ↔
      ¬ FlushesBytes s (.write ts log) ∨ s.logList.length < maxLogs := by
  have hts : ts = s.cache.timestamp := hop.cached
  subst hts
  have hsize : computeTotalSize s.logList + s.cache.buffer.content.length + log.length ≤ s.maxSize := hop.size
  have hroom : room s s.cache.timestamp = s.cache.buffer.capacity - s.cache.buffer.content.length := by
    rw [room, if_pos rfl]
    rfl
  have htaken : (ringbufWrite s log).2 = min (room s s.cache.timestamp) log.length := by
    rw [hroom]
    rfl
  by_cases hflushes : FlushesBytes s (.write s.cache.timestamp log)
  · -- The cache takes a first piece and is full.
    obtain ⟨hsome, hspills⟩ := hflushes
    rw [Nat.min_eq_left (Nat.le_of_lt hspills)] at htaken
    have hwrite : (logfsWrite s.cache.timestamp log s).1 = (writeLoop s.cache.timestamp log (log.length + 1)
        (ringbufWrite s log).1 (room s s.cache.timestamp) (room s s.cache.timestamp)).1 := by
      rw [logfsWrite, if_neg (by omega)]
      simp only [changeTimestamp, ne_eq, not_true, if_false, htaken]
    have hfull : (ringbufWrite s log).1.cache.buffer.content.length = s.cache.buffer.capacity := by
      show (s.cache.buffer.content ++ log.take _).length = _
      rw [List.length_append, List.length_take]
      omega
    rw [hwrite, or_iff_right (not_not.2 ⟨hsome, hspills⟩)]
    constructor
    · intro hsame
      by_contra hnot
      have hcounted : Counted maxLogs (ringbufWrite s log).1 :=
        ⟨h.tracks.cache _, h.plenty, h.limit, h.length⟩
      have hdeletes := writeLoop_deletes hlogs hcounted hop.listed hnot hsome hspills log.length
      exact Nat.ne_of_gt hdeletes (congrArg List.length hsame)
    · intro hless
      refine reclaimed_writeLoop _ (Nat.le_refl _) ⟨h.tracks.cache _, h.plenty, hop.listed, ?_, hfull, ?_⟩
      · show s.logList.length < s.maxLogs
        rw [h.limit]
        exact hless
      · show computeTotalSize s.logList + (s.cache.buffer.capacity + _) ≤ s.maxSize
        omega
  · refine iff_of_true ?_ (.inl hflushes)
    have honce : (ringbufWrite s log).2 = 0 ∨ log.length ≤ (ringbufWrite s log).2 := by
      have hnot : ¬ (0 < room s s.cache.timestamp ∧ room s s.cache.timestamp < log.length) := hflushes
      omega
    rw [logfsWrite_at_once log (by omega) honce]
    rfl

end Deletion

/-- Along every run of a store with a limit of logs, a write or flush to the cached log, listed already and with room for all bytes, deletes nothing exactly if it has nothing to append to the file or fewer logs than the limit are listed. -/
theorem append_deletes_nothing_iff (fs : Fs) (hreliable : fs.appendFails = []) (maxSize cacheSize : Nat) {maxLogs : Nat}
    (hlogs : maxLogs ≠ 0) (ops : List Op) {op : Op}
    (hop : Appends (run step (logfsCreate fs maxSize maxLogs cacheSize) ops) op) :
    (step (run step (logfsCreate fs maxSize maxLogs cacheSize) ops) op).reclaimed =
        (run step (logfsCreate fs maxSize maxLogs cacheSize) ops).reclaimed ↔
      ¬ FlushesBytes (run step (logfsCreate fs maxSize maxLogs cacheSize) ops) op ∨
        (run step (logfsCreate fs maxSize maxLogs cacheSize) ops).logList.length < maxLogs := by
  have hcounted := counted_run hreliable hlogs maxSize cacheSize ops
  cases op with
  | write ts log => exact reclaimed_write_iff hlogs hcounted hop
  | flush => exact reclaimed_flush_iff hlogs hcounted hop
  | delete ts => exact absurd hop.cached id
  | clear => exact absurd hop.cached id

/-- A second log's worth of room is enough for an append to the first. -/
theorem append_below_limit :
    (step (run step (logfsCreate { dir := .empty } 8192 2 0) [.write 1 [7], .flush, .write 1 [8]]) .flush).reclaimed =
      (run step (logfsCreate { dir := .empty } 8192 2 0) [.write 1 [7], .flush, .write 1 [8]]).reclaimed :=
  (append_deletes_nothing_iff { dir := .empty } rfl 8192 0 (by decide) [.write 1 [7], .flush, .write 1 [8]]
    ⟨by decide, by decide +kernel, by decide +kernel⟩).2 (.inr (by decide +kernel))

/-- With room for one log only, the second flush to it deletes what the first one stored. -/
theorem append_deletes_log :
    Appends (run step (logfsCreate { dir := .empty } 8192 1 0) [.write 1 [7], .flush, .write 1 [8]]) .flush ∧
      (run step (logfsCreate { dir := .empty } 8192 1 0) [.write 1 [7], .flush, .write 1 [8]]).reclaimed = [] ∧
      (step (run step (logfsCreate { dir := .empty } 8192 1 0) [.write 1 [7], .flush, .write 1 [8]])
        .flush).reclaimed = [1] ∧
      stored (step (run step (logfsCreate { dir := .empty } 8192 1 0) [.write 1 [7], .flush, .write 1 [8]])
        .flush) 1 = [8] := by
  refine ⟨⟨by decide, by decide +kernel, by decide +kernel⟩, by decide +kernel, by decide +kernel, by decide +kernel⟩

end Evse.Logfs
