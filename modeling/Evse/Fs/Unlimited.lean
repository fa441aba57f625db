import Evse.Fs.Room
import Mathlib.Data.Int.Bitwise

/-!
# A limit of zero

A limit of zero is meant to be no limit. Of the number of logs it is: a store without that limit and one whose limit is beyond the number of timestamps in use go through the same states but for the limit itself. Of the size it is not, since a write compares its bytes with the limit before anything else and a limit of zero refuses all but empty ones.
-/

namespace Evse.Logfs

open StepRun

/-! ### Results -/

/-- What `logfs_clear` collects from its deletions. -/
def clearResult : List LogFile → Directory Time Byte → Int → Int
  | [], _, err => err
  | file :: rest, dir, err =>
      clearResult rest (dir.delete file.timestamp)
        (if (dir.find file.timestamp).isSome then err else Int.lor err (-ENOENT))

/-- What a call returns. The calls that only read the store are functions of the directory and the list. -/
def result (s : Logfs) : Op → Int
  | .write timestamp log => (logfsWrite timestamp log s).2
  | .flush => 0
  | .delete timestamp => (logfsDelete s timestamp).2
  | .clear => clearResult s.logList s.fs.dir 0

/-- Two stores answer the calls alike, and the calls leave the same files and the same list. -/
structure SameRun (s s' : Logfs) (ops : List Op) : Prop where
  results : outputs step result s ops = outputs step result s' ops
  files : (run step s ops).fs.dir = (run step s' ops).fs.dir
  list : (run step s ops).logList = (run step s' ops).logList

/-- The bytes all calls write. -/
def writtenBytes (ops : List Op) : Nat := (ops.map fun op => op.bytes.length).sum

def Op.timestamp? : Op → Option Time
  | .write timestamp _ => some timestamp
  | .flush | .delete _ | .clear => none

/-- The timestamps of the files and of the writes, each once. -/
def timestampsUsed (dir : Directory Time Byte) (ops : List Op) : List Time :=
  (dir.files.map Prod.fst ++ ops.filterMap Op.timestamp?).dedup

/-! ### Other limits -/

/-- The store with other limits. -/
def limit (maxSize maxLogs : Nat) (s : Logfs) : Logfs := { s with maxSize := maxSize, maxLogs := maxLogs }

section Limit

variable (maxSize maxLogs : Nat) (s : Logfs) (ts : Time)

@[simp] theorem limit_fs : (limit maxSize maxLogs s).fs = s.fs := rfl
@[simp] theorem limit_maxSize : (limit maxSize maxLogs s).maxSize = maxSize := rfl
@[simp] theorem limit_maxLogs : (limit maxSize maxLogs s).maxLogs = maxLogs := rfl
@[simp] theorem limit_cache : (limit maxSize maxLogs s).cache = s.cache := rfl
@[simp] theorem limit_logList : (limit maxSize maxLogs s).logList = s.logList := rfl
@[simp] theorem limit_memory : (limit maxSize maxLogs s).memory = s.memory := rfl

theorem addList_limit (logsize : Nat) :
    addList (limit maxSize maxLogs s) ts logsize = limit maxSize maxLogs (addList s ts logsize) := by
  rw [addList_eq, addList_eq, limit_memory]
  split <;> rfl

theorem scan_limit : scan (limit maxSize maxLogs s) = limit maxSize maxLogs (scan s) := by
  unfold scan
  rw [limit_fs]
  generalize fsDir s.fs.dir = files
  induction files generalizing s with
  | nil => rfl
  | cons file files ih => rw [List.foldl_cons, List.foldl_cons, addList_limit, ih]

theorem scanIfEmpty_limit : scanIfEmpty (limit maxSize maxLogs s) = limit maxSize maxLogs (scanIfEmpty s) := by
  unfold scanIfEmpty
  rw [scan_limit, limit_logList]
  split <;> rfl

theorem deleteLog_limit :
    deleteLog (limit maxSize maxLogs s) ts = (limit maxSize maxLogs (deleteLog s ts).1, (deleteLog s ts).2) := by
  rw [deleteLog, deleteLog, limit_fs]
  cases s.fs.dir.find ts with
  | none => rfl
  | some content => rfl

theorem reclaimLog_limit : reclaimLog (limit maxSize maxLogs s) ts = limit maxSize maxLogs (reclaimLog s ts) := by
  rw [reclaimLog, deleteLog_limit]
  rfl

theorem reclaimFirst_limit (n : Nat) :
    reclaimFirst n (limit maxSize maxLogs s) = limit maxSize maxLogs (reclaimFirst n s) := by
  induction n generalizing s with
  | zero => rfl
  | succ n ih =>
      rw [reclaimFirst, reclaimFirst, limit_logList]
      cases s.logList with
      | nil => rfl
      | cons file rest =>
          show reclaimFirst n (reclaimLog (limit maxSize maxLogs s) file.timestamp) = _
          rw [reclaimLog_limit, ih]

/-- The loop over the sizes does not read the limit of logs. -/
theorem reclaimUntil_limit (bytesToAppend : Nat) (list : List LogFile) :
    reclaimUntil bytesToAppend list (limit s.maxSize maxLogs s) =
      limit s.maxSize maxLogs (reclaimUntil bytesToAppend list s) := by
  induction list generalizing s with
  | nil => rfl
  | cons file rest ih =>
      have hsize := (reclaims_reclaimLog s file.timestamp).maxSize
      simp only [reclaimUntil, reclaimLog_limit, limit_logList, limit_maxSize, hsize]
      split
      · rfl
      · have hrest := ih (reclaimLog s file.timestamp)
        rwa [hsize] at hrest

theorem drain_limit (fuel : Nat) :
    drain ts fuel (limit maxSize maxLogs s) = (limit maxSize maxLogs (drain ts fuel s).1, (drain ts fuel s).2) := by
  induction fuel generalizing s with
  | zero => rfl
  | succ fuel ih =>
      rw [drain, drain, limit_cache, limit_fs]
      split_ifs
      · rfl
      · cases fsAppend ts s.fs s.cache.buffer.contiguous with
        | mk fs appended =>
            cases appended with
            | none => rfl
            | some n => exact ih { s with fs := fs, cache.buffer := s.cache.buffer.consume n }

theorem listFlushed_limit : listFlushed ts (limit maxSize maxLogs s) = limit maxSize maxLogs (listFlushed ts s) := by
  have hfsSize : fsSize (limit maxSize maxLogs s) ts = fsSize s ts := rfl
  rw [listFlushed, listFlushed, hfsSize]
  cases fsSize s ts with
  | none => rfl
  | some logsize =>
      show (if logsize > 0 then _ else _) = limit maxSize maxLogs (if logsize > 0 then _ else _)
      split_ifs
      · exact addList_limit maxSize maxLogs s ts logsize
      · rfl

variable {maxSize maxLogs s}

theorem reclaimByCount_limit (n : Nat) :
    reclaimByCount (limit maxSize s.maxLogs s) n = limit maxSize s.maxLogs (reclaimByCount s n) := by
  rw [reclaimByCount, reclaimByCount, limit_maxLogs, limit_logList]
  split_ifs
  · rfl
  · exact reclaimFirst_limit _ _ _ _

theorem reclaimBySize_limit (bytesToAppend : Nat) :
    reclaimBySize (limit s.maxSize maxLogs s) bytesToAppend =
      limit s.maxSize maxLogs (reclaimBySize s bytesToAppend) := by
  rw [reclaimBySize, reclaimBySize, limit_maxSize, limit_logList]
  split_ifs
  · rfl
  · exact reclaimUntil_limit _ _ _ _

/-- A flush reads the limits in the reclaim in front of it only. -/
theorem flushLogcache_limit {bytesToAppend : Nat}
    (hreclaim : reclaim (limit maxSize maxLogs s) bytesToAppend = limit maxSize maxLogs (reclaim s bytesToAppend)) :
    flushLogcache ts (limit maxSize maxLogs s) bytesToAppend =
      limit maxSize maxLogs (flushLogcache ts s bytesToAppend) := by
  have hcore : flushCore ts (limit maxSize maxLogs s) bytesToAppend =
      limit maxSize maxLogs (flushCore ts s bytesToAppend) := by
    simp only [flushCore, hreclaim, limit_cache, drain_limit, listFlushed_limit]
    split <;> rfl
  simp only [flushLogcache, hcore, hreclaim, scanIfEmpty_limit]
  rfl

end Limit

/-! ### The calls -/

theorem ringbufWrite_limit (maxSize maxLogs : Nat) (s : Logfs) (data : List Byte) :
    ringbufWrite (limit maxSize maxLogs s) data =
      (limit maxSize maxLogs (ringbufWrite s data).1, (ringbufWrite s data).2) := rfl

section Calls

variable {maxSize maxLogs : Nat} {s : Logfs} {ts : Time} {log : List Byte}

theorem changeTimestamp_limit
    (hflush : flushLogcache s.cache.timestamp (limit maxSize maxLogs s) (s.cache.buffer.length + log.length) =
      limit maxSize maxLogs (flushLogcache s.cache.timestamp s (s.cache.buffer.length + log.length))) :
    changeTimestamp ts log (limit maxSize maxLogs s) = limit maxSize maxLogs (changeTimestamp ts log s) := by
  rw [changeTimestamp, changeTimestamp, limit_cache]
  split_ifs
  · rw [hflush]
    rfl
  · rfl

variable (log) {I : Logfs → Prop} {P : Time → Prop} (hI : Preserved I P)
  (hflush : ∀ {s} bytesToAppend, I s → flushLogcache s.cache.timestamp (limit maxSize maxLogs s) bytesToAppend =
    limit maxSize maxLogs (flushLogcache s.cache.timestamp s bytesToAppend)) (h : I s)

include hI hflush h

theorem writeLoop_limit (hcached : s.cache.timestamp = ts) (hts : P ts) (fuel written writtenTotal : Nat) :
    writeLoop ts log fuel (limit maxSize maxLogs s) written writtenTotal =
      (limit maxSize maxLogs (writeLoop ts log fuel s written writtenTotal).1,
        (writeLoop ts log fuel s written writtenTotal).2) := by
  induction fuel generalizing s written writtenTotal with
  | zero => rfl
  | succ fuel ih =>
      by_cases hcontinues : written ≠ 0 ∧ writtenTotal < log.length
      · obtain ⟨hturn, hsame⟩ := hI.turn h (by rwa [hcached]) (log.length - writtenTotal)
          ((log.drop written).take (log.length - writtenTotal))
        have hmoved := hflush (s.cache.buffer.capacity + (log.length - writtenTotal)) h
        rw [hcached] at hturn hsame hmoved
        rw [writeLoop_turn ts hcontinues.1 hcontinues.2, writeLoop_turn ts hcontinues.1 hcontinues.2, limit_cache,
          hmoved]
        simp only [ringbufWrite_limit]
        exact ih hturn hsame _ _
      · rw [writeLoop, if_neg hcontinues, writeLoop, if_neg hcontinues]

theorem logfsWrite_limit (hsize : s.maxSize = maxSize) (hts : P ts) :
    logfsWrite ts log (limit maxSize maxLogs s) =
      (limit maxSize maxLogs (logfsWrite ts log s).1, (logfsWrite ts log s).2) := by
  rw [logfsWrite, logfsWrite, limit_maxSize, hsize]
  split_ifs
  · rfl
  · obtain ⟨hchange, hcached⟩ := hI.changeTimestamp h hts log
    have hwrite : I (ringbufWrite (changeTimestamp ts log s) log).1 := hI.write hchange (by rwa [hcached])
    have hloop := writeLoop_limit log hI hflush hwrite hcached hts (log.length + 1)
      (ringbufWrite (changeTimestamp ts log s) log).2 (ringbufWrite (changeTimestamp ts log s) log).2
    simp only [changeTimestamp_limit (hflush _ h), ringbufWrite_limit, hloop]

/-- Stores that differ in limits which no flush notices go through the calls side by side. -/
theorem step_limit (hsize : s.maxSize = maxSize) {op : Op}
    (hop : ∀ timestamp log, op = .write timestamp log → P timestamp) :
    step (limit maxSize maxLogs s) op = limit maxSize maxLogs (step s op) ∧
      result (limit maxSize maxLogs s) op = result s op := by
  cases op with
  | write ts log =>
      have hwrite := logfsWrite_limit log hI hflush h hsize (hop ts log rfl)
      rw [step, result, hwrite]
      exact ⟨rfl, rfl⟩
  | flush => exact ⟨hflush s.cache.buffer.length h, rfl⟩
  | delete ts =>
      rw [step, result, logfsDelete, deleteLog_limit]
      exact ⟨rfl, rfl⟩
  | clear => exact ⟨rfl, rfl⟩

end Calls

/-! ### No limit of logs -/

/-- A reclaim brings no file into being. -/
theorem ReclaimSteps.find {s s' : Logfs} (h : ReclaimSteps s s') {t : Time} (hkept : s'.fs.dir.find t ≠ none) :
    s.fs.dir.find t ≠ none := by
  induction h with
  | refl => exact hkept
  | tail _ hstep ih =>
      refine ih ?_
      cases hstep with
      | list hrelists =>
          obtain ⟨list, memory, hframe⟩ := hrelists.frame
          rw [hframe] at hkept
          exact hkept
      | log ts =>
          unfold reclaimLog deleteLog at hkept
          split at hkept
          · exact hkept
          · rw [Directory.find_delete] at hkept
            split at hkept
            · exact absurd rfl hkept
            · exact hkept

/-- A store without a limit of logs that has files for the given timestamps only. -/
structure Within (maxSize : Nat) (names : List Time) (s : Logfs) : Prop where
  tracks : Tracks s
  limits : s.maxSize = maxSize ∧ s.maxLogs = 0
  files : ∀ t, s.fs.dir.find t ≠ none → t ∈ names
  cached : s.cache.buffer.content = [] ∨ s.cache.timestamp ∈ names

section Within

variable {maxSize : Nat} {names : List Time} {s : Logfs} (h : Within maxSize names s)

include h

theorem Within.length_scanIfEmpty : (scanIfEmpty s).logList.length ≤ names.dedup.length := by
  have hknown := (listed_scanIfEmpty h.tracks.listed).known
  rw [scanIfEmpty_fs] at hknown
  exact hknown.length_le h.files

theorem Within.reclaim_limit {maxLogs : Nat} (hlogs : names.dedup.length < maxLogs) (bytesToAppend : Nat) :
    reclaim (limit maxSize maxLogs s) bytesToAppend = limit maxSize maxLogs (reclaim s bytesToAppend) := by
  have hlength := h.length_scanIfEmpty
  have hscan := (steps_scanIfEmpty s).reclaims
  have hroom : (scanIfEmpty s).logList.length + (if bytesToAppend = 0 then 0 else 1) ≤ maxLogs := by
    split <;> omega
  have hnone : reclaimByCount (scanIfEmpty s) (if bytesToAppend = 0 then 0 else 1) = scanIfEmpty s :=
    if_pos (.inl (hscan.maxLogs.trans h.limits.2))
  have hnone' : reclaimByCount (limit maxSize maxLogs (scanIfEmpty s)) (if bytesToAppend = 0 then 0 else 1) =
      limit maxSize maxLogs (scanIfEmpty s) := if_pos (.inr hroom)
  have hsize : (scanIfEmpty s).maxSize = maxSize := hscan.maxSize.trans h.limits.1
  rw [reclaim, reclaim, scanIfEmpty_limit, hnone, hnone', ← hsize, reclaimBySize_limit]

theorem Within.flush (bytesToAppend : Nat) :
    Within maxSize names (flushLogcache s.cache.timestamp s bytesToAppend) := by
  have hflushed := flushed_flushLogcache h.tracks.reliable s.cache.timestamp bytesToAppend
  have happended := appended_flushLogcache h.tracks s.cache.timestamp bytesToAppend
  refine ⟨tracks_flushLogcache h.tracks _ _, ⟨hflushed.maxSize.trans h.limits.1, hflushed.maxLogs.trans h.limits.2⟩, ?_,
    .inl hflushed.content⟩
  intro t ht
  rw [happended.find] at ht
  split at ht
  · rename_i hnew
    rw [hnew.1]
    exact h.cached.resolve_left hnew.2
  · exact h.files t ((steps_reclaim s bytesToAppend).find ht)

end Within

theorem preserved_within (maxSize : Nat) (names : List Time) : Preserved (Within maxSize names) (· ∈ names) where
  reliable := fun h => h.tracks.reliable
  flush := fun h _ => h.flush _
  timestamp := fun h _ hts => ⟨h.tracks.cache _, h.limits, h.files, .inr hts⟩
  write := fun h hts => ⟨h.tracks.cache _, h.limits, h.files, .inr hts⟩
  delete := fun {s ts} h => by
    have htracks := tracks_logfsDelete h.tracks ts
    refine ⟨htracks, ?_, ?_, ?_⟩
    · obtain ⟨dir, list, missed, hframe⟩ := logfsDelete_frame s ts
      rw [hframe]
      exact h.limits
    · intro t ht
      apply h.files
      unfold logfsDelete deleteLog at ht
      split at ht
      · exact ht
      · rw [Directory.find_delete] at ht
        split at ht
        · exact absurd rfl ht
        · exact ht
    · obtain ⟨dir, list, missed, hframe⟩ := logfsDelete_frame s ts
      rw [hframe]
      exact h.cached
  clear := fun {s} h => by
    refine ⟨tracks_logfsClear h.tracks, h.limits, ?_, h.cached⟩
    intro t ht
    apply h.files
    rw [logfsClear, find_foldl_delete] at ht
    split at ht
    · exact absurd rfl ht
    · exact ht

/-! ### No limit of size -/

/-- The write of no bytes is a change of the timestamp. -/
theorem logfsWrite_nil (s : Logfs) (ts : Time) :
    logfsWrite ts [] s = ((ringbufWrite (changeTimestamp ts [] s) []).1, 0) := by
  have htaken : (ringbufWrite (changeTimestamp ts [] s) []).2 = 0 := Nat.min_zero _
  rw [logfsWrite, if_neg (show ¬ ([] : List Byte).length > s.maxSize from Nat.not_lt_zero s.maxSize)]
  simp only [htaken]
  rfl

theorem dirBytes_delete (dir : Directory Time Byte) (ts : Time) : dirBytes (dir.delete ts) ≤ dirBytes dir :=
  computeTotalSize_le (List.filter_sublist.map _)

theorem ReclaimSteps.dirBytes_le {s s' : Logfs} (h : ReclaimSteps s s') : dirBytes s'.fs.dir ≤ dirBytes s.fs.dir := by
  induction h with
  | refl => exact Nat.le_refl _
  | tail _ hstep ih =>
      refine Nat.le_trans ?_ ih
      cases hstep with
      | list hrelists =>
          obtain ⟨list, memory, hframe⟩ := hrelists.frame
          rw [hframe]
      | log ts =>
          unfold reclaimLog deleteLog
          split
          · exact Nat.le_refl _
          · exact dirBytes_delete _ ts

/-- A store without a limit of size that nothing was ever written to. -/
structure Idle (maxLogs bytes : Nat) (s : Logfs) : Prop where
  tracks : Tracks s
  limits : s.maxSize = 0 ∧ s.maxLogs = maxLogs
  cached : s.cache.buffer.content = []
  files : dirBytes s.fs.dir ≤ bytes

section Idle

variable {maxLogs bytes : Nat} {s : Logfs} (h : Idle maxLogs bytes s)

include h

theorem Idle.total : computeTotalSize (scanIfEmpty s).logList ≤ bytes := by
  have hknown := (listed_scanIfEmpty h.tracks.listed).known
  rw [scanIfEmpty_fs] at hknown
  exact Nat.le_trans hknown.total_le h.files

theorem Idle.reclaim_limit {maxSize : Nat} (hsize : bytes < maxSize) :
    reclaim (limit maxSize maxLogs s) 0 = limit maxSize maxLogs (reclaim s 0) := by
  have hcounted := (steps_reclaimByCount (scanIfEmpty s) 0).reclaims
  have hdrops := drops_reclaimByCount (listed_scanIfEmpty h.tracks.listed) 0
  have hscan := (steps_scanIfEmpty s).reclaims
  have hroom : computeTotalSize (reclaimByCount (scanIfEmpty s) 0).logList + 0 ≤ maxSize := by
    obtain ⟨n, hn⟩ := hdrops.drop
    have htotal := h.total
    have hless := computeTotalSize_le (List.drop_sublist n (scanIfEmpty s).logList)
    rw [hn]
    omega
  have hnone : reclaimBySize (reclaimByCount (scanIfEmpty s) 0) 0 = reclaimByCount (scanIfEmpty s) 0 :=
    if_pos (.inl (hcounted.maxSize.trans (hscan.maxSize.trans h.limits.1)))
  have hnone' : reclaimBySize (limit maxSize maxLogs (reclaimByCount (scanIfEmpty s) 0)) 0 =
      limit maxSize maxLogs (reclaimByCount (scanIfEmpty s) 0) := if_pos (.inr hroom)
  have hcount : reclaimByCount (limit maxSize maxLogs (scanIfEmpty s)) 0 =
      limit maxSize maxLogs (reclaimByCount (scanIfEmpty s) 0) := by
    rw [← h.limits.2, ← hscan.maxLogs]
    exact reclaimByCount_limit 0
  rw [reclaim, reclaim, scanIfEmpty_limit, if_pos rfl, hcount, hnone, hnone']

theorem Idle.flush (ts : Time) : Idle maxLogs bytes (flushLogcache ts s 0) := by
  have hflushed := flushed_flushLogcache h.tracks.reliable ts 0
  refine ⟨tracks_flushLogcache h.tracks _ _, ⟨hflushed.maxSize.trans h.limits.1, hflushed.maxLogs.trans h.limits.2⟩,
    hflushed.content, ?_⟩
  have hdir : (flushLogcache ts s 0).fs.dir = (reclaim s 0).fs.dir := by
    have hnothing : (reclaim s 0).cache.buffer.length = 0 := by
      rw [(steps_reclaim s 0).reclaims.cache]
      exact congrArg List.length h.cached
    obtain ⟨list, memory, hlist⟩ := (relists_listFlushed ts (reclaim s 0)).frame
    simp only [flushLogcache, flushCore, hnothing, drain, if_true, hlist]
  rw [hdir]
  exact Nat.le_trans (steps_reclaim s 0).dirBytes_le h.files

theorem Idle.changeTimestamp (ts : Time) : Idle maxLogs bytes (changeTimestamp ts [] s) := by
  have hnothing : s.cache.buffer.length + ([] : List Byte).length = 0 := congrArg List.length h.cached
  unfold Logfs.changeTimestamp
  rw [hnothing]
  split
  · have hflush := h.flush s.cache.timestamp
    generalize flushLogcache s.cache.timestamp s 0 = s' at hflush
    exact ⟨hflush.tracks.cache _, hflush.limits, hflush.cached, hflush.files⟩
  · exact h

theorem Idle.ringbufWrite : Idle maxLogs bytes (ringbufWrite s []).1 := by
  refine ⟨h.tracks.cache _, h.limits, ?_, h.files⟩
  show s.cache.buffer.content ++ ([] : List Byte).take _ = []
  rw [h.cached, List.take_nil, List.append_nil]

/-- Where nothing is written, a limit of size beyond what is there makes no difference. -/
theorem Idle.step {maxSize : Nat} (hsize : bytes < maxSize) {op : Op} (hop : op.bytes = []) :
    Idle maxLogs bytes (step s op) ∧
      Logfs.step (limit maxSize maxLogs s) op = limit maxSize maxLogs (Logfs.step s op) ∧
      result (limit maxSize maxLogs s) op = result s op := by
  have hflush : ∀ ts, flushLogcache ts (limit maxSize maxLogs s) 0 = limit maxSize maxLogs (flushLogcache ts s 0) :=
    fun ts => flushLogcache_limit ts (h.reclaim_limit hsize)
  cases op with
  | write ts log =>
      have hnil : log = [] := hop
      subst hnil
      have hnothing : s.cache.buffer.length + ([] : List Byte).length = 0 := congrArg List.length h.cached
      have hchange : Logfs.changeTimestamp ts [] (limit maxSize maxLogs s) =
          limit maxSize maxLogs (Logfs.changeTimestamp ts [] s) :=
        changeTimestamp_limit (by rw [hnothing]; exact hflush s.cache.timestamp)
      rw [Logfs.step, Logfs.step, result, result, logfsWrite_nil, logfsWrite_nil, hchange]
      exact ⟨(h.changeTimestamp ts).ringbufWrite, rfl, rfl⟩
  | flush =>
      have hnothing : s.cache.buffer.length = 0 := congrArg List.length h.cached
      rw [Logfs.step, Logfs.step, logfsFlush, logfsFlush, limit_cache, hnothing]
      exact ⟨h.flush s.cache.timestamp, hflush s.cache.timestamp, rfl⟩
  | delete ts =>
      refine ⟨⟨tracks_logfsDelete h.tracks ts, ?_, ?_, ?_⟩, ?_, ?_⟩
      · obtain ⟨dir, list, missed, hframe⟩ := logfsDelete_frame s ts
        rw [Logfs.step, hframe]
        exact h.limits
      · obtain ⟨dir, list, missed, hframe⟩ := logfsDelete_frame s ts
        rw [Logfs.step, hframe]
        exact h.cached
      · rw [Logfs.step, logfsDelete, deleteLog]
        cases s.fs.dir.find ts with
        | none => exact h.files
        | some content => exact Nat.le_trans (dirBytes_delete s.fs.dir ts) h.files
      · rw [Logfs.step, Logfs.step, logfsDelete, logfsDelete, deleteLog_limit]
      · rw [result, result, logfsDelete, logfsDelete, deleteLog_limit]
  | clear =>
      refine ⟨⟨tracks_logfsClear h.tracks, h.limits, h.cached, ?_⟩, rfl, rfl⟩
      refine Nat.le_trans ?_ h.files
      rw [Logfs.step, logfsClear]
      show dirBytes (s.logList.foldl _ s.fs.dir) ≤ dirBytes s.fs.dir
      generalize s.fs.dir = dir
      induction s.logList generalizing dir with
      | nil => exact Nat.le_refl _
      | cons file rest ih => exact Nat.le_trans (ih _) (dirBytes_delete dir file.timestamp)

end Idle

/-- No call changes the limit of size. -/
theorem preserved_maxSize (maxSize : Nat) : Preserved (fun s => Reliable s ∧ s.maxSize = maxSize) fun _ => True :=
  preserved_of_flushed (fun _ _ _ _ _ h => h) fun hflushed h => hflushed.maxSize.trans h

/-- A write of some bytes is answered differently under a limit of zero and under one that it is within. -/
theorem result_ne {s s' : Logfs} (hzero : s.maxSize = 0) {op : Op} (hbytes : op.bytes ≠ [])
    (hsize : op.bytes.length ≤ s'.maxSize) : result s op ≠ result s' op := by
  cases op with
  | write ts log =>
      have hpos : 0 < log.length := List.length_pos_iff.2 hbytes
      have hfits : log.length ≤ s'.maxSize := hsize
      have hrefused : (logfsWrite ts log s).2 = -EFBIG := by
        rw [logfsWrite, if_pos (by omega)]
      have hnonneg : 0 ≤ (logfsWrite ts log s').2 := by
        rw [logfsWrite, if_neg (Nat.not_lt.2 hfits)]
        exact Int.natCast_nonneg _
      intro hsame
      rw [← show (logfsWrite ts log s).2 = (logfsWrite ts log s').2 from hsame, hrefused] at hnonneg
      exact absurd hnonneg (by decide)
  | flush | delete ts | clear => exact absurd rfl hbytes

/-! ### Whole runs -/

section Runs

theorem SameRun.of_limit {maxSize maxLogs : Nat} {s : Logfs} {ops : List Op}
    (h : run step (limit maxSize maxLogs s) ops = limit maxSize maxLogs (run step s ops) ∧
      outputs step result (limit maxSize maxLogs s) ops = outputs step result s ops) :
    SameRun s (limit maxSize maxLogs s) ops where
  results := h.2.symm
  files := by rw [h.1, limit_fs]
  list := by rw [h.1, limit_logList]

variable (fs : Fs) (hreliable : fs.appendFails = []) (cacheSize : Nat) (mallocFails : List Bool) (ops : List Op)

include hreliable

theorem sameRun_maxLogs (maxSize : Nat) {maxLogs : Nat} (hlogs : (timestampsUsed fs.dir ops).length < maxLogs) :
    SameRun (logfsCreate fs maxSize 0 cacheSize mallocFails) (logfsCreate fs maxSize maxLogs cacheSize mallocFails) ops := by
  let names : List Time := fs.dir.files.map Prod.fst ++ ops.filterMap Op.timestamp?
  have hI := preserved_within maxSize names
  have hops : ∀ op ∈ ops, ∀ timestamp log, op = .write timestamp log → timestamp ∈ names := by
    rintro op hop timestamp log rfl
    exact List.mem_append_right _ (List.mem_filterMap.2 ⟨_, hop, rfl⟩)
  have hstart : Within maxSize names (logfsCreate fs maxSize 0 cacheSize mallocFails) := by
    refine ⟨⟨hreliable, .inl rfl⟩, ⟨rfl, rfl⟩, fun t ht => ?_, .inl rfl⟩
    obtain ⟨content, hcontent⟩ := Option.ne_none_iff_exists'.1 ht
    have hmem := (fs.dir.mem_files_iff t content).2 hcontent
    exact List.mem_append_left _ (List.mem_map.2 ⟨_, hmem, rfl⟩)
  have hflush : ∀ {s} bytesToAppend, Within maxSize names s →
      flushLogcache s.cache.timestamp (limit maxSize maxLogs s) bytesToAppend =
        limit maxSize maxLogs (flushLogcache s.cache.timestamp s bytesToAppend) :=
    fun bytesToAppend h => flushLogcache_limit _ (h.reclaim_limit hlogs bytesToAppend)
  exact SameRun.of_limit (run_commute (f := limit maxSize maxLogs) (fun s op hop h => hI.step h hop)
    (fun s op hop h => step_limit hI hflush h h.limits.1 hop) hstart hops)

theorem sameRun_maxSize_iff (maxLogs : Nat) {maxSize : Nat} (hsize : dirBytes fs.dir + writtenBytes ops < maxSize) :
    SameRun (logfsCreate fs 0 maxLogs cacheSize mallocFails) (logfsCreate fs maxSize maxLogs cacheSize mallocFails) ops ↔
      ∀ op ∈ ops, op.bytes = [] := by
  constructor
  · intro hsame op hop
    by_contra hbytes
    have hsum : op.bytes.length ≤ writtenBytes ops := List.single_le_sum (fun _ _ => Nat.zero_le _) _
      (List.mem_map.2 ⟨op, hop, rfl⟩)
    have hkeeps : ∀ maxSize s op, Reliable s ∧ s.maxSize = maxSize →
        Reliable (step s op) ∧ (step s op).maxSize = maxSize :=
      fun maxSize s op h => (preserved_maxSize maxSize).step h fun _ _ _ => trivial
    have hzero : Reliable (logfsCreate fs 0 maxLogs cacheSize mallocFails) ∧
        (logfsCreate fs 0 maxLogs cacheSize mallocFails).maxSize = 0 := ⟨hreliable, rfl⟩
    have hmany : Reliable (logfsCreate fs maxSize maxLogs cacheSize mallocFails) ∧
        (logfsCreate fs maxSize maxLogs cacheSize mallocFails).maxSize = maxSize := ⟨hreliable, rfl⟩
    have hdiffers : ∀ s s' op, Reliable s ∧ s.maxSize = 0 → Reliable s' ∧ s'.maxSize = maxSize →
        op.bytes ≠ [] ∧ op.bytes.length ≤ maxSize → result s op ≠ result s' op :=
      fun s s' op h h' hop => result_ne h.2 hop.1 (by rw [h'.2]; exact hop.2)
    have hne := outputs_ne_of_mem (hkeeps 0) (hkeeps maxSize) hdiffers hzero hmany hop ⟨hbytes, by omega⟩
    exact hne hsame.results
  · intro hnothing
    have hstart : Idle maxLogs (dirBytes fs.dir) (logfsCreate fs 0 maxLogs cacheSize mallocFails) :=
      ⟨⟨hreliable, .inl rfl⟩, ⟨rfl, rfl⟩, rfl, Nat.le_refl _⟩
    have hbound : dirBytes fs.dir < maxSize := by omega
    exact SameRun.of_limit (run_commute (f := limit maxSize maxLogs) (fun s op hop h => (h.step hbound hop).1)
      (fun s op hop h => (h.step hbound hop).2) hstart hnothing)

/-- A limit of logs of zero is as good as one beyond the number of timestamps used. A limit of size of zero is as good as one beyond all bytes exactly if no byte is written. -/
theorem zero_is_unlimited_iff (maxSize maxLogs : Nat) {manyBytes manyLogs : Nat}
    (hsize : dirBytes fs.dir + writtenBytes ops < manyBytes) (hlogs : (timestampsUsed fs.dir ops).length < manyLogs) :
    (SameRun (logfsCreate fs 0 maxLogs cacheSize mallocFails) (logfsCreate fs manyBytes maxLogs cacheSize mallocFails) ops ↔
        ∀ op ∈ ops, op.bytes = []) ∧
      SameRun (logfsCreate fs maxSize 0 cacheSize mallocFails) (logfsCreate fs maxSize manyLogs cacheSize mallocFails) ops :=
  ⟨sameRun_maxSize_iff fs hreliable cacheSize mallocFails ops maxLogs hsize,
    sameRun_maxLogs fs hreliable cacheSize mallocFails ops maxSize hlogs⟩

end Runs

theorem zero_is_unlimited_two_logs :
    (SameRun (logfsCreate { dir := .empty } 0 5 0) (logfsCreate { dir := .empty } 3 5 0)
        [.write 1 [7], .write 2 [8], .delete 1, .flush, .clear] ↔
        ∀ op ∈ [Op.write 1 [7], .write 2 [8], .delete 1, .flush, .clear], op.bytes = []) ∧
      SameRun (logfsCreate { dir := .empty } 8192 0 0) (logfsCreate { dir := .empty } 8192 3 0)
        [.write 1 [7], .write 2 [8], .delete 1, .flush, .clear] :=
  zero_is_unlimited_iff { dir := .empty } rfl 0 [] [.write 1 [7], .write 2 [8], .delete 1, .flush, .clear] 8192 5
    (by decide) (by decide)

/-- A store created without a limit of size refuses a single byte. -/
theorem zero_size_refuses :
    dirBytes (.empty : Directory Time Byte) + writtenBytes [.write 1 [7]] < 2 ∧
      ¬ SameRun (logfsCreate { dir := .empty } 0 0 0) (logfsCreate { dir := .empty } 2 0 0) [.write 1 [7]] := by
  refine ⟨by decide, fun hsame => ?_⟩
  exact absurd hsame.results (by decide +kernel)

end Evse.Logfs
