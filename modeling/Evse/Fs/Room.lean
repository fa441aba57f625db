import Evse.Fs.Appending
import Mathlib.Algebra.Order.BigOperators.Group.List
import Mathlib.Algebra.Order.Group.Nat
import Mathlib.Data.List.Dedup
import Mathlib.Data.List.Perm.Subperm

/-!
# Limits that leave room

A reclaim deletes nothing as long as the number of logs and all their bytes stay within the limits, and it does not take a reliable file system for that: where appends fail, the list may lag behind the directory, but it never counts more than there is, and the bytes that have not gone to a file are still in the cache.
-/

namespace Evse.Logfs

open StepRun

/-! ### The list and the files -/

/-- The bytes in a directory. -/
def dirBytes (dir : Directory Time Byte) : Nat := computeTotalSize (fsDir dir)

theorem computeTotalSize_le {list list' : List LogFile} (h : list.Sublist list') :
    computeTotalSize list ≤ computeTotalSize list' :=
  (h.map LogFile.size).sum_le_sum fun _ _ => Nat.zero_le _

theorem dirBytes_append (dir : Directory Time Byte) (ts : Time) (data : List Byte) :
    dirBytes (dir.append ts data) = dirBytes dir + data.length := by
  show computeTotalSize ((Directory.extend ts data dir.files).map fun file => ⟨file.1, file.2.length⟩) =
    computeTotalSize (dir.files.map fun file => ⟨file.1, file.2.length⟩) + data.length
  generalize dir.files = files
  induction files with
  | nil => simp [Directory.extend, computeTotalSize]
  | cons file files ih =>
      rw [Directory.extend]
      split_ifs
      · simp only [computeTotalSize, List.map_cons, List.sum_cons, List.length_append]
        omega
      · simp only [computeTotalSize, List.map_cons, List.sum_cons] at ih ⊢
        omega

/-- The listed logs are there, with at least the bytes they are listed with. -/
structure Known (list : List LogFile) (dir : Directory Time Byte) : Prop where
  sorted : SortedList.Sorted LogFile.timestamp list
  sizes : ∀ file ∈ list, ∃ content, dir.find file.timestamp = some content ∧ file.size ≤ content.length

theorem Listed.known {s : Logfs} (h : Listed s) : Known s.logList s.fs.dir where
  sorted := h.sorted
  sizes := fun _ hfile => h.find hfile

theorem known_nil (dir : Directory Time Byte) : Known [] dir :=
  ⟨List.Pairwise.nil, fun _ hfile => absurd hfile List.not_mem_nil⟩

section Known

variable {list : List LogFile} {dir : Directory Time Byte} (h : Known list dir)

include h

theorem Known.length_le {names : List Time} (hnames : ∀ t, dir.find t ≠ none → t ∈ names) :
    list.length ≤ names.dedup.length := by
  have hsubset : list.map LogFile.timestamp ⊆ names.dedup := by
    intro t ht
    obtain ⟨file, hfile, rfl⟩ := List.mem_map.1 ht
    obtain ⟨content, hfind, -⟩ := h.sizes file hfile
    exact List.mem_dedup.2 (hnames _ (by rw [hfind]; exact Option.some_ne_none content))
  have hlength := (List.subperm_of_subset h.sorted.nodup hsubset).length_le
  rwa [List.length_map] at hlength

/-- The listed sizes are those of different files, and none is larger than its file. -/
theorem Known.total_le : computeTotalSize list ≤ dirBytes dir := by
  let stored (t : Time) : Nat := ((dir.find t).getD []).length
  have hlisted : computeTotalSize list ≤ ((list.map LogFile.timestamp).map stored).sum := by
    rw [List.map_map, computeTotalSize]
    refine List.sum_le_sum fun file hfile => ?_
    obtain ⟨content, hfind, hsize⟩ := h.sizes file hfile
    show file.size ≤ ((dir.find file.timestamp).getD []).length
    rw [hfind]
    exact hsize
  have hfiles : dirBytes dir = ((dir.files.map Prod.fst).map stored).sum := by
    rw [dirBytes, computeTotalSize, fsDir, List.map_map, List.map_map]
    congr 1
    refine List.map_congr_left fun file hfile => ?_
    show file.2.length = ((dir.find file.1).getD []).length
    rw [(dir.mem_files_iff file.1 file.2).1 hfile]
    rfl
  have hsubset : list.map LogFile.timestamp ⊆ dir.files.map Prod.fst := by
    intro t ht
    obtain ⟨file, hfile, rfl⟩ := List.mem_map.1 ht
    obtain ⟨content, hfind, -⟩ := h.sizes file hfile
    exact List.mem_map.2 ⟨_, (dir.mem_files_iff _ content).2 hfind, rfl⟩
  obtain ⟨names, hperm, hsublist⟩ := List.subperm_of_subset h.sorted.nodup hsubset
  calc computeTotalSize list
      ≤ ((list.map LogFile.timestamp).map stored).sum := hlisted
    _ = (names.map stored).sum := (hperm.map stored).sum_eq.symm
    _ ≤ ((dir.files.map Prod.fst).map stored).sum := (hsublist.map stored).sum_le_sum fun _ _ => Nat.zero_le _
    _ = dirBytes dir := hfiles.symm

end Known

/-! ### Draining and flushing -/

/-- Bytes have gone from the cache to the end of a file, and nothing else has happened to the files. -/
structure Conserves (ts : Time) (s s' : Logfs) : Prop where
  bytes : dirBytes s'.fs.dir + s'.cache.buffer.content.length = dirBytes s.fs.dir + s.cache.buffer.content.length
  names : ∀ t, s'.fs.dir.find t ≠ none → t = ts ∨ s.fs.dir.find t ≠ none
  grown : ∀ t content, s.fs.dir.find t = some content →
    ∃ content', s'.fs.dir.find t = some content' ∧ content.length ≤ content'.length
  frame : (s'.maxSize, s'.maxLogs, s'.logList, s'.reclaimed, s'.cache.buffer.capacity) =
    (s.maxSize, s.maxLogs, s.logList, s.reclaimed, s.cache.buffer.capacity)

theorem Conserves.of_fails (ts : Time) (s : Logfs) (fails : List Bool) :
    Conserves ts s { s with fs.appendFails := fails } where
  bytes := rfl
  names := fun _ => .inr
  grown := fun _ content hfind => ⟨content, hfind, Nat.le_refl _⟩
  frame := rfl

theorem Conserves.trans {ts : Time} {s s' s'' : Logfs} (h : Conserves ts s s') (h' : Conserves ts s' s'') :
    Conserves ts s s'' where
  bytes := h'.bytes.trans h.bytes
  names := fun t ht => (h'.names t ht).elim .inl (h.names t)
  grown := by
    intro t content hfind
    obtain ⟨content', hfind', hlength⟩ := h.grown t content hfind
    obtain ⟨content'', hfind'', hlength'⟩ := h'.grown t content' hfind'
    exact ⟨content'', hfind'', Nat.le_trans hlength hlength'⟩
  frame := h'.frame.trans h.frame

/-- A piece that is moved is as long in the file as in the cache. -/
theorem conserves_piece (ts : Time) (s : Logfs) (fails : List Bool) :
    Conserves ts s { s with
      fs := { dir := s.fs.dir.append ts s.cache.buffer.contiguous, appendFails := fails }
      cache.buffer := s.cache.buffer.consume s.cache.buffer.contiguous.length } where
  bytes := by
    have hpiece := s.cache.buffer.contiguous_length_le
    show dirBytes (s.fs.dir.append ts s.cache.buffer.contiguous) +
      (s.cache.buffer.content.drop s.cache.buffer.contiguous.length).length = _
    rw [dirBytes_append, List.length_drop]
    omega
  names := by
    intro t ht
    by_cases hts : t = ts
    · exact .inl hts
    · rw [Directory.find_append, if_neg hts] at ht
      exact .inr ht
  grown := by
    intro t content hfind
    by_cases hts : t = ts
    · refine ⟨content ++ s.cache.buffer.contiguous, ?_, by rw [List.length_append]; omega⟩
      rw [Directory.find_append, if_pos hts, ← hts, hfind]
      rfl
    · refine ⟨content, ?_, Nat.le_refl _⟩
      rw [Directory.find_append, if_neg hts]
      exact hfind
  frame := rfl

theorem conserves_drain (ts : Time) (fuel : Nat) (s : Logfs) : Conserves ts s (drain ts fuel s).1 := by
  induction fuel generalizing s with
  | zero => exact .of_fails ts s s.fs.appendFails
  | succ fuel ih =>
      rw [drain, fsAppend_eq]
      split_ifs
      · exact .of_fails ts s s.fs.appendFails
      · exact .of_fails ts s s.fs.appendFails.tail
      · exact (conserves_piece ts s s.fs.appendFails.tail).trans (ih _)

/-- The list after a drain, and after its file has been entered with its size. -/
theorem Known.conserves {ts : Time} {s s' : Logfs} (h : Known s.logList s.fs.dir) (hconserves : Conserves ts s s') :
    Known s.logList s'.fs.dir where
  sorted := h.sorted
  sizes := by
    intro file hfile
    obtain ⟨content, hfind, hsize⟩ := h.sizes file hfile
    obtain ⟨content', hfind', hlength⟩ := hconserves.grown _ content hfind
    exact ⟨content', hfind', Nat.le_trans hsize hlength⟩

theorem known_listFlushed {s : Logfs} (h : Known s.logList s.fs.dir) (ts : Time) :
    Known (listFlushed ts s).logList s.fs.dir := by
  unfold listFlushed
  cases hsize : fsSize s ts with
  | none => exact h
  | some logsize =>
      obtain ⟨content, hfind, hlength⟩ := Option.map_eq_some_iff.1 hsize
      show Known (if logsize > 0 then addList s ts logsize else s).logList s.fs.dir
      split
      · rw [addList_eq]
        split
        · exact h
        · refine ⟨SortedList.sorted_insert h.sorted _, fun file hfile => ?_⟩
          obtain hnew | ⟨hold, -⟩ := (SortedList.mem_insert h.sorted).1 hfile
          · rw [hnew]
            exact ⟨content, hfind, Nat.le_of_eq hlength.symm⟩
          · exact h.sizes file hold
      · exact h

theorem known_scanIfEmpty {s : Logfs} (h : Known s.logList s.fs.dir) : Known (scanIfEmpty s).logList s.fs.dir := by
  unfold scanIfEmpty
  split
  · rename_i hempty
    obtain ⟨list, memory, hscan⟩ := (relists_scan s).frame
    have hknown := (listed_scan (List.isEmpty_iff.1 hempty)).known
    have hfs : (scan s).fs = s.fs := by rw [hscan]
    rwa [hfs] at hknown
  · exact h

/-- The limits leave room for a log of every name and for the bytes in the files, in the cache and still to come. -/
structure Spare (names : List Time) (bytes : Nat) (s : Logfs) : Prop where
  known : Known s.logList s.fs.dir
  files : ∀ t, s.fs.dir.find t ≠ none → t ∈ names
  logs : s.maxLogs = 0 ∨ names.dedup.length < s.maxLogs
  size : s.maxSize = 0 ∨ dirBytes s.fs.dir + s.cache.buffer.content.length + bytes ≤ s.maxSize

section Flush

variable {names : List Time} {bytes : Nat} {s : Logfs} (h : Spare names bytes s)

include h

theorem Spare.reclaim_eq {bytesToAppend : Nat} (hbytes : bytesToAppend ≤ s.cache.buffer.content.length + bytes) :
    reclaim s bytesToAppend = scanIfEmpty s := by
  have hknown := known_scanIfEmpty h.known
  have hlength := hknown.length_le h.files
  have htotal := hknown.total_le
  apply reclaim_eq_scanIfEmpty
  · refine h.logs.imp_right fun hlogs => ?_
    split <;> omega
  · refine h.size.imp_right fun hsize => ?_
    omega

/-- A flush deletes nothing then, however far it gets, and leaves the same room. -/
theorem Spare.flush {ts : Time} (hts : ts ∈ names) {bytesToAppend : Nat}
    (hbytes : bytesToAppend ≤ s.cache.buffer.content.length + bytes) :
    Spare names bytes (flushLogcache ts s bytesToAppend) ∧
      (flushLogcache ts s bytesToAppend).reclaimed = s.reclaimed ∧
      (flushLogcache ts s bytesToAppend).cache.buffer.capacity = s.cache.buffer.capacity := by
  have hreclaim := h.reclaim_eq hbytes
  have hknown := known_scanIfEmpty h.known
  obtain ⟨list, memory, hscan⟩ := (relists_scanIfEmpty s).frame
  rw [hscan] at hreclaim hknown
  have hconserves := conserves_drain ts s.cache.buffer.length { s with logList := list, memory := memory }
  have hafter : ∃ list' memory' flushes, flushLogcache ts s bytesToAppend =
        { (drain ts s.cache.buffer.length { s with logList := list, memory := memory }).1 with
          logList := list', memory := memory', flushes := flushes } ∧
      Known list' (drain ts s.cache.buffer.length { s with logList := list, memory := memory }).1.fs.dir := by
    have hframe := hconserves.frame
    simp only [Prod.mk.injEq] at hframe
    have hdrained : Known (drain ts s.cache.buffer.length { s with logList := list, memory := memory }).1.logList
        (drain ts s.cache.buffer.length { s with logList := list, memory := memory }).1.fs.dir := by
      rw [hframe.2.2.1]
      exact hknown.conserves hconserves
    obtain ⟨list', memory', hlist'⟩ := (relists_listFlushed ts
      (drain ts s.cache.buffer.length { s with logList := list, memory := memory }).1).frame
    have hflushed := known_listFlushed hdrained ts
    rw [hlist'] at hflushed
    simp only [flushLogcache, flushCore, hreclaim, hlist']
    split
    · exact ⟨list', memory', _, rfl, hflushed⟩
    · exact ⟨_, _, _, rfl, hdrained⟩
  obtain ⟨list', memory', flushes, hafter, hknown'⟩ := hafter
  rw [hafter]
  generalize (drain ts s.cache.buffer.length { s with logList := list, memory := memory }).1 = d at hconserves hknown' ⊢
  have hframe := hconserves.frame
  simp only [Prod.mk.injEq] at hframe
  obtain ⟨hmaxSize, hmaxLogs, -, hreclaimed, hcapacity⟩ := hframe
  have hsum : dirBytes d.fs.dir + d.cache.buffer.content.length =
    dirBytes s.fs.dir + s.cache.buffer.content.length := hconserves.bytes
  refine ⟨⟨hknown', fun t ht => ?_, ?_, ?_⟩, hreclaimed, hcapacity⟩
  · obtain hnew | hold := hconserves.names t ht
    · exact hnew ▸ hts
    · exact h.files t hold
  · show d.maxLogs = 0 ∨ names.dedup.length < d.maxLogs
    rw [hmaxLogs]
    exact h.logs
  · show d.maxSize = 0 ∨ dirBytes d.fs.dir + d.cache.buffer.content.length + bytes ≤ d.maxSize
    rw [hmaxSize, hsum]
    exact h.size

/-- The bytes a write takes are in the cache instead of still to come. -/
theorem Spare.ringbufWrite {data : List Byte} (hdata : (ringbufWrite s data).2 ≤ bytes) :
    Spare names (bytes - (ringbufWrite s data).2) (ringbufWrite s data).1 := by
  have htaken : (Logfs.ringbufWrite s data).1.cache.buffer.content.length =
      s.cache.buffer.content.length + (Logfs.ringbufWrite s data).2 := by
    show (s.cache.buffer.content ++ data.take _).length = _ + min _ _
    rw [List.length_append, List.length_take]
    rfl
  refine ⟨h.known, h.files, h.logs, h.size.imp_right fun hsize => ?_⟩
  rw [htaken]
  show dirBytes s.fs.dir + _ + _ ≤ s.maxSize
  omega

theorem Spare.changeTimestamp {log : List Byte} (hlog : log.length = bytes) (hts : s.cache.timestamp ∈ names)
    (ts : Time) :
    Spare names bytes (changeTimestamp ts log s) ∧ (changeTimestamp ts log s).reclaimed = s.reclaimed := by
  unfold Logfs.changeTimestamp
  split
  · have hbytes : s.cache.buffer.length + log.length ≤ s.cache.buffer.content.length + bytes :=
      Nat.add_le_add_left (Nat.le_of_eq hlog) _
    obtain ⟨hflush, hreclaimed, -⟩ := h.flush hts hbytes
    generalize flushLogcache s.cache.timestamp s (s.cache.buffer.length + log.length) = s' at hflush hreclaimed ⊢
    exact ⟨⟨hflush.known, hflush.files, hflush.logs, hflush.size⟩, hreclaimed⟩
  · exact ⟨h, rfl⟩

end Flush

/-- The loop of a write finds the cache full at each turn, so the bytes it makes room for are those in the cache and those still to come. -/
theorem Spare.writeLoop {names : List Time} {ts : Time} (hts : ts ∈ names) {log : List Byte} (fuel : Nat) {s : Logfs}
    {written writtenTotal : Nat} (h : Spare names (log.length - writtenTotal) s) (hwritten : written ≤ writtenTotal)
    (hfull : written ≠ 0 ∧ writtenTotal < log.length → s.cache.buffer.content.length = s.cache.buffer.capacity) :
    Known (writeLoop ts log fuel s written writtenTotal).1.logList
        (writeLoop ts log fuel s written writtenTotal).1.fs.dir ∧
      (writeLoop ts log fuel s written writtenTotal).1.reclaimed = s.reclaimed := by
  induction fuel generalizing s written writtenTotal with
  | zero => exact ⟨h.known, rfl⟩
  | succ fuel ih =>
      by_cases hcontinues : written ≠ 0 ∧ writtenTotal < log.length
      · have hbytes : s.cache.buffer.capacity + (log.length - writtenTotal) ≤
            s.cache.buffer.content.length + (log.length - writtenTotal) :=
          Nat.add_le_add_right (Nat.le_of_eq (hfull hcontinues).symm) _
        obtain ⟨hflush, hreclaimed, -⟩ := h.flush hts hbytes
        have hremain : ((log.drop written).take (log.length - writtenTotal)).length = log.length - writtenTotal := by
          rw [List.length_take, List.length_drop]
          omega
        rw [writeLoop_turn ts hcontinues.1 hcontinues.2]
        generalize flushLogcache ts s (s.cache.buffer.capacity + (log.length - writtenTotal)) = s'
          at hflush hreclaimed ⊢
        generalize (log.drop written).take (log.length - writtenTotal) = piece at hremain ⊢
        have htaken : (Logfs.ringbufWrite s' piece).2 =
            min (s'.cache.buffer.capacity - s'.cache.buffer.content.length) (log.length - writtenTotal) := by
          rw [← hremain]
          rfl
        have hnext := hflush.ringbufWrite (show (Logfs.ringbufWrite s' piece).2 ≤ _ by omega)
        rw [Nat.sub_sub] at hnext
        rw [← hreclaimed]
        refine ih hnext (Nat.le_add_left _ _) fun hmore => ?_
        show (s'.cache.buffer.content ++ piece.take _).length = s'.cache.buffer.capacity
        have hfits := s'.cache.buffer.fits
        rw [List.length_append, List.length_take]
        omega
      · rw [Logfs.writeLoop, if_neg hcontinues]
        exact ⟨h.known, rfl⟩

/-! ### Calls -/

/-- Room for logs of the given names beside the files there are, and for more bytes beside those in the files and in the cache. -/
def SparesFor (s : Logfs) (names : List Time) (bytes : Nat) : Prop :=
  (s.maxLogs = 0 ∨ (names ++ s.fs.dir.files.map Prod.fst).dedup.length < s.maxLogs) ∧
    (s.maxSize = 0 ∨ dirBytes s.fs.dir + s.cache.buffer.length + bytes ≤ s.maxSize)

/-- The limits leave room for what the call brings. -/
def Spares (s : Logfs) : Op → Prop
  | .write timestamp log =>
      s.maxSize < log.length ∨ SparesFor s [timestamp, s.cache.timestamp] log.length
  | .flush => SparesFor s [s.cache.timestamp] 0
  | .delete _ | .clear => False

instance (s : Logfs) (names : List Time) (bytes : Nat) : Decidable (SparesFor s names bytes) :=
  inferInstanceAs (Decidable ((_ ∨ _) ∧ (_ ∨ _)))

instance (s : Logfs) : DecidablePred (Spares s)
  | .write _ _ => inferInstanceAs (Decidable (_ ∨ _))
  | .flush => inferInstanceAs (Decidable (SparesFor _ _ _))
  | .delete _ | .clear => isFalse id

theorem SparesFor.spare {s : Logfs} {names : List Time} {bytes : Nat} (h : SparesFor s names bytes)
    (hknown : Known s.logList s.fs.dir) : Spare (names ++ s.fs.dir.files.map Prod.fst) bytes s where
  known := hknown
  files := by
    intro t ht
    obtain ⟨content, hcontent⟩ := Option.ne_none_iff_exists'.1 ht
    have hmem := (s.fs.dir.mem_files_iff t content).2 hcontent
    exact List.mem_append_right _ (List.mem_map.2 ⟨_, hmem, rfl⟩)
  logs := h.1
  size := h.2

theorem spared_step {s : Logfs} {op : Op} (hspares : Spares s op) (hknown : Known s.logList s.fs.dir) :
    Known (step s op).logList (step s op).fs.dir ∧ (step s op).reclaimed = s.reclaimed := by
  cases op with
  | write ts log =>
      rw [step, logfsWrite]
      by_cases hrefused : log.length > s.maxSize
      · rw [if_pos hrefused]
        exact ⟨hknown, rfl⟩
      · rw [if_neg hrefused]
        have hspare := (hspares.resolve_left hrefused).spare hknown
        have hnames : s.cache.timestamp ∈ [ts, s.cache.timestamp] ++ s.fs.dir.files.map Prod.fst :=
          List.mem_cons_of_mem _ List.mem_cons_self
        obtain ⟨hchange, hreclaimed⟩ := hspare.changeTimestamp rfl hnames ts
        have hts : ts ∈ [ts, s.cache.timestamp] ++ s.fs.dir.files.map Prod.fst := List.mem_cons_self
        generalize changeTimestamp ts log s = s' at hchange hreclaimed ⊢
        have htaken : (ringbufWrite s' log).2 = min (s'.cache.buffer.capacity - s'.cache.buffer.content.length) log.length :=
          rfl
        have hwrite := hchange.ringbufWrite (show (ringbufWrite s' log).2 ≤ log.length by omega)
        rw [← hreclaimed]
        refine hwrite.writeLoop hts (log.length + 1) (Nat.le_refl _) fun hmore => ?_
        show (s'.cache.buffer.content ++ log.take _).length = s'.cache.buffer.capacity
        have hfits := s'.cache.buffer.fits
        rw [List.length_append, List.length_take]
        omega
  | flush =>
      have hspare := hspares.spare hknown
      obtain ⟨hflush, hreclaimed, -⟩ := hspare.flush List.mem_cons_self (Nat.le_refl _)
      exact ⟨hflush.known, hreclaimed⟩
  | delete ts => exact absurd hspares id
  | clear => exact absurd hspares id

/-- A run of such calls deletes no log, whichever appends fail. -/
theorem spared_run {s : Logfs} {ops : List Op} (hspares : EveryStep step Spares s ops) (hknown : Known s.logList s.fs.dir) :
    (run step s ops).reclaimed = s.reclaimed := by
  have hstep : ∀ s' op, Known s'.logList s'.fs.dir ∧ s'.reclaimed = s.reclaimed → Spares s' op →
      Known (step s' op).logList (step s' op).fs.dir ∧ (step s' op).reclaimed = s.reclaimed := by
    rintro s' op ⟨hlisted, hreclaimed⟩ hop
    obtain ⟨hlisted', hsame⟩ := spared_step hop hlisted
    exact ⟨hlisted', hsame.trans hreclaimed⟩
  exact (run_conditional_invariant hstep ⟨hknown, rfl⟩ hspares).2

end Evse.Logfs
