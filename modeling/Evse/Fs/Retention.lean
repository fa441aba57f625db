import Evse.Fs.Flush

/-!
# Which logs are kept

Once the directory has been read, the list holds exactly the files in it with their sizes, as far as there was memory to enter them. A reclaim then deletes the oldest of those listed, as many as it takes for one more log and for what the flush is about to append; so the bounds on number and size hold again after the append, unless the log it goes to was missed before.
-/

namespace Evse.Logfs

open StepRun

/-- The list is the directory in order. -/
def Lists (list : List LogFile) (dir : Directory Time Byte) : Prop :=
  SortedList.Sorted LogFile.timestamp list ∧ ∀ file, file ∈ list ↔ file ∈ fsDir dir

/-- The list has files in order, but for those missed: they are listed with no more bytes than they have, or not at all. -/
structure ListsBut (missed : List Time) (list files : List LogFile) : Prop where
  sorted : SortedList.Sorted LogFile.timestamp list
  known : ∀ file ∈ list, ∃ size, (⟨file.timestamp, size⟩ : LogFile) ∈ files ∧ file.size ≤ size
  listed : ∀ file : LogFile, file.timestamp ∉ missed → (file ∈ list ↔ file ∈ files)

/-- The list of a store is its directory, but for the logs that were missed. -/
def Listed (s : Logfs) : Prop := ListsBut s.memory.missed s.logList (fsDir s.fs.dir)

/-- What is promised of a flush: the bounds on what it leaves, that this is the directory as far as there was memory, and that it gave up the oldest of the logs it found and touched no other but its own. -/
structure Retained (maxLogs maxSize : Nat) (flush : Flush) : Prop where
  count : flush.appended ≠ 0 ∨ flush.timestamp ∉ flush.missed → flush.left.length ≤ maxLogs
  size : flush.timestamp ∉ flush.missed → computeTotalSize flush.left ≤ maxSize
  lists : ListsBut flush.unlisted flush.left flush.files
  ordered : SortedList.Sorted LogFile.timestamp flush.found
  oldest : ∃ deleted, flush.found = deleted ++ flush.kept ∧
    ∀ old ∈ deleted, ∀ new ∈ flush.kept, old.timestamp < new.timestamp
  others : ∀ file : LogFile, file.timestamp ≠ flush.timestamp → (file ∈ flush.left ↔ file ∈ flush.kept)

/-! ### The list and the directory -/

theorem mem_fsDir {dir : Directory Time Byte} {file : LogFile} :
    file ∈ fsDir dir ↔ (dir.find file.timestamp).map List.length = some file.size := by
  obtain ⟨ts, size⟩ := file
  rw [fsDir, List.mem_map, Option.map_eq_some_iff]
  constructor
  · rintro ⟨⟨name, content⟩, hmem, heq⟩
    cases heq
    exact ⟨content, (dir.mem_files_iff name content).1 hmem, rfl⟩
  · rintro ⟨content, hfind, hlength⟩
    exact ⟨(ts, content), (dir.mem_files_iff ts content).2 hfind, congrArg (LogFile.mk ts) hlength⟩

theorem mem_fsDir_delete {dir : Directory Time Byte} {ts : Time} {file : LogFile} :
    file ∈ fsDir (dir.delete ts) ↔ file ∈ fsDir dir ∧ file.timestamp ≠ ts := by
  rw [mem_fsDir, mem_fsDir, Directory.find_delete]
  by_cases hts : file.timestamp = ts
  · simp [hts]
  · simp [hts]

theorem listsBut_nil_iff {list : List LogFile} {dir : Directory Time Byte} :
    ListsBut [] list (fsDir dir) ↔ Lists list dir := by
  constructor
  · exact fun h => ⟨h.sorted, fun file => h.listed file List.not_mem_nil⟩
  · exact fun h => ⟨h.1, fun file hfile => ⟨file.size, (h.2 file).1 hfile, Nat.le_refl _⟩, fun file _ => h.2 file⟩

theorem Listed.lists {s : Logfs} (h : Listed s) (hplenty : Plenty s) : Lists s.logList s.fs.dir := by
  unfold Listed at h
  rw [hplenty.2] at h
  exact listsBut_nil_iff.1 h

/-- A file that grew, or a new one, is entered with its size, or missed. -/
theorem ListsBut.addList {s : Logfs} {files files' : List LogFile} (h : ListsBut s.memory.missed s.logList files)
    {ts : Time} {n : Nat}
    (hfiles : ∀ file : LogFile, file ∈ files' ↔ file = ⟨ts, n⟩ ∨ file ∈ files ∧ file.timestamp ≠ ts)
    (hgrown : ∀ size, (⟨ts, size⟩ : LogFile) ∈ files → size ≤ n) :
    ListsBut (addList s ts n).memory.missed (addList s ts n).logList files' := by
  have hknown : ∀ file ∈ s.logList, ∃ size, (⟨file.timestamp, size⟩ : LogFile) ∈ files' ∧ file.size ≤ size := by
    intro file hfile
    obtain ⟨size, hmem, hsize⟩ := h.known file hfile
    by_cases hts : file.timestamp = ts
    · rw [hts] at hmem ⊢
      exact ⟨n, (hfiles _).2 (.inl rfl), Nat.le_trans hsize (hgrown size hmem)⟩
    · exact ⟨size, (hfiles _).2 (.inr ⟨hmem, hts⟩), hsize⟩
  rw [addList_eq]
  split
  · refine ⟨h.sorted, hknown, fun file hmissed => ?_⟩
    obtain ⟨hts, hmissed⟩ := not_or.1 (List.mem_cons.not.1 hmissed)
    have hne : file ≠ ⟨ts, n⟩ := fun heq => hts (congrArg LogFile.timestamp heq)
    rw [hfiles, or_iff_right hne, and_iff_left hts]
    exact h.listed file hmissed
  · refine ⟨SortedList.sorted_insert h.sorted _, fun file hfile => ?_, fun file hmissed => ?_⟩
    · obtain hnew | ⟨hold, -⟩ := (SortedList.mem_insert h.sorted).1 hfile
      · rw [hnew]
        exact ⟨n, (hfiles _).2 (.inl rfl), Nat.le_refl n⟩
      · exact hknown file hold
    · show file ∈ SortedList.insert _ _ _ ↔ _
      rw [SortedList.mem_insert h.sorted, hfiles]
      refine or_congr_right (and_congr_left fun hts => h.listed file fun hmem => hmissed ?_)
      exact List.mem_filter.2 ⟨hmem, decide_eq_true hts⟩

/-- The files of a directory, entered one after the other. -/
theorem listsBut_foldl_addList (done rest : List LogFile) {s : Logfs} (h : ListsBut s.memory.missed s.logList done)
    (hnodup : ((done ++ rest).map LogFile.timestamp).Nodup) :
    ListsBut (rest.foldl (fun s file => addList s file.timestamp file.size) s).memory.missed
      (rest.foldl (fun s file => addList s file.timestamp file.size) s).logList (done ++ rest) := by
  induction rest generalizing done s with
  | nil => rwa [List.append_nil]
  | cons file rest ih =>
      have hfresh : ∀ other ∈ done, other.timestamp ≠ file.timestamp := by
        rw [List.map_append, List.map_cons, List.nodup_append] at hnodup
        exact fun other hother => hnodup.2.2 _ (List.mem_map_of_mem hother) _ List.mem_cons_self
      have hfiles : ∀ other : LogFile, other ∈ done ++ [file] ↔
          other = ⟨file.timestamp, file.size⟩ ∨ other ∈ done ∧ other.timestamp ≠ file.timestamp := by
        intro other
        rw [List.mem_append, List.mem_singleton, or_comm]
        exact or_congr_right (and_iff_left_of_imp (hfresh other)).symm
      have hnext := ih (done ++ [file]) (h.addList hfiles fun size hmem => absurd rfl (hfresh ⟨file.timestamp, size⟩ hmem))
      rw [List.append_assoc, List.singleton_append] at hnext
      exact hnext hnodup

theorem listed_scan {s : Logfs} (hempty : s.logList = []) : Listed (scan s) := by
  have hkeys : ((fsDir s.fs.dir).map LogFile.timestamp).Nodup := by
    rw [fsDir, List.map_map]
    exact s.fs.dir.nodup
  have hnone : ListsBut s.memory.missed s.logList [] := by
    rw [hempty]
    exact ⟨SortedList.sorted_nil, fun _ hfile => absurd hfile List.not_mem_nil, fun _ _ => Iff.rfl⟩
  obtain ⟨list, memory, hscan⟩ := (relists_scan s).frame
  have hfs : (scan s).fs = s.fs := by rw [hscan]
  unfold Listed
  rw [hfs]
  exact listsBut_foldl_addList [] (fsDir s.fs.dir) hnone hkeys

theorem ListsBut.delete {missed : List Time} {list : List LogFile} {dir : Directory Time Byte}
    (h : ListsBut missed list (fsDir dir)) (ts : Time) :
    ListsBut (missed.filter (· ≠ ts)) (SortedList.remove LogFile.timestamp ts list).1 (fsDir (dir.delete ts)) := by
  refine ⟨h.sorted.remove ts, fun file hfile => ?_, fun file hmissed => ?_⟩
  · obtain ⟨hmem, hts⟩ := (SortedList.mem_remove h.sorted).1 hfile
    obtain ⟨size, hsize, hle⟩ := h.known file hmem
    exact ⟨size, mem_fsDir_delete.2 ⟨hsize, hts⟩, hle⟩
  · rw [SortedList.mem_remove h.sorted, mem_fsDir_delete]
    refine and_congr_left fun hts => h.listed file fun hmem => hmissed ?_
    exact List.mem_filter.2 ⟨hmem, decide_eq_true hts⟩

/-- A listed log is in the directory. -/
theorem Listed.find {s : Logfs} (h : Listed s) {file : LogFile} (hfile : file ∈ s.logList) :
    ∃ content, s.fs.dir.find file.timestamp = some content ∧ file.size ≤ content.length := by
  obtain ⟨size, hmem, hsize⟩ := h.known file hfile
  obtain ⟨content, hfind, hlength⟩ := Option.map_eq_some_iff.1 (mem_fsDir.1 hmem)
  exact ⟨content, hfind, hlength.symm ▸ hsize⟩

/-! ### Reclaiming from the front -/

/-- The first logs of the list are gone, from the list and from the directory. -/
structure Drops (s s' : Logfs) : Prop where
  drop : ∃ n, s'.logList = s.logList.drop n
  listed : Listed s'

theorem Drops.refl {s : Logfs} (h : Listed s) : Drops s s := ⟨⟨0, rfl⟩, h⟩

theorem Drops.trans {s s' s'' : Logfs} (h : Drops s s') (h' : Drops s' s'') : Drops s s'' where
  drop := by
    obtain ⟨n, hn⟩ := h.drop
    obtain ⟨n', hn'⟩ := h'.drop
    exact ⟨n + n', by rw [hn', hn, List.drop_drop]⟩
  listed := h'.listed

theorem reclaimLog_first {s : Logfs} (h : Listed s) {file : LogFile} {rest : List LogFile}
    (hlist : s.logList = file :: rest) :
    (reclaimLog s file.timestamp).logList = rest ∧ Drops s (reclaimLog s file.timestamp) := by
  obtain ⟨content, hfind, -⟩ := h.find (hlist ▸ List.mem_cons_self)
  have hremove : (SortedList.remove LogFile.timestamp file.timestamp s.logList).1 = rest := by
    rw [hlist, SortedList.remove, if_pos rfl]
  have hdelete := ListsBut.delete h file.timestamp
  rw [hremove] at hdelete
  simp only [reclaimLog, deleteLog, hfind, hremove]
  refine ⟨trivial, ⟨1, ?_⟩, hdelete⟩
  rw [hlist]
  rfl

theorem drops_reclaimFirst (n : Nat) {s : Logfs} (h : Listed s) :
    (reclaimFirst n s).logList = s.logList.drop n ∧ Drops s (reclaimFirst n s) := by
  induction n generalizing s with
  | zero => exact ⟨rfl, .refl h⟩
  | succ n ih =>
      rw [reclaimFirst]
      cases hlist : s.logList with
      | nil => exact ⟨hlist, .refl h⟩
      | cons file rest =>
          obtain ⟨hrest, hdrops⟩ := reclaimLog_first h hlist
          obtain ⟨hdrop, hdrops'⟩ := ih hdrops.listed
          exact ⟨hdrop.trans (by rw [hrest]; rfl), hdrops.trans hdrops'⟩

/-- There is room for what is to be appended, or nothing is left to reclaim. -/
def Roomy (bytesToAppend : Nat) (s : Logfs) : Prop :=
  s.logList = [] ∨ computeTotalSize s.logList + bytesToAppend ≤ s.maxSize

theorem drops_reclaimUntil (bytesToAppend : Nat) (list : List LogFile) {s : Logfs} (h : Listed s)
    (hlist : s.logList = list) :
    Drops s (reclaimUntil bytesToAppend list s) ∧ Roomy bytesToAppend (reclaimUntil bytesToAppend list s) := by
  induction list generalizing s with
  | nil => exact ⟨.refl h, .inl hlist⟩
  | cons file rest ih =>
      obtain ⟨hrest, hdrops⟩ := reclaimLog_first h hlist
      simp only [reclaimUntil]
      split
      · rename_i hroom
        exact ⟨hdrops, .inr hroom⟩
      · obtain ⟨hdrops', hroomy⟩ := ih hdrops.listed hrest
        exact ⟨hdrops.trans hdrops', hroomy⟩

theorem drops_reclaimByCount {s : Logfs} (h : Listed s) (n : Nat) : Drops s (reclaimByCount s n) := by
  unfold reclaimByCount
  split
  · exact .refl h
  · exact (drops_reclaimFirst _ h).2

theorem length_reclaimByCount {s : Logfs} (h : Listed s) (hlogs : s.maxLogs ≠ 0) {n : Nat} (hn : n ≤ 1) :
    (reclaimByCount s n).logList.length + n ≤ s.maxLogs := by
  unfold reclaimByCount
  split
  · rename_i hcase
    exact hcase.resolve_left hlogs
  · rw [(drops_reclaimFirst (s.logList.length + n - s.maxLogs) h).1, List.length_drop]
    omega

theorem drops_reclaimBySize {s : Logfs} (h : Listed s) (bytesToAppend : Nat) :
    Drops s (reclaimBySize s bytesToAppend) := by
  unfold reclaimBySize
  split
  · exact .refl h
  · exact (drops_reclaimUntil bytesToAppend s.logList h rfl).1

theorem roomy_reclaimBySize {s : Logfs} (h : Listed s) (hsize : s.maxSize ≠ 0) (bytesToAppend : Nat) :
    Roomy bytesToAppend (reclaimBySize s bytesToAppend) := by
  unfold reclaimBySize
  split
  · rename_i hcase
    exact .inr (hcase.resolve_left hsize)
  · exact (drops_reclaimUntil bytesToAppend s.logList h rfl).2

theorem listed_scanIfEmpty {s : Logfs} (h : s.logList = [] ∨ Listed s) : Listed (scanIfEmpty s) := by
  unfold scanIfEmpty
  split
  · rename_i hempty
    exact listed_scan (List.isEmpty_iff.1 hempty)
  · rename_i hne
    exact h.resolve_left fun hempty => hne (List.isEmpty_iff.2 hempty)

section Reclaim

variable {s : Logfs} (h : s.logList = [] ∨ Listed s) (bytesToAppend : Nat)

include h

theorem drops_reclaim : Drops (scanIfEmpty s) (reclaim s bytesToAppend) := by
  have hdrops := drops_reclaimByCount (listed_scanIfEmpty h) (if bytesToAppend = 0 then 0 else 1)
  exact hdrops.trans (drops_reclaimBySize hdrops.listed bytesToAppend)

/-- A reclaim before bytes are appended makes room for one more log. -/
theorem length_reclaim (hlogs : s.maxLogs ≠ 0) :
    (reclaim s bytesToAppend).logList.length + (if bytesToAppend = 0 then 0 else 1) ≤ s.maxLogs := by
  have hlimit := (steps_scanIfEmpty s).reclaims.maxLogs
  have hn : (if bytesToAppend = 0 then 0 else 1) ≤ 1 := by split <;> omega
  have hlength := length_reclaimByCount (listed_scanIfEmpty h) (by rwa [hlimit]) hn
  have hdrops := drops_reclaimByCount (listed_scanIfEmpty h) (if bytesToAppend = 0 then 0 else 1)
  obtain ⟨n, hdrop⟩ := (drops_reclaimBySize hdrops.listed bytesToAppend).drop
  rw [hlimit] at hlength
  show (reclaimBySize _ bytesToAppend).logList.length + _ ≤ _
  rw [hdrop, List.length_drop]
  omega

/-- It makes room for the bytes too. -/
theorem roomy_reclaim (hsize : s.maxSize ≠ 0) : Roomy bytesToAppend (reclaim s bytesToAppend) := by
  have hscan := (steps_scanIfEmpty s).reclaims.maxSize
  have hcount := (steps_reclaimByCount (scanIfEmpty s) (if bytesToAppend = 0 then 0 else 1)).reclaims.maxSize
  have hdrops := drops_reclaimByCount (listed_scanIfEmpty h) (if bytesToAppend = 0 then 0 else 1)
  exact roomy_reclaimBySize hdrops.listed (by rwa [hcount, hscan]) bytesToAppend

end Reclaim

/-! ### The whole flush -/

section Entry

variable {s : Logfs} (hsorted : SortedList.Sorted LogFile.timestamp s.logList) (ts : Time) (n : Nat)

include hsorted

theorem mem_addList {file : LogFile} (hts : file.timestamp ≠ ts) : file ∈ (addList s ts n).logList ↔ file ∈ s.logList := by
  rw [addList_eq]
  split
  · rfl
  · show file ∈ SortedList.insert _ _ _ ↔ _
    have hne : file ≠ ⟨ts, n⟩ := fun heq => hts (congrArg LogFile.timestamp heq)
    rw [SortedList.mem_insert hsorted, or_iff_right hne, and_iff_left hts]

theorem length_addList_of_listed (hlisted : ts ∈ s.logList.map LogFile.timestamp) :
    (addList s ts n).logList.length = s.logList.length := by
  obtain ⟨file, hfile, hts⟩ := List.mem_map.1 hlisted
  rw [addList_eq]
  split
  · rfl
  · exact (SortedList.insert_of_mem hsorted hfile hts LogFile.size).1

theorem length_addList_le : (addList s ts n).logList.length ≤ s.logList.length + 1 := by
  by_cases hlisted : ts ∈ s.logList.map LogFile.timestamp
  · rw [length_addList_of_listed hsorted ts n hlisted]
    exact Nat.le_succ _
  · have hnot : ∀ file ∈ s.logList, file.timestamp ≠ ts := fun file hfile hts => hlisted (List.mem_map.2 ⟨file, hfile, hts⟩)
    rw [addList_eq]
    split
    · exact Nat.le_succ _
    · exact Nat.le_of_eq (SortedList.insert_of_not_mem (x := (⟨ts, n⟩ : LogFile)) hnot LogFile.size).1

/-- The sizes in the list grow by what the file grew since it was entered, if there is memory. -/
theorem total_addList {old : Nat}
    (hold : (∀ file ∈ s.logList, file.timestamp ≠ ts) ∧ old = 0 ∨ (⟨ts, old⟩ : LogFile) ∈ s.logList) :
    computeTotalSize (addList s ts n).logList + old = computeTotalSize s.logList + n ∨
      s.memory.fails.head? = some true ∧ (addList s ts n).logList = s.logList := by
  rw [addList_eq]
  split
  · rename_i hfails
    exact .inr ⟨hfails, rfl⟩
  · refine .inl ?_
    obtain ⟨hnot, hzero⟩ | hmem := hold
    · rw [hzero]
      exact (SortedList.insert_of_not_mem (x := (⟨ts, n⟩ : LogFile)) hnot LogFile.size).2
    · exact (SortedList.insert_of_mem (x := (⟨ts, n⟩ : LogFile)) hsorted hmem rfl LogFile.size).2

end Entry

/-- A log that was not missed is listed with its size, or there is nothing in it. -/
theorem Listed.stored_cases {s : Logfs} (h : Listed s) {ts : Time} (hmissed : ts ∉ s.memory.missed) :
    (∀ file ∈ s.logList, file.timestamp ≠ ts) ∧ stored s ts = [] ∨
      (⟨ts, (stored s ts).length⟩ : LogFile) ∈ s.logList := by
  unfold stored
  cases hfind : s.fs.dir.find ts with
  | none =>
      refine .inl ⟨fun file hfile hts => ?_, rfl⟩
      obtain ⟨content, hcontent, -⟩ := h.find hfile
      rw [hts, hfind] at hcontent
      cases hcontent
  | some content =>
      refine .inr ((h.listed ⟨ts, content.length⟩ hmissed).2 (mem_fsDir.2 ?_))
      show (s.fs.dir.find ts).map List.length = _
      rw [hfind]
      rfl

section Drained

variable {ts : Time} {s d : Logfs} (hdrained : Drained ts s d)

include hdrained

theorem Drained.logList : d.logList = s.logList := congrArg (fun settings => settings.2.2.2.1) hdrained.settings

theorem Drained.memory : d.memory = s.memory := congrArg (fun settings => settings.2.2.2.2.1) hdrained.settings

/-- What the tail of a flush enters is the file with what was appended to it, unless that is nothing. -/
theorem Drained.listFlushed_cases :
    s.cache.buffer.content = [] ∧ listFlushed ts d = d ∨
      stored s ts ++ s.cache.buffer.content ≠ [] ∧
        d.fs.dir.find ts = some (stored s ts ++ s.cache.buffer.content) ∧
        listFlushed ts d = addList d ts (stored s ts ++ s.cache.buffer.content).length := by
  have hfind := hdrained.find ts
  unfold stored at hfind ⊢
  unfold listFlushed fsSize
  by_cases hempty : s.cache.buffer.content = []
  · rw [if_neg fun hne => hne.2 hempty] at hfind
    rw [hfind, hempty]
    cases s.fs.dir.find ts with
    | none => exact .inl ⟨rfl, rfl⟩
    | some content =>
        rw [Option.getD_some, List.append_nil]
        by_cases hcontent : content = []
        · exact .inl ⟨rfl, if_neg (by rw [hcontent]; exact Nat.lt_irrefl 0)⟩
        · exact .inr ⟨hcontent, rfl, if_pos (List.length_pos_iff.2 hcontent)⟩
  · rw [if_pos ⟨rfl, hempty⟩] at hfind
    have hne := List.append_ne_nil_of_right_ne_nil ((s.fs.dir.find ts).getD []) hempty
    rw [hfind]
    exact .inr ⟨hne, rfl, if_pos (List.length_pos_iff.2 hne)⟩

theorem Drained.find_of_ne {t : Time} (ht : t ≠ ts) : d.fs.dir.find t = s.fs.dir.find t := by
  rw [hdrained.find, if_neg fun heq => ht heq.1]

/-- The list after the drain of a cache. -/
theorem listed_listFlushed (h : Listed s) :
    ListsBut (listFlushed ts d).memory.missed (listFlushed ts d).logList (fsDir d.fs.dir) := by
  have hkept : ListsBut d.memory.missed d.logList (fsDir s.fs.dir) := by
    rw [hdrained.logList, hdrained.memory]
    exact h
  obtain ⟨hempty, hsame⟩ | ⟨-, hfind, hentered⟩ := hdrained.listFlushed_cases
  · have hdir : ∀ file : LogFile, file ∈ fsDir d.fs.dir ↔ file ∈ fsDir s.fs.dir := by
      intro file
      rw [mem_fsDir, mem_fsDir, hdrained.find, if_neg fun hne => hne.2 hempty]
    rw [hsame]
    refine ⟨hkept.sorted, fun file hfile => ?_, fun file hmissed => (hkept.listed file hmissed).trans (hdir file).symm⟩
    obtain ⟨size, hmem, hsize⟩ := hkept.known file hfile
    exact ⟨size, (hdir _).2 hmem, hsize⟩
  · rw [hentered]
    refine hkept.addList (fun file => ?_) fun size hmem => ?_
    · by_cases hts : file.timestamp = ts
      · obtain ⟨ts', size⟩ := file
        cases hts
        simp [mem_fsDir, hfind, eq_comm]
      · have hne : file ≠ ⟨ts, (stored s ts ++ s.cache.buffer.content).length⟩ :=
          fun heq => hts (congrArg LogFile.timestamp heq)
        rw [mem_fsDir, mem_fsDir, hdrained.find_of_ne hts, or_iff_right hne, and_iff_left hts]
    · rw [mem_fsDir] at hmem
      obtain ⟨content, hcontent, hlength⟩ := Option.map_eq_some_iff.1 hmem
      have hlength' : content.length = size := hlength
      have hstored : stored s ts = content := by
        rw [stored, hcontent]
        rfl
      rw [hstored, List.length_append, hlength']
      exact Nat.le_add_right _ _

section Bounds

variable (hsorted : SortedList.Sorted LogFile.timestamp s.logList)

include hsorted

theorem length_listFlushed_of_listed (hlisted : ts ∈ s.logList.map LogFile.timestamp) :
    (listFlushed ts d).logList.length = s.logList.length := by
  obtain ⟨-, hsame⟩ | ⟨-, -, hentered⟩ := hdrained.listFlushed_cases
  · rw [hsame, hdrained.logList]
  · rw [← hdrained.logList] at hsorted hlisted ⊢
    rw [hentered]
    exact length_addList_of_listed hsorted ts _ hlisted

theorem length_listFlushed_le : (listFlushed ts d).logList.length ≤ s.logList.length + 1 := by
  obtain ⟨-, hsame⟩ | ⟨-, -, hentered⟩ := hdrained.listFlushed_cases
  · rw [hsame, hdrained.logList]
    exact Nat.le_succ _
  · rw [← hdrained.logList] at hsorted ⊢
    rw [hentered]
    exact length_addList_le hsorted ts _

/-- No other log is touched. -/
theorem mem_listFlushed {file : LogFile} (hts : file.timestamp ≠ ts) :
    file ∈ (listFlushed ts d).logList ↔ file ∈ s.logList := by
  obtain ⟨-, hsame⟩ | ⟨-, -, hentered⟩ := hdrained.listFlushed_cases
  · rw [hsame, hdrained.logList]
  · rw [← hdrained.logList] at hsorted ⊢
    rw [hentered]
    exact mem_addList hsorted ts _ hts

end Bounds

section Bounds

variable (h : Listed s) (hmissed : ts ∉ s.memory.missed)

include h hmissed

/-- Without bytes to append no log is entered that was not missed. -/
theorem length_listFlushed_of_nothing (hempty : s.cache.buffer.content = []) :
    (listFlushed ts d).logList.length = s.logList.length := by
  obtain ⟨-, hsame⟩ | ⟨hne, -, -⟩ := hdrained.listFlushed_cases
  · rw [hsame, hdrained.logList]
  · rw [hempty, List.append_nil] at hne
    obtain ⟨-, hnone⟩ | hmem := h.stored_cases hmissed
    · exact absurd hnone hne
    · exact length_listFlushed_of_listed hdrained h.sorted (List.mem_map.2 ⟨_, hmem, rfl⟩)

theorem total_listFlushed :
    computeTotalSize (listFlushed ts d).logList = computeTotalSize s.logList + s.cache.buffer.content.length ∨
      s.memory.fails.head? = some true ∧ (listFlushed ts d).logList = s.logList := by
  obtain ⟨hempty, hsame⟩ | ⟨-, -, hentered⟩ := hdrained.listFlushed_cases
  · rw [hsame, hdrained.logList, hempty]
    exact .inl rfl
  · have hold : (∀ file ∈ d.logList, file.timestamp ≠ ts) ∧ (stored s ts).length = 0 ∨
        (⟨ts, (stored s ts).length⟩ : LogFile) ∈ d.logList := by
      rw [hdrained.logList]
      exact (h.stored_cases hmissed).imp_left (And.imp_right List.length_eq_zero_iff.2)
    have hsorted := h.sorted
    rw [← hdrained.logList] at hsorted
    have htotal := total_addList hsorted ts (stored s ts ++ s.cache.buffer.content).length hold
    rw [hentered, ← hdrained.logList, ← hdrained.memory]
    rw [List.length_append] at htotal ⊢
    exact htotal.imp_left fun hsum => by omega

end Bounds

end Drained

/-- What a reclaim keeps is newer than what it deletes. -/
theorem Drops.oldest {s s' : Logfs} (h : Drops s s') (hlisted : Listed s) :
    ∃ deleted, s.logList = deleted ++ s'.logList ∧
      ∀ old ∈ deleted, ∀ new ∈ s'.logList, old.timestamp < new.timestamp := by
  obtain ⟨n, hn⟩ := h.drop
  have hsplit : s.logList = s.logList.take n ++ s'.logList := by rw [hn, List.take_append_drop]
  have hsorted := hlisted.sorted
  rw [SortedList.Sorted, hsplit, List.pairwise_append] at hsorted
  exact ⟨_, hsplit, hsorted.2.2⟩

/-- The record a flush leaves, and the list and the directory it speaks of. -/
theorem flushLogcache_recorded {s : Logfs} (hreliable : Reliable s) (ts : Time) (bytesToAppend : Nat) :
    ∃ d, Drained ts (reclaim s bytesToAppend) d ∧
      (flushLogcache ts s bytesToAppend).logList = (listFlushed ts d).logList ∧
      (flushLogcache ts s bytesToAppend).memory = (listFlushed ts d).memory ∧
      (flushLogcache ts s bytesToAppend).fs.dir = d.fs.dir ∧
      (flushLogcache ts s bytesToAppend).reclaimed = (reclaim s bytesToAppend).reclaimed ∧
      (flushLogcache ts s bytesToAppend).flushes = s.flushes ++
        [{ timestamp := ts, appended := s.cache.buffer.length, found := (scanIfEmpty s).logList,
           kept := (reclaim s bytesToAppend).logList, missed := (reclaim s bytesToAppend).memory.missed,
           left := (listFlushed ts d).logList, files := fsDir d.fs.dir, unlisted := (listFlushed ts d).memory.missed }] := by
  obtain ⟨d, hdrained, hflush⟩ := flushCore_eq ts hreliable bytesToAppend
  obtain ⟨list, memory, hlist⟩ := (relists_listFlushed ts d).frame
  have hreclaims := (steps_reclaim s bytesToAppend).reclaims.frame
  have hsettings := hdrained.settings
  simp only [settings, Prod.mk.injEq] at hreclaims hsettings
  have hflushes : d.flushes = s.flushes := hsettings.2.2.2.2.2.2.1.trans hreclaims.2.2.2.1
  refine ⟨d, hdrained, ?_⟩
  simp only [flushLogcache, hflush, hlist, hflushes]
  exact ⟨trivial, trivial, trivial, hsettings.2.2.2.2.2.1, trivial⟩

/-- The store between two calls. The list stays empty up to the first flush. -/
structure Retains (maxLogs maxSize : Nat) (s : Logfs) : Prop where
  reliable : Reliable s
  limits : s.maxLogs = maxLogs ∧ s.maxSize = maxSize
  capacity : s.cache.buffer.capacity ≤ maxSize
  listed : s.flushes = [] ∧ s.logList = [] ∨ Listed s
  retained : ∀ flush ∈ s.flushes, Retained maxLogs maxSize flush

/-- Neither the cached bytes nor their timestamp matter. -/
theorem Retains.cache {maxLogs maxSize : Nat} {s : Logfs} (h : Retains maxLogs maxSize s) {cache : Cache}
    (hcapacity : cache.buffer.capacity = s.cache.buffer.capacity) : Retains maxLogs maxSize { s with cache := cache } :=
  ⟨h.reliable, h.limits, hcapacity ▸ h.capacity, h.listed, h.retained⟩

theorem Retains.ringbufWrite {maxLogs maxSize : Nat} {s : Logfs} (h : Retains maxLogs maxSize s) (data : List Byte) :
    Retains maxLogs maxSize (ringbufWrite s data).1 := h.cache rfl

/-- A directory after deletions. -/
theorem find_foldl_delete (list : List LogFile) (dir : Directory Time Byte) (t : Time) :
    (list.foldl (fun dir file => dir.delete file.timestamp) dir).find t =
      if t ∈ list.map LogFile.timestamp then none else dir.find t := by
  induction list generalizing dir with
  | nil => rfl
  | cons file list ih =>
      rw [List.foldl_cons, ih, Directory.find_delete, List.map_cons]
      by_cases hmem : t ∈ list.map LogFile.timestamp
      · rw [if_pos hmem, if_pos (List.mem_cons_of_mem _ hmem)]
      · by_cases hts : t = file.timestamp
        · rw [if_neg hmem, if_pos hts, if_pos (hts ▸ List.mem_cons_self)]
        · rw [if_neg hmem, if_neg hts, if_neg fun hcons => (List.mem_cons.1 hcons).elim hts hmem]

theorem listed_logfsDelete {s : Logfs} (h : Listed s) (ts : Time) : Listed (logfsDelete s ts).1 := by
  unfold logfsDelete deleteLog
  split
  · exact h
  · exact ListsBut.delete h ts

theorem sublist_logfsDelete (s : Logfs) (ts : Time) : (logfsDelete s ts).1.logList.Sublist s.logList := by
  unfold logfsDelete deleteLog
  split
  · exact List.Sublist.refl s.logList
  · exact SortedList.remove_sublist ts s.logList

theorem logfsDelete_frame (s : Logfs) (ts : Time) :
    ∃ dir list missed, (logfsDelete s ts).1 = { s with fs.dir := dir, logList := list, memory.missed := missed } := by
  unfold logfsDelete deleteLog
  split
  · exact ⟨s.fs.dir, s.logList, s.memory.missed, rfl⟩
  · exact ⟨_, _, _, rfl⟩

theorem retains_logfsDelete {maxLogs maxSize : Nat} {s : Logfs} (h : Retains maxLogs maxSize s) (ts : Time) :
    Retains maxLogs maxSize (logfsDelete s ts).1 := by
  have hlisted : (logfsDelete s ts).1.flushes = [] ∧ (logfsDelete s ts).1.logList = [] ∨ Listed (logfsDelete s ts).1 := by
    cases h.listed with
    | inl hunread =>
        have hsublist := sublist_logfsDelete s ts
        obtain ⟨dir, list, missed, hframe⟩ := logfsDelete_frame s ts
        rw [hunread.2, List.sublist_nil] at hsublist
        exact .inl ⟨by rw [hframe]; exact hunread.1, hsublist⟩
    | inr hlisted => exact .inr (listed_logfsDelete hlisted ts)
  obtain ⟨dir, list, missed, hframe⟩ := logfsDelete_frame s ts
  rw [hframe] at hlisted ⊢
  exact ⟨h.reliable, h.limits, h.capacity, hlisted, h.retained⟩

theorem listed_logfsClear {s : Logfs} (h : Listed s) : Listed (logfsClear s) := by
  refine ⟨SortedList.sorted_nil, fun _ hfile => absurd hfile List.not_mem_nil, fun file hmissed => ?_⟩
  refine iff_of_false List.not_mem_nil fun hfile => ?_
  -- A file still there was not listed, so it was missed, and that is still so.
  rw [logfsClear, mem_fsDir, find_foldl_delete] at hfile
  split at hfile
  · cases hfile
  · rename_i hnot
    by_cases hmem : file.timestamp ∈ s.memory.missed
    · exact hmissed (List.mem_filter.2 ⟨hmem, decide_eq_true hnot⟩)
    · exact hnot (List.mem_map_of_mem ((h.listed file hmem).2 (mem_fsDir.2 hfile)))

theorem retains_logfsClear {maxLogs maxSize : Nat} {s : Logfs} (h : Retains maxLogs maxSize s) :
    Retains maxLogs maxSize (logfsClear s) :=
  ⟨h.reliable, h.limits, h.capacity, h.listed.imp (fun hunread => ⟨hunread.1, rfl⟩) listed_logfsClear, h.retained⟩

section Run

variable {maxLogs maxSize : Nat} (hlogs : maxLogs ≠ 0) (hsize : maxSize ≠ 0) {s : Logfs}

include hlogs hsize

theorem retained_flush (h : Retains maxLogs maxSize s) (ts : Time) {bytesToAppend : Nat}
    (hbytes : s.cache.buffer.content.length ≤ bytesToAppend) {d : Logfs}
    (hdrained : Drained ts (reclaim s bytesToAppend) d) :
    Retained maxLogs maxSize
      { timestamp := ts, appended := s.cache.buffer.length, found := (scanIfEmpty s).logList,
        kept := (reclaim s bytesToAppend).logList, missed := (reclaim s bytesToAppend).memory.missed,
        left := (listFlushed ts d).logList, files := fsDir d.fs.dir, unlisted := (listFlushed ts d).memory.missed } := by
  have hlisted : s.logList = [] ∨ Listed s := h.listed.imp_left And.right
  have hdrops := drops_reclaim hlisted bytesToAppend
  have hcount := length_reclaim hlisted bytesToAppend (by rwa [h.limits.1])
  have hroomy := roomy_reclaim hlisted bytesToAppend (by rwa [h.limits.2])
  have hcache := (steps_reclaim s bytesToAppend).reclaims.cache
  have hlimit := (steps_reclaim s bytesToAppend).reclaims.maxSize
  have hfound := listed_scanIfEmpty hlisted
  refine ⟨fun happends => ?_, fun hmissed => ?_, listed_listFlushed hdrained hdrops.listed, hfound.sorted,
    hdrops.oldest hfound, fun file hts => mem_listFlushed hdrained hdrops.listed.sorted hts⟩
  · show (listFlushed ts d).logList.length ≤ maxLogs
    rw [h.limits.1] at hcount
    by_cases hempty : s.cache.buffer.content = []
    · -- Nothing was counted in advance, so nothing may be entered.
      have hmissed := happends.resolve_left (not_not.2 (congrArg List.length hempty))
      rw [length_listFlushed_of_nothing hdrained hdrops.listed hmissed (by rw [hcache]; exact hempty)]
      exact Nat.le_trans (Nat.le_add_right _ _) hcount
    · have hpos := List.length_pos_iff.2 hempty
      rw [if_neg (by omega)] at hcount
      exact Nat.le_trans (length_listFlushed_le hdrained hdrops.listed.sorted) hcount
  · have hfits := s.cache.buffer.fits
    have hcapacity := h.capacity
    have htotal : computeTotalSize (listFlushed ts d).logList ≤
        computeTotalSize (reclaim s bytesToAppend).logList + s.cache.buffer.content.length := by
      obtain hsum | ⟨-, hsame⟩ := total_listFlushed hdrained hdrops.listed hmissed
      · rw [hsum, hcache]
      · rw [hsame]
        exact Nat.le_add_right _ _
    show computeTotalSize (listFlushed ts d).logList ≤ maxSize
    cases hroomy with
    | inl hnone =>
        have hzero : computeTotalSize [] = 0 := rfl
        rw [hnone, hzero] at htotal
        omega
    | inr hroom =>
        rw [hlimit, h.limits.2] at hroom
        omega

theorem retains_flushLogcache (h : Retains maxLogs maxSize s) (ts : Time) {bytesToAppend : Nat}
    (hbytes : s.cache.buffer.content.length ≤ bytesToAppend) :
    Retains maxLogs maxSize (flushLogcache ts s bytesToAppend) := by
  obtain ⟨d, hdrained, hlist, hmemory, hdir, -, hflushes⟩ := flushLogcache_recorded h.reliable ts bytesToAppend
  have hretained := retained_flush hlogs hsize h ts hbytes hdrained
  have hflushed := flushed_flushLogcache h.reliable ts bytesToAppend
  refine ⟨hflushed.reliable h.reliable, ⟨hflushed.maxLogs.trans h.limits.1, hflushed.maxSize.trans h.limits.2⟩,
    hflushed.capacity ▸ h.capacity, .inr ?_, ?_⟩
  · unfold Listed
    rw [hlist, hmemory, hdir]
    exact hretained.lists
  · rw [hflushes]
    exact List.forall_mem_append.2 ⟨h.retained, List.forall_mem_singleton.2 hretained⟩

theorem retains_step (op : Op) (h : Retains maxLogs maxSize s) : Retains maxLogs maxSize (step s op) := by
  have hpreserved : Preserved (Retains maxLogs maxSize) fun _ => True :=
    { reliable := fun h => h.reliable
      flush := fun h hbytes => retains_flushLogcache hlogs hsize h _ hbytes
      timestamp := fun h _ _ => h.cache rfl
      write := fun h _ => h.ringbufWrite _
      delete := fun h => retains_logfsDelete h _
      clear := fun h => retains_logfsClear h }
  exact hpreserved.step h fun _ _ _ => trivial

end Run

/-- With memory for every node no log is missed. -/
structure Served (s : Logfs) : Prop where
  reliable : Reliable s
  plenty : Plenty s
  flushes : ∀ flush ∈ s.flushes, flush.missed = [] ∧ flush.unlisted = []

theorem served_step {s : Logfs} (op : Op) (h : Served s) : Served (step s op) := by
  have hpreserved : Preserved Served fun _ => True :=
    { reliable := fun h => h.reliable
      flush := fun {s bytesToAppend} h _ => by
        have hflushed := flushed_flushLogcache h.reliable s.cache.timestamp bytesToAppend
        have hplenty := hflushed.plenty h.plenty
        refine ⟨hflushed.reliable h.reliable, hplenty, ?_⟩
        obtain ⟨d, -, -, hmemory, -, -, hflushes⟩ := flushLogcache_recorded h.reliable s.cache.timestamp bytesToAppend
        have hunlisted := hplenty.2
        rw [hmemory] at hunlisted
        have hmissed := ((steps_reclaim s bytesToAppend).reclaims.plenty h.plenty).2
        rw [hflushes]
        exact List.forall_mem_append.2 ⟨h.flushes, List.forall_mem_singleton.2 ⟨hmissed, hunlisted⟩⟩
      timestamp := fun h _ _ => ⟨h.reliable, h.plenty, h.flushes⟩
      write := fun h _ => ⟨h.reliable, h.plenty, h.flushes⟩
      delete := fun {s ts} h => by
        have hplenty := plenty_deleteLog h.plenty ts
        obtain ⟨dir, list, missed, hframe⟩ := logfsDelete_frame s ts
        have hframe' : (deleteLog s ts).1 = _ := hframe
        rw [hframe'] at hplenty
        rw [hframe]
        exact ⟨h.reliable, hplenty, h.flushes⟩
      clear := fun h => ⟨h.reliable, plenty_logfsClear h.plenty, h.flushes⟩ }
  exact hpreserved.step h fun _ _ _ => trivial

section Runs

variable (fs : Fs) (hreliable : fs.appendFails = []) {maxSize maxLogs cacheSize : Nat} (hlogs : maxLogs ≠ 0)
  (hcapacity : max cacheSize logfsMinCacheSize ≤ maxSize) (mallocFails : List Bool) (ops : List Op)

include hreliable

theorem served_run (hmemory : true ∉ mallocFails) :
    Served (run step (logfsCreate fs maxSize maxLogs cacheSize mallocFails) ops) := by
  have hstart : Served (logfsCreate fs maxSize maxLogs cacheSize mallocFails) :=
    ⟨hreliable, ⟨hmemory, rfl⟩, fun _ hflush => absurd hflush List.not_mem_nil⟩
  exact run_invariant (fun _ op h => served_step op h) hstart ops

include hlogs hcapacity

theorem retains_run : Retains maxLogs maxSize (run step (logfsCreate fs maxSize maxLogs cacheSize mallocFails) ops) := by
  have hsize : maxSize ≠ 0 := by
    unfold logfsMinCacheSize at hcapacity
    omega
  have hstart : Retains maxLogs maxSize (logfsCreate fs maxSize maxLogs cacheSize mallocFails) :=
    ⟨hreliable, ⟨rfl, rfl⟩, hcapacity, .inl ⟨rfl, rfl⟩, fun _ hflush => absurd hflush List.not_mem_nil⟩
  exact run_invariant (fun _ op h => retains_step hlogs hsize op h) hstart ops

/-- Every flush of every run gives up the oldest of the logs it found. It keeps the bounds, but for those that a log it goes to breaks when it was missed before, and from the first flush on the list is the directory, but for the logs missed. With memory for every node none is. -/
theorem logs_retained :
    (∀ flush ∈ (run step (logfsCreate fs maxSize maxLogs cacheSize mallocFails) ops).flushes,
        Retained maxLogs maxSize flush) ∧
      ((run step (logfsCreate fs maxSize maxLogs cacheSize mallocFails) ops).flushes ≠ [] →
        Listed (run step (logfsCreate fs maxSize maxLogs cacheSize mallocFails) ops)) ∧
      (true ∉ mallocFails →
        (∀ flush ∈ (run step (logfsCreate fs maxSize maxLogs cacheSize mallocFails) ops).flushes,
          flush.missed = [] ∧ flush.unlisted = []) ∧
        ((run step (logfsCreate fs maxSize maxLogs cacheSize mallocFails) ops).flushes ≠ [] →
          Lists (run step (logfsCreate fs maxSize maxLogs cacheSize mallocFails) ops).logList
            (run step (logfsCreate fs maxSize maxLogs cacheSize mallocFails) ops).fs.dir)) := by
  have hrun := retains_run fs hreliable hlogs hcapacity mallocFails ops
  have hlisted : (run step (logfsCreate fs maxSize maxLogs cacheSize mallocFails) ops).flushes ≠ [] → Listed _ :=
    fun hflushed => hrun.listed.resolve_left fun hunread => hflushed hunread.1
  refine ⟨hrun.retained, hlisted, fun hmemory => ?_⟩
  have hserved : Served (run step (logfsCreate fs maxSize maxLogs cacheSize mallocFails) ops) :=
    served_run fs hreliable mallocFails ops hmemory
  exact ⟨hserved.flushes, fun hflushed => (hlisted hflushed).lists hserved.plenty⟩

end Runs

/-- Room for one log: the second flush gives up the first. -/
theorem logs_retained_one_log :
    (run step (logfsCreate { dir := .empty } 4096 1 0) [.write 1 [7], .write 2 [8, 9], .flush]).logList = [⟨2, 2⟩] ∧
      Lists (run step (logfsCreate { dir := .empty } 4096 1 0) [.write 1 [7], .write 2 [8, 9], .flush]).logList
        (run step (logfsCreate { dir := .empty } 4096 1 0) [.write 1 [7], .write 2 [8, 9], .flush]).fs.dir :=
  ⟨by decide +kernel, ((logs_retained { dir := .empty } rfl (by decide) (by decide) []
    [.write 1 [7], .write 2 [8, 9], .flush]).2.2 List.not_mem_nil).2 (by decide +kernel)⟩

/-- Without memory for its node a log is in the directory and not in the list. When it is entered later, by a flush with nothing to append, there is one log more than the limit. -/
theorem log_without_memory_unlisted :
    fsDir (run step (logfsCreate { dir := .empty } 8192 2 0 [true]) [.write 1 [7], .flush]).fs.dir = [⟨1, 1⟩] ∧
      (run step (logfsCreate { dir := .empty } 8192 2 0 [true]) [.write 1 [7], .flush]).logList = [] ∧
      (run step (logfsCreate { dir := .empty } 8192 2 0 [false, true])
        [.write 1 [7], .write 2 [8], .write 3 [9], .write 2 [], .flush]).logList = [⟨1, 1⟩, ⟨2, 1⟩, ⟨3, 1⟩] := by
  decide +kernel

end Evse.Logfs
