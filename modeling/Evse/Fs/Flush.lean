import Evse.Fs.Logfs
import Mathlib.Logic.Relation

/-!
# One flush

What `flush_logcache` does to the files on a file system that fails no append: the reclaim in front deletes logs and nothing else, the loop moves the cached bytes to the end of their file, piece by piece, and the tail only touches the list.
-/

namespace Evse.Logfs

open StepRun

/-- No append will fail. -/
def Reliable (s : Logfs) : Prop := s.fs.appendFails = []

/-- There is memory for every node, and there always was. -/
def Plenty (s : Logfs) : Prop := true ∉ s.memory.fails ∧ s.memory.missed = []

/-- The bytes in the file of a timestamp. -/
def stored (s : Logfs) (t : Time) : List Byte := (s.fs.dir.find t).getD []

/-! ### Listing -/

theorem addList_eq (s : Logfs) (ts : Time) (logsize : Nat) :
    addList s ts logsize =
      if s.memory.fails.head? = some true then
        { s with memory := { fails := s.memory.fails.tail, missed := ts :: s.memory.missed } }
      else
        { s with
          logList := SortedList.insert LogFile.timestamp ⟨ts, logsize⟩ s.logList
          memory := { fails := s.memory.fails.tail, missed := s.memory.missed.filter (· ≠ ts) } } := by
  unfold addList
  match s.memory.fails with
  | [] => rfl
  | true :: fails => rfl
  | false :: fails => rfl

/-- Nothing but the list is different, and there is no less memory. -/
structure Relists (s s' : Logfs) : Prop where
  frame : ∃ list memory, s' = { s with logList := list, memory := memory }
  plenty : Plenty s → Plenty s'

theorem Relists.refl (s : Logfs) : Relists s s := ⟨⟨s.logList, s.memory, rfl⟩, id⟩

theorem Relists.trans {s s' s'' : Logfs} (h : Relists s s') (h' : Relists s' s'') : Relists s s'' where
  frame := by
    obtain ⟨list, memory, rfl⟩ := h.frame
    obtain ⟨list', memory', rfl⟩ := h'.frame
    exact ⟨list', memory', rfl⟩
  plenty := h'.plenty ∘ h.plenty

theorem Plenty.head {s : Logfs} (h : Plenty s) : s.memory.fails.head? ≠ some true :=
  fun hhead => h.1 (List.mem_of_mem_head? hhead)

theorem relists_addList (s : Logfs) (ts : Time) (logsize : Nat) : Relists s (addList s ts logsize) := by
  rw [addList_eq]
  split
  · rename_i hfails
    exact ⟨⟨s.logList, _, rfl⟩, fun hplenty => absurd hfails hplenty.head⟩
  · refine ⟨⟨_, _, rfl⟩, fun hplenty => ⟨fun hmem => hplenty.1 (List.mem_of_mem_tail hmem), ?_⟩⟩
    show s.memory.missed.filter _ = []
    rw [hplenty.2, List.filter_nil]

theorem relists_scan (s : Logfs) : Relists s (scan s) := by
  unfold scan
  generalize fsDir s.fs.dir = files
  induction files generalizing s with
  | nil => exact .refl s
  | cons file files ih => exact (relists_addList s file.timestamp file.size).trans (ih _)

theorem relists_scanIfEmpty (s : Logfs) : Relists s (scanIfEmpty s) := by
  unfold scanIfEmpty
  split
  · exact relists_scan s
  · exact .refl s

theorem relists_listFlushed (ts : Time) (s : Logfs) : Relists s (listFlushed ts s) := by
  unfold listFlushed
  split
  · split
    · exact relists_addList s ts _
    · exact .refl s
  · exact .refl s

theorem scanIfEmpty_fs (s : Logfs) : (scanIfEmpty s).fs = s.fs := by
  obtain ⟨list, memory, hscan⟩ := (relists_scanIfEmpty s).frame
  rw [hscan]

/-! ### Draining the cache -/

theorem fsAppend_eq (ts : Time) (fs : Fs) (data : List Byte) :
    fsAppend ts fs data =
      if fs.appendFails.head? = some true then ({ fs with appendFails := fs.appendFails.tail }, none)
      else ({ dir := fs.dir.append ts data, appendFails := fs.appendFails.tail }, some data.length) := by
  obtain ⟨dir, fails⟩ := fs
  match fails with
  | [] => rfl
  | true :: rest => rfl
  | false :: rest => rfl

/-- The parts of the store that a drain leaves alone. -/
def settings (s : Logfs) : Nat × Nat × Time × List LogFile × Memory × List Time × List Flush × List Bool :=
  (s.maxSize, s.maxLogs, s.cache.timestamp, s.logList, s.memory, s.reclaimed, s.flushes, s.fs.appendFails)

/-- The cached bytes are at the end of the file, and the cache is empty. -/
structure Drained (ts : Time) (s s' : Logfs) : Prop where
  find : ∀ t, s'.fs.dir.find t =
    if t = ts ∧ s.cache.buffer.content ≠ [] then some (stored s ts ++ s.cache.buffer.content)
    else s.fs.dir.find t
  content : s'.cache.buffer.content = []
  capacity : s'.cache.buffer.capacity = s.cache.buffer.capacity
  settings : settings s' = settings s

/-- One turn of the loop with nothing failing: the piece that the buffer shows goes to the file. -/
def movePiece (ts : Time) (s : Logfs) : Logfs :=
  { s with
    fs.dir := s.fs.dir.append ts s.cache.buffer.contiguous
    cache.buffer := s.cache.buffer.consume s.cache.buffer.contiguous.length }

theorem drain_succ {s : Logfs} (hreliable : Reliable s) (hne : s.cache.buffer.content ≠ []) (ts : Time) (fuel : Nat) :
    drain ts (fuel + 1) s = drain ts fuel (movePiece ts s) := by
  have hlength : s.cache.buffer.length ≠ 0 := fun hzero => hne (List.length_eq_zero_iff.1 hzero)
  have hfails : s.fs.appendFails = [] := hreliable
  rw [drain, if_neg hlength]
  simp only [fsAppend, hfails, movePiece]

theorem stored_movePiece (s : Logfs) (ts : Time) :
    (movePiece ts s).fs.dir.find ts = some (stored s ts ++ s.cache.buffer.contiguous) := by
  show (s.fs.dir.append ts s.cache.buffer.contiguous).find ts = _
  rw [Directory.find_append, if_pos rfl]
  rfl

theorem content_movePiece (s : Logfs) (ts : Time) :
    s.cache.buffer.contiguous ++ (movePiece ts s).cache.buffer.content = s.cache.buffer.content :=
  s.cache.buffer.contiguous_append_drop

theorem Drained.of_empty {s : Logfs} (hempty : s.cache.buffer.content = []) (ts : Time) : Drained ts s s where
  find := fun t => by simp [hempty]
  content := hempty
  capacity := rfl
  settings := rfl

/-- A piece moved, and the rest drained. -/
theorem Drained.cons {ts : Time} {s s' : Logfs} (hne : s.cache.buffer.content ≠ [])
    (h : Drained ts (movePiece ts s) s') : Drained ts s s' where
  find := by
    intro t
    rw [h.find]
    by_cases ht : t = ts
    · subst ht
      have hwhole : stored s t ++ s.cache.buffer.content =
          stored s t ++ s.cache.buffer.contiguous ++ (movePiece t s).cache.buffer.content := by
        rw [List.append_assoc, content_movePiece]
      rw [if_pos (show t = t ∧ s.cache.buffer.content ≠ [] from ⟨rfl, hne⟩), hwhole, stored_movePiece]
      by_cases hlast : (movePiece t s).cache.buffer.content = []
      · rw [if_neg fun heq => heq.2 hlast, hlast, List.append_nil]
      · rw [if_pos ⟨rfl, hlast⟩, stored, stored_movePiece, Option.getD_some]
    · rw [if_neg fun heq => ht heq.1, if_neg fun heq => ht heq.1]
      show (s.fs.dir.append ts _).find t = s.fs.dir.find t
      rw [Directory.find_append, if_neg ht]
  content := h.content
  capacity := h.capacity
  settings := h.settings

theorem drained_drain (ts : Time) (fuel : Nat) {s : Logfs} (hreliable : Reliable s)
    (hfuel : s.cache.buffer.content.length ≤ fuel) :
    Drained ts s (drain ts fuel s).1 ∧ (drain ts fuel s).2 = true := by
  induction fuel generalizing s with
  | zero => exact ⟨.of_empty (List.length_eq_zero_iff.1 (Nat.le_zero.1 hfuel)) ts, rfl⟩
  | succ fuel ih =>
      by_cases hempty : s.cache.buffer.content = []
      · have hdrain : drain ts (fuel + 1) s = (s, true) := by
          have hlength : s.cache.buffer.length = 0 := List.length_eq_zero_iff.2 hempty
          rw [drain, if_pos hlength]
        rw [hdrain]
        exact ⟨.of_empty hempty ts, rfl⟩
      · have hpiece := s.cache.buffer.contiguous_ne_nil hempty
        have hrest : (movePiece ts s).cache.buffer.content.length ≤ fuel := by
          have hsplit := congrArg List.length (content_movePiece s ts)
          rw [List.length_append] at hsplit
          omega
        obtain ⟨hdrained, hdone⟩ := ih (s := movePiece ts s) hreliable hrest
        rw [drain_succ hreliable hempty]
        exact ⟨.cons hempty hdrained, hdone⟩

/-! ### Reclaiming -/

/-- Logs were deleted to make room, the deletions are recorded, and nothing else happened to the files or the cache. -/
structure Reclaims (s s' : Logfs) : Prop where
  deleted : ∃ deleted, s'.reclaimed = s.reclaimed ++ deleted ∧ (deleted = [] → s'.fs.dir = s.fs.dir)
  frame : (s'.maxSize, s'.maxLogs, s'.cache, s'.flushes, s'.fs.appendFails) =
    (s.maxSize, s.maxLogs, s.cache, s.flushes, s.fs.appendFails)
  plenty : Plenty s → Plenty s'

theorem Relists.reclaims {s s' : Logfs} (h : Relists s s') : Reclaims s s' := by
  obtain ⟨list, memory, hframe⟩ := h.frame
  refine ⟨⟨[], ?_, fun _ => ?_⟩, ?_, h.plenty⟩
  · rw [hframe, List.append_nil]
  · rw [hframe]
  · rw [hframe]

theorem Reclaims.trans {s s' s'' : Logfs} (h : Reclaims s s') (h' : Reclaims s' s'') : Reclaims s s'' where
  deleted := by
    obtain ⟨deleted, hdeleted, hsame⟩ := h.deleted
    obtain ⟨deleted', hdeleted', hsame'⟩ := h'.deleted
    refine ⟨deleted ++ deleted', by rw [hdeleted', hdeleted, List.append_assoc], ?_⟩
    intro hnil
    obtain ⟨hnil, hnil'⟩ := List.append_eq_nil_iff.1 hnil
    rw [hsame' hnil', hsame hnil]
  frame := h'.frame.trans h.frame
  plenty := h'.plenty ∘ h.plenty

section Reclaims

variable {s s' : Logfs} (h : Reclaims s s')

include h

theorem Reclaims.maxSize : s'.maxSize = s.maxSize := congrArg Prod.fst h.frame

theorem Reclaims.maxLogs : s'.maxLogs = s.maxLogs := congrArg (fun settings => settings.2.1) h.frame

theorem Reclaims.cache : s'.cache = s.cache := congrArg (fun settings => settings.2.2.1) h.frame

theorem Reclaims.appendFails : s'.fs.appendFails = s.fs.appendFails :=
  congrArg (fun settings => settings.2.2.2.2) h.frame

end Reclaims

theorem plenty_deleteLog {s : Logfs} (h : Plenty s) (ts : Time) : Plenty (deleteLog s ts).1 := by
  unfold deleteLog
  split
  · exact h
  · refine ⟨h.1, ?_⟩
    show s.memory.missed.filter _ = []
    rw [h.2, List.filter_nil]

theorem plenty_logfsClear {s : Logfs} (h : Plenty s) : Plenty (logfsClear s) := by
  refine ⟨h.1, ?_⟩
  show s.memory.missed.filter _ = []
  rw [h.2, List.filter_nil]

theorem reclaims_reclaimLog (s : Logfs) (ts : Time) : Reclaims s (reclaimLog s ts) := by
  refine ⟨⟨[ts], rfl, fun hnil => absurd hnil (List.cons_ne_nil ts [])⟩, ?_, fun hplenty => plenty_deleteLog hplenty ts⟩
  unfold reclaimLog deleteLog
  split <;> rfl

/-- What a reclaim is made of: the list is read, or a log deleted and the deletion recorded. -/
inductive ReclaimStep (s : Logfs) : Logfs → Prop
  | list {s' : Logfs} (h : Relists s s') : ReclaimStep s s'
  | log (ts : Time) : ReclaimStep s (reclaimLog s ts)

abbrev ReclaimSteps : Logfs → Logfs → Prop := Relation.ReflTransGen ReclaimStep

theorem ReclaimSteps.reclaims {s s' : Logfs} (h : ReclaimSteps s s') : Reclaims s s' := by
  induction h with
  | refl => exact (Relists.refl s).reclaims
  | tail _ hstep ih =>
      cases hstep with
      | list h => exact ih.trans h.reclaims
      | log ts => exact ih.trans (reclaims_reclaimLog _ ts)

theorem steps_reclaimFirst (n : Nat) (s : Logfs) : ReclaimSteps s (reclaimFirst n s) := by
  induction n generalizing s with
  | zero => exact .refl
  | succ n ih =>
      rw [reclaimFirst]
      split
      · exact .refl
      · exact .head (.log _) (ih _)

theorem steps_reclaimUntil (bytesToAppend : Nat) (list : List LogFile) (s : Logfs) :
    ReclaimSteps s (reclaimUntil bytesToAppend list s) := by
  induction list generalizing s with
  | nil => exact .refl
  | cons file rest ih =>
      simp only [reclaimUntil]
      split
      · exact .single (.log _)
      · exact .head (.log _) (ih _)

theorem steps_reclaimByCount (s : Logfs) (n : Nat) : ReclaimSteps s (reclaimByCount s n) := by
  unfold reclaimByCount
  split
  · exact .refl
  · exact steps_reclaimFirst _ s

theorem steps_reclaimBySize (s : Logfs) (bytesToAppend : Nat) : ReclaimSteps s (reclaimBySize s bytesToAppend) := by
  unfold reclaimBySize
  split
  · exact .refl
  · exact steps_reclaimUntil _ _ s

theorem steps_scanIfEmpty (s : Logfs) : ReclaimSteps s (scanIfEmpty s) := .single (.list (relists_scanIfEmpty s))

theorem steps_reclaim (s : Logfs) (bytesToAppend : Nat) : ReclaimSteps s (reclaim s bytesToAppend) :=
  ((steps_scanIfEmpty s).trans (steps_reclaimByCount _ _)).trans (steps_reclaimBySize _ _)

/-! ### The whole flush -/

/-- The part of a flush after the reclaim. -/
theorem flushCore_eq (ts : Time) {s : Logfs} (hreliable : Reliable s) (bytesToAppend : Nat) :
    ∃ drained, Drained ts (reclaim s bytesToAppend) drained ∧
      flushCore ts s bytesToAppend = listFlushed ts drained := by
  have hreliable' : Reliable (reclaim s bytesToAppend) :=
    (steps_reclaim s bytesToAppend).reclaims.appendFails.trans hreliable
  obtain ⟨hdrained, hdone⟩ :=
    drained_drain ts (reclaim s bytesToAppend).cache.buffer.length hreliable' (Nat.le_refl _)
  refine ⟨_, hdrained, ?_⟩
  simp only [flushCore, hdone, if_true]

/-- What a flush does to the files and to the cache. -/
structure Flushed (ts : Time) (s s' : Logfs) : Prop where
  stored : ∃ deleted, s'.reclaimed = s.reclaimed ++ deleted ∧
    (deleted = [] → ∀ t, stored s' t = stored s t ++ if t = ts then s.cache.buffer.content else [])
  content : s'.cache.buffer.content = []
  capacity : s'.cache.buffer.capacity = s.cache.buffer.capacity
  frame : (s'.maxSize, s'.maxLogs, s'.cache.timestamp, s'.fs.appendFails) =
    (s.maxSize, s.maxLogs, s.cache.timestamp, s.fs.appendFails)
  plenty : Plenty s → Plenty s'

section Flushed

variable {ts : Time} {s s' : Logfs} (h : Flushed ts s s')

include h

theorem Flushed.maxSize : s'.maxSize = s.maxSize := congrArg Prod.fst h.frame

theorem Flushed.maxLogs : s'.maxLogs = s.maxLogs := congrArg (fun settings => settings.2.1) h.frame

theorem Flushed.timestamp : s'.cache.timestamp = s.cache.timestamp := congrArg (fun settings => settings.2.2.1) h.frame

theorem Flushed.reliable (hreliable : Reliable s) : Reliable s' := by
  have hfails : s'.fs.appendFails = s.fs.appendFails := congrArg (fun settings => settings.2.2.2) h.frame
  exact hfails.trans hreliable

end Flushed

theorem flushed_flushLogcache {s : Logfs} (hreliable : Reliable s) (ts : Time) (bytesToAppend : Nat) :
    Flushed ts s (flushLogcache ts s bytesToAppend) := by
  obtain ⟨drained, hdrained, hflush⟩ := flushCore_eq ts hreliable bytesToAppend
  have hrelists := relists_listFlushed ts drained
  obtain ⟨list, memory, hlist⟩ := hrelists.frame
  have hreclaims := (steps_reclaim s bytesToAppend).reclaims
  have hframe := hreclaims.frame
  have hsettings := hdrained.settings
  simp only [settings, Prod.mk.injEq] at hframe hsettings
  obtain ⟨hsize, hlogs, hcache, -, hfails⟩ := hframe
  obtain ⟨hsize', hlogs', htimestamp', -, hmemory', hreclaimed', -, hfails'⟩ := hsettings
  have hplenty : Plenty s → Plenty { drained with logList := list, memory := memory } := by
    intro hplenty
    rw [← hlist]
    apply hrelists.plenty
    unfold Plenty
    rw [hmemory']
    exact hreclaims.plenty hplenty
  have hafter : ∃ flushes, flushLogcache ts s bytesToAppend =
      { drained with logList := list, memory := memory, flushes := flushes } := by
    simp only [flushLogcache, hflush, hlist]
    exact ⟨_, rfl⟩
  obtain ⟨flushes, hafter⟩ := hafter
  rw [hafter]
  constructor
  · obtain ⟨deleted, hdeleted, hsame⟩ := hreclaims.deleted
    refine ⟨deleted, hreclaimed'.trans hdeleted, ?_⟩
    intro hnil t
    show stored drained t = _
    have hdir := hsame hnil
    have hstored : ∀ t, stored (reclaim s bytesToAppend) t = stored s t := fun t => by rw [stored, stored, hdir]
    rw [stored, hdrained.find, hstored, hcache, hdir]
    by_cases ht : t = ts
    · subst ht
      by_cases hempty : s.cache.buffer.content = []
      · simp [hempty, stored]
      · simp [hempty]
    · simp [ht, stored]
  · exact hdrained.content
  · exact hdrained.capacity.trans (by rw [hcache])
  · show (drained.maxSize, drained.maxLogs, drained.cache.timestamp, drained.fs.appendFails) = _
    rw [hsize', hlogs', htimestamp', hfails', hsize, hlogs, hcache, hfails]
  · exact hplenty

/-! ### Invariants of the calls -/

section Invariant

/-- What is shown of a property of stores once and for all calls: a flush of the cached timestamp's bytes keeps it, and so do the other things the calls do to the store. `P` is what is known of the timestamps written. -/
structure Preserved (I : Logfs → Prop) (P : Time → Prop) : Prop where
  reliable : ∀ {s}, I s → Reliable s
  flush : ∀ {s bytesToAppend}, I s → s.cache.buffer.content.length ≤ bytesToAppend →
    I (flushLogcache s.cache.timestamp s bytesToAppend)
  timestamp : ∀ {s ts}, I s → s.cache.buffer.content = [] → P ts → I { s with cache.timestamp := ts }
  write : ∀ {s data}, I s → P s.cache.timestamp → I (ringbufWrite s data).1
  delete : ∀ {s ts}, I s → I (logfsDelete s ts).1
  clear : ∀ {s}, I s → I (logfsClear s)

variable {I : Logfs → Prop} {P : Time → Prop} (hI : Preserved I P) {s : Logfs} (h : I s) {ts : Time}

include hI h

theorem Preserved.changeTimestamp (hts : P ts) (log : List Byte) :
    I (changeTimestamp ts log s) ∧ (changeTimestamp ts log s).cache.timestamp = ts := by
  unfold Logfs.changeTimestamp
  split
  · have hflush := hI.flush h (Nat.le_add_right s.cache.buffer.length log.length)
    have hflushed := flushed_flushLogcache (hI.reliable h) s.cache.timestamp (s.cache.buffer.length + log.length)
    exact ⟨hI.timestamp hflush hflushed.content hts, rfl⟩
  · rename_i hsame
    exact ⟨h, (not_not.1 hsame).symm⟩

/-- One turn of the loop of a write. -/
theorem Preserved.turn (hts : P s.cache.timestamp) (remain : Nat) (data : List Byte) :
    I (ringbufWrite (flushLogcache s.cache.timestamp s (s.cache.buffer.capacity + remain)) data).1 ∧
      (ringbufWrite (flushLogcache s.cache.timestamp s (s.cache.buffer.capacity + remain)) data).1.cache.timestamp =
        s.cache.timestamp := by
  have hfits := s.cache.buffer.fits
  have hbytes : s.cache.buffer.content.length ≤ s.cache.buffer.capacity + remain := by omega
  have hsame :=
    (flushed_flushLogcache (hI.reliable h) s.cache.timestamp (s.cache.buffer.capacity + remain)).timestamp
  have hflush := hI.flush h hbytes
  generalize flushLogcache s.cache.timestamp s (s.cache.buffer.capacity + remain) = s' at hsame hflush ⊢
  exact ⟨hI.write hflush (by rwa [hsame]), hsame⟩

theorem Preserved.writeLoop (hcached : s.cache.timestamp = ts) (hts : P ts) (log : List Byte)
    (fuel written writtenTotal : Nat) : I (writeLoop ts log fuel s written writtenTotal).1 := by
  induction fuel generalizing s written writtenTotal with
  | zero => exact h
  | succ fuel ih =>
      rw [Logfs.writeLoop]
      split
      · obtain ⟨hturn, hsame⟩ := hI.turn h (by rwa [hcached]) (log.length - writtenTotal)
          ((log.drop written).take (log.length - writtenTotal))
        rw [hcached] at hturn hsame
        exact ih hturn hsame _ _
      · exact h

theorem Preserved.logfsWrite (hts : P ts) (log : List Byte) : I (logfsWrite ts log s).1 := by
  unfold Logfs.logfsWrite
  split
  · exact h
  · obtain ⟨hchange, hcached⟩ := hI.changeTimestamp h hts log
    refine hI.writeLoop (hI.write hchange ?_) hcached hts log _ _ _
    rwa [hcached]

theorem Preserved.step {op : Op} (hop : ∀ timestamp log, op = .write timestamp log → P timestamp) : I (step s op) := by
  cases op with
  | write ts log => exact hI.logfsWrite h (hop ts log rfl) log
  | flush => exact hI.flush h (Nat.le_refl _)
  | delete ts => exact hI.delete h
  | clear => exact hI.clear h

end Invariant

end Evse.Logfs
