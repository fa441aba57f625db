import Evse.Fs.Flush

/-!
# What becomes of written data

On a file system that fails no append, a flush moves the cached bytes to the end of their file, piece by piece. A write that fits the cache, or spills over it once, loses nothing. One that finds the cache full is dropped, and one that spills over twice takes its third piece from the wrong place.
-/

namespace Evse.Logfs

open StepRun

/-- The file's bytes and, for the cached timestamp, the cached ones. -/
def logged (s : Logfs) (t : Time) : List Byte :=
  stored s t ++ if s.cache.timestamp = t then s.cache.buffer.content else []

/-- How much the cache takes of a write, once a change of the timestamp has emptied it. -/
def room (s : Logfs) (timestamp : Time) : Nat :=
  if timestamp = s.cache.timestamp then s.cache.buffer.capacity - s.cache.buffer.length else s.cache.buffer.capacity

/-- A write is empty, or finds room in the cache and spills over it at most once. -/
def Fits (s : Logfs) : Op → Prop
  | .write timestamp log =>
      log = [] ∨ 0 < room s timestamp ∧ log.length ≤ room s timestamp + s.cache.buffer.capacity
  | _ => True

/-- A write the store does not refuse for its size, or a flush. -/
def Op.Logs (maxSize : Nat) : Op → Prop
  | .write _ log => log.length ≤ maxSize
  | .flush => True
  | .delete _ | .clear => False

/-- What the writes of a run gave for a timestamp. -/
def given (t : Time) : List Op → List Byte
  | [] => []
  | .write timestamp log :: ops => (if timestamp = t then log else []) ++ given t ops
  | _ :: ops => given t ops

instance (maxSize : Nat) : DecidablePred (Op.Logs maxSize)
  | .write _ log => inferInstanceAs (Decidable (log.length ≤ maxSize))
  | .flush => isTrue trivial
  | .delete _ | .clear => isFalse id

instance (s : Logfs) : DecidablePred (Fits s)
  | .write _ _ => inferInstanceAs (Decidable (_ ∨ _))
  | .flush | .delete _ | .clear => isTrue trivial

/-! ### One write -/

/-- Data has been logged for a timestamp, up to what was reclaimed on the way. -/
structure Logs (ts : Time) (data : List Byte) (s s' : Logfs) : Prop where
  logged : ∃ deleted, s'.reclaimed = s.reclaimed ++ deleted ∧
    (deleted = [] → ∀ t, logged s' t = logged s t ++ if ts = t then data else [])
  capacity : s'.cache.buffer.capacity = s.cache.buffer.capacity
  maxSize : s'.maxSize = s.maxSize
  reliable : Reliable s'

theorem Logs.trans {ts : Time} {data data' : List Byte} {s s' s'' : Logfs} (h : Logs ts data s s')
    (h' : Logs ts data' s' s'') : Logs ts (data ++ data') s s'' where
  logged := by
    obtain ⟨deleted, hdeleted, hlogged⟩ := h.logged
    obtain ⟨deleted', hdeleted', hlogged'⟩ := h'.logged
    refine ⟨deleted ++ deleted', by rw [hdeleted', hdeleted, List.append_assoc], ?_⟩
    intro hnil t
    obtain ⟨hnil, hnil'⟩ := List.append_eq_nil_iff.1 hnil
    rw [hlogged' hnil', hlogged hnil, List.append_assoc]
    split <;> rfl
  capacity := h'.capacity.trans h.capacity
  maxSize := h'.maxSize.trans h.maxSize
  reliable := h'.reliable

section Write

variable {s : Logfs} {ts : Time}

/-- A flush to the cached timestamp's file logs nothing new and empties the cache. -/
theorem logs_flushLogcache (hreliable : Reliable s) (ts : Time) (bytesToAppend : Nat) :
    Logs ts [] s (flushLogcache s.cache.timestamp s bytesToAppend) := by
  have hflushed := flushed_flushLogcache hreliable s.cache.timestamp bytesToAppend
  have htimestamp := hflushed.timestamp
  refine ⟨?_, hflushed.capacity, hflushed.maxSize, hflushed.reliable hreliable⟩
  obtain ⟨deleted, hdeleted, hstored⟩ := hflushed.stored
  refine ⟨deleted, hdeleted, ?_⟩
  intro hnil t
  simp only [logged, hstored hnil t, hflushed.content, ite_self, List.append_nil, eq_comm]

/-- A write begins with the timestamp in the cache and as much room as `room` says. -/
theorem logs_changeTimestamp (hreliable : Reliable s) (ts : Time) (log : List Byte) :
    Logs ts [] s (changeTimestamp ts log s) ∧ (changeTimestamp ts log s).cache.timestamp = ts ∧
      (changeTimestamp ts log s).cache.buffer.capacity - (changeTimestamp ts log s).cache.buffer.content.length =
        room s ts := by
  unfold changeTimestamp room
  by_cases hts : ts = s.cache.timestamp
  · rw [if_neg (not_not.2 hts), if_pos hts]
    refine ⟨⟨⟨[], (List.append_nil _).symm, fun _ t => ?_⟩, rfl, rfl, hreliable⟩, hts.symm, rfl⟩
    rw [ite_self, List.append_nil]
  · rw [if_pos hts, if_neg hts]
    have hflush := logs_flushLogcache hreliable ts (s.cache.buffer.length + log.length)
    have hflushed := flushed_flushLogcache hreliable s.cache.timestamp (s.cache.buffer.length + log.length)
    generalize flushLogcache s.cache.timestamp s (s.cache.buffer.length + log.length) = s' at hflush hflushed
    refine ⟨⟨?_, hflush.capacity, hflush.maxSize, hflush.reliable⟩, rfl, ?_⟩
    · obtain ⟨deleted, hdeleted, hlogged⟩ := hflush.logged
      refine ⟨deleted, hdeleted, fun hnil t => ?_⟩
      rw [← hlogged hnil t]
      -- The cache is empty, so it adds nothing under either timestamp.
      simp only [logged, hflushed.content, ite_self]
      rfl
    · show s'.cache.buffer.capacity - s'.cache.buffer.content.length = _
      rw [hflushed.content, hflushed.capacity]
      rfl

/-- Bytes taken into the cache of their timestamp are logged. -/
theorem logged_ringbufWrite (hts : s.cache.timestamp = ts) (data : List Byte) (t : Time) :
    logged (ringbufWrite s data).1 t = logged s t ++
      if ts = t then data.take (s.cache.buffer.capacity - s.cache.buffer.content.length) else [] := by
  show stored s t ++ (if s.cache.timestamp = t then s.cache.buffer.content ++ _ else []) = _
  rw [logged, hts]
  split
  · rw [List.append_assoc]
  · simp only [List.append_nil]

theorem logs_ringbufWrite (hreliable : Reliable s) (hts : s.cache.timestamp = ts) (data : List Byte) :
    Logs ts (data.take (s.cache.buffer.capacity - s.cache.buffer.content.length)) s (ringbufWrite s data).1 where
  logged := ⟨[], (List.append_nil _).symm, fun _ t => logged_ringbufWrite hts data t⟩
  capacity := rfl
  maxSize := rfl
  reliable := hreliable

theorem writeLoop_turn (ts : Time) {log : List Byte} {written writtenTotal : Nat} (hsome : written ≠ 0)
    (hspills : writtenTotal < log.length) (fuel : Nat) (s : Logfs) :
    writeLoop ts log (fuel + 1) s written writtenTotal =
      writeLoop ts log fuel
        (ringbufWrite (flushLogcache ts s (s.cache.buffer.capacity + (log.length - writtenTotal)))
          ((log.drop written).take (log.length - writtenTotal))).1
        (ringbufWrite (flushLogcache ts s (s.cache.buffer.capacity + (log.length - writtenTotal)))
          ((log.drop written).take (log.length - writtenTotal))).2
        (writtenTotal + (ringbufWrite (flushLogcache ts s (s.cache.buffer.capacity + (log.length - writtenTotal)))
          ((log.drop written).take (log.length - writtenTotal))).2) := by
  rw [writeLoop, if_pos ⟨hsome, hspills⟩]

/-- One turn of the loop: a flush, and a piece from where the last piece was as long. -/
theorem logs_turn (hreliable : Reliable s) (hts : s.cache.timestamp = ts) {log : List Byte}
    {written writtenTotal : Nat} (hsome : 0 < written) (hspills : writtenTotal < log.length) (fuel : Nat) :
    ∃ s' n, writeLoop ts log (fuel + 1) s written writtenTotal = writeLoop ts log fuel s' n (writtenTotal + n) ∧
      n = min s.cache.buffer.capacity ((log.drop written).take (log.length - writtenTotal)).length ∧
      Logs ts (((log.drop written).take (log.length - writtenTotal)).take s.cache.buffer.capacity) s s' ∧
      s'.cache.timestamp = ts := by
  have hflush := logs_flushLogcache hreliable ts (s.cache.buffer.capacity + (log.length - writtenTotal))
  have hflushed :=
    flushed_flushLogcache hreliable s.cache.timestamp (s.cache.buffer.capacity + (log.length - writtenTotal))
  rw [writeLoop_turn ts (Nat.ne_of_gt hsome) hspills]
  simp only [← hts]
  generalize flushLogcache s.cache.timestamp s (s.cache.buffer.capacity + (log.length - writtenTotal)) = s'
    at hflush hflushed
  generalize (log.drop written).take (log.length - writtenTotal) = piece
  have hroom : s'.cache.buffer.capacity - s'.cache.buffer.content.length = s.cache.buffer.capacity := by
    rw [hflushed.content, hflushed.capacity]
    rfl
  have hwrite := logs_ringbufWrite hflush.reliable (hflushed.timestamp.trans hts) piece
  rw [hroom] at hwrite
  refine ⟨(ringbufWrite s' piece).1, (ringbufWrite s' piece).2, rfl, ?_, ?_, hflushed.timestamp⟩
  · rw [← hroom]
    rfl
  · rw [hts]
    exact hflush.trans hwrite

theorem writeLoop_done (ts : Time) (log : List Byte) (fuel : Nat) (s : Logfs) (written : Nat) :
    writeLoop ts log fuel s written log.length = (s, log.length) := by
  cases fuel with
  | zero => rfl
  | succ fuel => rw [writeLoop, if_neg fun hcontinues => Nat.lt_irrefl _ hcontinues.2]

/-- The second piece of a write that spills over once. -/
theorem logs_secondPiece (hreliable : Reliable s) (hts : s.cache.timestamp = ts) {log : List Byte} {written : Nat}
    (hsome : 0 < written) (hspills : written < log.length) (hfits : log.length ≤ written + s.cache.buffer.capacity)
    (fuel : Nat) :
    Logs ts (log.drop written) s (writeLoop ts log (fuel + 1) s written written).1 ∧
      (writeLoop ts log (fuel + 1) s written written).2 = log.length := by
  have hremain : (log.drop written).take (log.length - written) = log.drop written := by
    rw [← List.length_drop, List.take_length]
  obtain ⟨s', n, hloop, hn, hlogs, -⟩ := logs_turn hreliable hts hsome hspills fuel
  rw [hremain, List.take_of_length_le (by rw [List.length_drop]; omega)] at hlogs
  rw [hremain, List.length_drop] at hn
  -- The flushed cache takes all the rest, so the loop ends here.
  have hall : written + n = log.length := by omega
  rw [hloop, hall, writeLoop_done]
  exact ⟨hlogs, rfl⟩

/-- A write that fits is logged, and its size returned. -/
theorem logs_logfsWrite (hreliable : Reliable s) {log : List Byte} (hsize : log.length ≤ s.maxSize)
    (hfits : Fits s (.write ts log)) :
    Logs ts log s (logfsWrite ts log s).1 ∧ (logfsWrite ts log s).2 = log.length := by
  obtain ⟨hchange, hts, hroom⟩ := logs_changeTimestamp hreliable ts log
  simp only [logfsWrite, if_neg (Nat.not_lt.2 hsize)]
  generalize changeTimestamp ts log s = s' at hchange hts hroom
  have hwrite := logs_ringbufWrite hchange.reliable hts log
  have hwritten : (ringbufWrite s' log).2 = min (room s ts) log.length := by
    rw [← hroom]
    rfl
  rw [hroom] at hwrite
  by_cases hroomy : log.length ≤ room s ts
  · rw [List.take_of_length_le hroomy] at hwrite
    have hdone : ¬ ((ringbufWrite s' log).2 ≠ 0 ∧ (ringbufWrite s' log).2 < log.length) := by
      rw [hwritten]
      omega
    rw [writeLoop, if_neg hdone]
    refine ⟨hchange.trans hwrite, ?_⟩
    rw [hwritten, Nat.min_eq_right hroomy]
  · -- The cache takes a first piece, and the second is all the rest.
    obtain hempty | ⟨hsome, hspill⟩ := hfits
    · simp [hempty] at hroomy
    · rw [Nat.min_eq_left (by omega)] at hwritten
      have hcapacity : (ringbufWrite s' log).1.cache.buffer.capacity = s.cache.buffer.capacity :=
        hwrite.capacity.trans hchange.capacity
      have hsecond := logs_secondPiece hwrite.reliable hts hsome (Nat.lt_of_not_le hroomy)
        (by rw [hcapacity]; exact hspill) log.length
      rw [hwritten]
      refine ⟨?_, by rw [hsecond.2]⟩
      have hall := hchange.trans (hwrite.trans hsecond.1)
      rwa [List.take_append_drop, List.nil_append] at hall

/-- A write to the cached log of which the cache takes all or nothing is over at once. So one that finds the cache full is dropped. -/
theorem logfsWrite_at_once (log : List Byte) (hsize : log.length ≤ s.maxSize)
    (honce : (ringbufWrite s log).2 = 0 ∨ log.length ≤ (ringbufWrite s log).2) :
    logfsWrite s.cache.timestamp log s = ((ringbufWrite s log).1, ((ringbufWrite s log).2 : Int)) := by
  have hstops : ¬ ((ringbufWrite s log).2 ≠ 0 ∧ (ringbufWrite s log).2 < log.length) := by omega
  simp only [logfsWrite, if_neg (Nat.not_lt.2 hsize), changeTimestamp, ne_eq, not_true, if_false]
  rw [writeLoop, if_neg hstops]

/-- A write that spills over twice takes its third piece from the cache's capacity on, wherever the second one ended. -/
theorem logs_spillingTwice (hreliable : Reliable s) {log : List Byte} (hsize : log.length ≤ s.maxSize)
    (hroom : 0 < room s ts) (hspills : room s ts + s.cache.buffer.capacity < log.length)
    (htwice : log.length ≤ room s ts + 2 * s.cache.buffer.capacity) :
    Logs ts (log.take (room s ts + s.cache.buffer.capacity) ++
        (log.drop s.cache.buffer.capacity).take (log.length - (room s ts + s.cache.buffer.capacity)))
      s (logfsWrite ts log s).1 ∧ (logfsWrite ts log s).2 = log.length := by
  obtain ⟨hchange, hts, hroom'⟩ := logs_changeTimestamp hreliable ts log
  simp only [logfsWrite, if_neg (Nat.not_lt.2 hsize)]
  generalize changeTimestamp ts log s = s' at hchange hts hroom'
  have hwrite := logs_ringbufWrite hchange.reliable hts log
  have hwritten : (ringbufWrite s' log).2 = room s ts := by
    show min (s'.cache.buffer.capacity - s'.cache.buffer.content.length) log.length = _
    omega
  have hcapacity : (ringbufWrite s' log).1.cache.buffer.capacity = s.cache.buffer.capacity :=
    hwrite.capacity.trans hchange.capacity
  rw [hroom'] at hwrite
  have hsecond : room s ts < log.length := by omega
  have hthird : room s ts + s.cache.buffer.capacity < log.length := hspills
  have hcapacity' : 0 < s.cache.buffer.capacity := by omega
  obtain ⟨s₂, n₂, hloop₂, hn₂, hlogs₂, hts₂⟩ := logs_turn hwrite.reliable hts hroom hsecond log.length
  rw [hcapacity, List.length_take, List.length_drop, Nat.min_self, Nat.min_eq_left (by omega)] at hn₂
  rw [hcapacity, List.take_take, Nat.min_eq_left (by omega)] at hlogs₂
  obtain ⟨fuel, hfuel⟩ : ∃ fuel, log.length = fuel + 1 := ⟨log.length - 1, by omega⟩
  obtain ⟨s₃, n₃, hloop₃, hn₃, hlogs₃, -⟩ := logs_turn hlogs₂.reliable hts₂ hcapacity' hthird fuel
  rw [← hfuel] at hloop₃
  rw [hlogs₂.capacity, hcapacity, List.length_take, List.length_drop] at hn₃
  rw [hlogs₂.capacity, hcapacity, List.take_take, Nat.min_eq_right (by omega)] at hlogs₃
  have hall : room s ts + s.cache.buffer.capacity + n₃ = log.length := by omega
  have hend : writeLoop ts log (log.length + 1) (ringbufWrite s' log).1 (room s ts) (room s ts) =
      (s₃, log.length) := by
    rw [hloop₂, hn₂, hloop₃, hall, writeLoop_done]
  rw [hwritten, hend]
  refine ⟨?_, rfl⟩
  have hpieces := hchange.trans (hwrite.trans (hlogs₂.trans hlogs₃))
  rwa [List.nil_append, ← List.append_assoc, ← List.take_add] at hpieces

end Write

/-! ### Runs -/

theorem given_append (t : Time) (ops ops' : List Op) : given t (ops ++ ops') = given t ops ++ given t ops' := by
  induction ops with
  | nil => rfl
  | cons op ops ih => cases op <;> simp [given, ih]

/-- What a step of the run logs for a timestamp. -/
theorem logs_step {s : Logfs} (hreliable : Reliable s) {op : Op} (hop : op.Logs s.maxSize) (hfits : Fits s op) :
    (∃ deleted, (step s op).reclaimed = s.reclaimed ++ deleted ∧
        (deleted = [] → ∀ t, logged (step s op) t = logged s t ++ given t [op])) ∧
      (step s op).maxSize = s.maxSize ∧ Reliable (step s op) := by
  cases op with
  | write ts log =>
      obtain ⟨hlogs, -⟩ := logs_logfsWrite hreliable hop hfits
      obtain ⟨deleted, hdeleted, hlogged⟩ := hlogs.logged
      refine ⟨⟨deleted, hdeleted, fun hnil t => ?_⟩, hlogs.maxSize, hlogs.reliable⟩
      rw [given, given, List.append_nil]
      exact hlogged hnil t
  | flush =>
      have hlogs := logs_flushLogcache hreliable s.cache.timestamp s.cache.buffer.length
      obtain ⟨deleted, hdeleted, hlogged⟩ := hlogs.logged
      refine ⟨⟨deleted, hdeleted, fun hnil t => ?_⟩, hlogs.maxSize, hlogs.reliable⟩
      have hsame := hlogged hnil t
      rw [ite_self] at hsame
      exact hsame
  | delete ts => exact absurd hop id
  | clear => exact absurd hop id

/-- Everything given is logged, for every timestamp, unless something was reclaimed. -/
theorem logged_run {s : Logfs} (hreliable : Reliable s) {ops : List Op} (hops : ∀ op ∈ ops, op.Logs s.maxSize)
    (hfits : EveryStep step Fits s ops) :
    ∃ deleted, (run step s ops).reclaimed = s.reclaimed ++ deleted ∧
      (deleted = [] → ∀ t, logged (run step s ops) t = logged s t ++ given t ops) := by
  induction ops generalizing s with
  | nil => exact ⟨[], (List.append_nil _).symm, fun _ t => (List.append_nil _).symm⟩
  | cons op ops ih =>
      obtain ⟨hop, hops⟩ := List.forall_mem_cons.1 hops
      obtain ⟨⟨deleted, hdeleted, hlogged⟩, hsize, hreliable'⟩ := logs_step hreliable hop hfits.1
      obtain ⟨deleted', hdeleted', hlogged'⟩ := ih hreliable' (by rwa [hsize]) hfits.2
      refine ⟨deleted ++ deleted', by rw [run_cons, hdeleted', hdeleted, List.append_assoc], ?_⟩
      intro hnil t
      obtain ⟨hnil, hnil'⟩ := List.append_eq_nil_iff.1 hnil
      rw [run_cons, hlogged' hnil', hlogged hnil, List.append_assoc, ← given_append]
      rfl

/-- A write of the run returned the size of its data. -/
def ReturnsSize (s : Logfs) : Op → Prop
  | .write timestamp log => (logfsWrite timestamp log s).2 = log.length
  | _ => True

instance (s : Logfs) : DecidablePred (ReturnsSize s)
  | .write timestamp log => inferInstanceAs (Decidable ((logfsWrite timestamp log s).2 = log.length))
  | .flush | .delete _ | .clear => isTrue trivial

theorem returnsSize_run {s : Logfs} (hreliable : Reliable s) {ops : List Op} (hops : ∀ op ∈ ops, op.Logs s.maxSize)
    (hfits : EveryStep step Fits s ops) : EveryStep step ReturnsSize s ops := by
  induction ops generalizing s with
  | nil => trivial
  | cons op ops ih =>
      obtain ⟨hop, hops⟩ := List.forall_mem_cons.1 hops
      obtain ⟨-, hsize, hreliable'⟩ := logs_step hreliable hop hfits.1
      refine ⟨?_, ih hreliable' (by rwa [hsize]) hfits.2⟩
      cases op with
      | write ts log => exact (logs_logfsWrite hreliable hop hfits.1).2
      | flush | delete ts | clear => trivial

/-- Along every run of writes and flushes whose writes find room and spill over the cache at most once, each write returns its size and, as long as nothing is reclaimed, every file followed by the cache holds what was there and what was written to it, in order. -/
theorem contents_preserved (fs : Fs) (hreliable : fs.appendFails = []) (maxSize maxLogs cacheSize : Nat)
    (mallocFails : List Bool) (ops : List Op) (hops : ∀ op ∈ ops, op.Logs maxSize)
    (hfits : EveryStep step Fits (logfsCreate fs maxSize maxLogs cacheSize mallocFails) ops) :
    EveryStep step ReturnsSize (logfsCreate fs maxSize maxLogs cacheSize mallocFails) ops ∧
      ∀ pre post, ops = pre ++ post →
        (run step (logfsCreate fs maxSize maxLogs cacheSize mallocFails) pre).reclaimed = [] →
          ∀ t, logged (run step (logfsCreate fs maxSize maxLogs cacheSize mallocFails) pre) t =
            (fs.dir.find t).getD [] ++ given t pre := by
  have hstart : Reliable (logfsCreate fs maxSize maxLogs cacheSize mallocFails) := hreliable
  refine ⟨returnsSize_run hstart hops hfits, ?_⟩
  rintro pre post rfl hnone t
  obtain ⟨deleted, hdeleted, hlogged⟩ :=
    logged_run hstart (fun op hop => hops op (List.mem_append_left post hop)) (everyStep_append.1 hfits).1
  have hempty : logged (logfsCreate fs maxSize maxLogs cacheSize mallocFails) t = (fs.dir.find t).getD [] := by
    show (fs.dir.find t).getD [] ++ (if (0 : Time) = t then [] else []) = _
    rw [ite_self, List.append_nil]
  rw [hlogged (by rw [← hnone, hdeleted]; rfl), hempty]

theorem contents_preserved_two_logs :
    EveryStep step ReturnsSize (logfsCreate { dir := .empty } 8192 2 0) [.write 1 [7, 8], .write 2 [9], .flush] ∧
      (run step (logfsCreate { dir := .empty } 8192 2 0) [.write 1 [7, 8], .write 2 [9], .flush]).reclaimed = [] ∧
      logged (run step (logfsCreate { dir := .empty } 8192 2 0) [.write 1 [7, 8], .write 2 [9], .flush]) 1 = [7, 8] := by
  have hpreserved := contents_preserved { dir := .empty } rfl 8192 2 0 []
    [.write 1 [7, 8], .write 2 [9], .flush] (by decide) (by decide +kernel)
  have hnone : (run step (logfsCreate { dir := .empty } 8192 2 0)
      [.write 1 [7, 8], .write 2 [9], .flush]).reclaimed = [] := by decide +kernel
  exact ⟨hpreserved.1, hnone, hpreserved.2 _ [] (List.append_nil _).symm hnone 1⟩

/-- As many bytes as the cache holds fill it, and a further byte to the same log is dropped. -/
theorem dropped_after_filling {data : List Byte} (hdata : data.length = 4096) :
    (∀ op ∈ [Op.write 0 data, .write 0 [1]], op.Logs 8192) ∧
      (run step (logfsCreate { dir := .empty } 8192 2 0)
        [.write 0 data, .write 0 [1]]).reclaimed = [] ∧
      ¬ EveryStep step ReturnsSize (logfsCreate { dir := .empty } 8192 2 0)
        [.write 0 data, .write 0 [1]] ∧
      logged (run step (logfsCreate { dir := .empty } 8192 2 0)
        [.write 0 data, .write 0 [1]]) 0 ≠
          given 0 [.write 0 data, .write 0 [1]] := by
  -- The first write fills the cache, and the second is over at once with nothing taken.
  have hfirst : (logfsWrite 0 data (logfsCreate { dir := .empty } 8192 2 0)).1 =
      (ringbufWrite (logfsCreate { dir := .empty } 8192 2 0) data).1 := by
    have htaken : (ringbufWrite (logfsCreate { dir := .empty } 8192 2 0) data).2 = min 4096 data.length := rfl
    exact congrArg Prod.fst (logfsWrite_at_once (s := logfsCreate { dir := .empty } 8192 2 0) data
      (show data.length ≤ 8192 by omega) (.inr (by omega)))
  have hcontent : (ringbufWrite (logfsCreate { dir := .empty } 8192 2 0) data).1.cache.buffer.content = data :=
    List.take_of_length_le (show data.length ≤ 4096 by omega)
  simp only [run, List.foldl, EveryStep, step, hfirst]
  have hstart : (ringbufWrite (logfsCreate { dir := .empty } 8192 2 0) data).1.cache.timestamp = 0 ∧
      (ringbufWrite (logfsCreate { dir := .empty } 8192 2 0) data).1.cache.buffer.capacity = 4096 ∧
      (ringbufWrite (logfsCreate { dir := .empty } 8192 2 0) data).1.maxSize = 8192 ∧
      (ringbufWrite (logfsCreate { dir := .empty } 8192 2 0) data).1.reclaimed = [] ∧
      stored (ringbufWrite (logfsCreate { dir := .empty } 8192 2 0) data).1 0 = [] := ⟨rfl, rfl, rfl, rfl, rfl⟩
  generalize (ringbufWrite (logfsCreate { dir := .empty } 8192 2 0) data).1 = s at hcontent hstart
  obtain ⟨hts, hcapacity, hsize, hreclaimed, hstored⟩ := hstart
  have hnothing : s.cache.buffer.capacity - s.cache.buffer.content.length = 0 := by rw [hcontent]; omega
  have hsecond : logfsWrite 0 [1] s = ((ringbufWrite s [1]).1, 0) := by
    have htaken : (ringbufWrite s [1]).2 = 0 := (congrArg (min · 1) hnothing).trans (Nat.zero_min 1)
    have hwrite := logfsWrite_at_once (s := s) [1] (show 1 ≤ s.maxSize by omega) (.inl htaken)
    rwa [hts, htaken] at hwrite
  rw [hsecond]
  refine ⟨by simp [Op.Logs, hdata], hreclaimed, ?_, ?_⟩
  · rintro ⟨-, hreturns, -⟩
    simp only [ReturnsSize, hsecond] at hreturns
    exact absurd hreturns (by decide)
  · show stored s 0 ++ (if s.cache.timestamp = 0 then s.cache.buffer.content ++ _ else []) ≠ _
    rw [if_pos hts, hnothing, hstored, hcontent]
    simp [given]

/-- A full cache takes nothing of a further write to the same log, which is dropped. -/
theorem full_cache_drops_write :
    (∀ op ∈ [Op.write 0 (List.replicate 4096 0), .write 0 [1]], op.Logs 8192) ∧
      (run step (logfsCreate { dir := .empty } 8192 2 0)
        [.write 0 (List.replicate 4096 0), .write 0 [1]]).reclaimed = [] ∧
      ¬ EveryStep step ReturnsSize (logfsCreate { dir := .empty } 8192 2 0)
        [.write 0 (List.replicate 4096 0), .write 0 [1]] ∧
      logged (run step (logfsCreate { dir := .empty } 8192 2 0)
        [.write 0 (List.replicate 4096 0), .write 0 [1]]) 0 ≠
          given 0 [.write 0 (List.replicate 4096 0), .write 0 [1]] :=
  dropped_after_filling List.length_replicate

end Evse.Logfs
