import Evse.Fs.Room

/-!
# Appends that fail

A flush whose append fails leaves the rest of the cached bytes to the next flush. The cache has one timestamp for all its bytes, so a change of the timestamp that such a flush precedes puts the old log's bytes under the new timestamp, and in the end into the wrong file. Where each change of the timestamp finds the cache empty or empties it, and no write comes to a third piece, the bytes a write took are in the file of its timestamp or in the cache under it, whichever appends fail.
-/

namespace Evse.Logfs

open StepRun

/-! ### What a flush moves -/

/-- How many bytes the loop of a flush moves before an append fails, and the failures still to come. -/
def moves : Nat → List Bool → RingBuffer Byte → Nat × List Bool
  | 0, fails, _ => (0, fails)
  | fuel + 1, fails, ring =>
      if ring.length = 0 then (0, fails)
      else if fails.head? = some true then (0, fails.tail)
      else
        let rest := moves fuel fails.tail (ring.consume ring.contiguous.length)
        (ring.contiguous.length + rest.1, rest.2)

theorem moves_le (fuel : Nat) (fails : List Bool) (ring : RingBuffer Byte) :
    (moves fuel fails ring).1 ≤ ring.content.length := by
  induction fuel generalizing fails ring with
  | zero => exact Nat.zero_le _
  | succ fuel ih =>
      rw [moves]
      split_ifs
      · exact Nat.zero_le _
      · exact Nat.zero_le _
      · have hrest := ih fails.tail (ring.consume ring.contiguous.length)
        have hpiece := ring.contiguous_length_le
        rw [RingBuffer.consume_content, List.length_drop] at hrest
        show ring.contiguous.length + _ ≤ _
        omega

/-- `n` bytes have left the cache for the end of the file. -/
structure Moved (ts : Time) (n : Nat) (fails : List Bool) (s s' : Logfs) : Prop where
  stored : ∀ t, stored s' t = stored s t ++ if t = ts then s.cache.buffer.content.take n else []
  cache : s'.cache = { s.cache with buffer := s.cache.buffer.consume n }
  fails : s'.fs.appendFails = fails
  frame : (s'.maxSize, s'.reclaimed) = (s.maxSize, s.reclaimed)

theorem Moved.nothing (ts : Time) (s : Logfs) (fails : List Bool) :
    Moved ts 0 fails s { s with fs.appendFails := fails } where
  stored := fun t => by
    rw [List.take_zero, ite_self, List.append_nil]
    rfl
  cache := by rw [RingBuffer.consume_zero]
  fails := rfl
  frame := rfl

theorem stored_append (s : Logfs) (ts : Time) (data : List Byte) (t : Time) :
    ((s.fs.dir.append ts data).find t).getD [] = stored s t ++ if t = ts then data else [] := by
  rw [Directory.find_append]
  split
  · rename_i hts
    rw [Option.getD_some, hts]
    rfl
  · exact (List.append_nil _).symm

theorem moved_drain (ts : Time) (fuel : Nat) (s : Logfs) :
    Moved ts (moves fuel s.fs.appendFails s.cache.buffer).1 (moves fuel s.fs.appendFails s.cache.buffer).2 s
      (drain ts fuel s).1 := by
  induction fuel generalizing s with
  | zero => exact .nothing ts s s.fs.appendFails
  | succ fuel ih =>
      rw [moves, drain, fsAppend_eq]
      split_ifs
      · exact .nothing ts s s.fs.appendFails
      · exact .nothing ts s s.fs.appendFails.tail
      · -- A piece has gone to the file, and the rest of the loop moves more of what is left.
        have hrest := ih { s with
          fs := { dir := s.fs.dir.append ts s.cache.buffer.contiguous, appendFails := s.fs.appendFails.tail }
          cache.buffer := s.cache.buffer.consume s.cache.buffer.contiguous.length }
        have hpiece := s.cache.buffer.contiguous_length_le
        refine ⟨fun t => ?_, ?_, hrest.fails, hrest.frame⟩
        · rw [hrest.stored]
          show ((s.fs.dir.append ts s.cache.buffer.contiguous).find t).getD [] ++ _ = _
          rw [stored_append, List.append_assoc]
          congr 1
          split
          · show s.cache.buffer.contiguous ++ (s.cache.buffer.content.drop s.cache.buffer.contiguous.length).take _ = _
            rw [List.take_add, ← RingBuffer.contiguous_eq_take]
          · rfl
        · rw [hrest.cache, RingBuffer.consume_consume _ hpiece]

/-- Logs may have been deleted to make room, and nothing else was done to the files. -/
structure Deletes (s s' : Logfs) : Prop where
  reclaimed : s.reclaimed ⊆ s'.reclaimed
  stored : ∀ t, stored s' t = stored s t ∨ t ∈ s'.reclaimed ∧ stored s' t = []

theorem Deletes.trans {s s' s'' : Logfs} (h : Deletes s s') (h' : Deletes s' s'') : Deletes s s'' where
  reclaimed := List.Subset.trans h.reclaimed h'.reclaimed
  stored := by
    intro t
    obtain hsame | hgone := h'.stored t
    · rw [hsame]
      exact (h.stored t).imp_right fun hgone => ⟨h'.reclaimed hgone.1, hgone.2⟩
    · exact .inr hgone

theorem deletes_reclaimLog (s : Logfs) (ts : Time) : Deletes s (reclaimLog s ts) where
  reclaimed := List.subset_append_left _ _
  stored := by
    intro t
    unfold reclaimLog deleteLog
    cases hfind : s.fs.dir.find ts with
    | none => exact .inl rfl
    | some content =>
        show ((s.fs.dir.delete ts).find t).getD [] = _ ∨ t ∈ s.reclaimed ++ [ts] ∧
          ((s.fs.dir.delete ts).find t).getD [] = []
        rw [Directory.find_delete]
        split
        · rename_i hts
          exact .inr ⟨List.mem_append_right _ (List.mem_singleton.2 hts), rfl⟩
        · exact .inl rfl

theorem ReclaimSteps.deletes {s s' : Logfs} (h : ReclaimSteps s s') : Deletes s s' := by
  induction h with
  | refl => exact ⟨List.Subset.refl _, fun _ => .inl rfl⟩
  | tail _ hstep ih =>
      refine ih.trans ?_
      cases hstep with
      | list hrelists =>
          obtain ⟨list, memory, hframe⟩ := hrelists.frame
          rw [hframe]
          exact ⟨List.Subset.refl _, fun _ => .inl rfl⟩
      | log ts => exact deletes_reclaimLog _ ts

/-! ### Flushes -/

/-- A flush of the cache, of which the script of failures let `n` bytes through. -/
structure Spilled (ts : Time) (n : Nat) (fails : List Bool) (s s' : Logfs) : Prop where
  reclaimed : s.reclaimed ⊆ s'.reclaimed
  stored : ∀ t, stored s' t = stored s t ++ (if t = ts then s.cache.buffer.content.take n else []) ∨
    t ∈ s'.reclaimed ∧ stored s' t = if t = ts then s.cache.buffer.content.take n else []
  cache : s'.cache = { s.cache with buffer := s.cache.buffer.consume n }
  fails : s'.fs.appendFails = fails
  maxSize : s'.maxSize = s.maxSize

/-- What a flush of the cache as it stands will move. -/
def flushMoves (ring : RingBuffer Byte) (fails : List Bool) : Nat × List Bool := moves ring.length fails ring

theorem spilled_flushLogcache (ts : Time) (s : Logfs) (bytesToAppend : Nat) :
    Spilled ts (flushMoves s.cache.buffer s.fs.appendFails).1 (flushMoves s.cache.buffer s.fs.appendFails).2 s
      (flushLogcache ts s bytesToAppend) := by
  have hdeletes := (steps_reclaim s bytesToAppend).deletes
  have hreclaims := (steps_reclaim s bytesToAppend).reclaims
  have hcache := hreclaims.cache
  have hmoved := moved_drain ts (reclaim s bytesToAppend).cache.buffer.length (reclaim s bytesToAppend)
  rw [hcache, hreclaims.appendFails] at hmoved
  have hlist : ∃ list memory flushes, flushLogcache ts s bytesToAppend =
      { (drain ts s.cache.buffer.length (reclaim s bytesToAppend)).1 with
        logList := list, memory := memory, flushes := flushes } := by
    obtain ⟨list, memory, hlist⟩ :=
      (relists_listFlushed ts (drain ts s.cache.buffer.length (reclaim s bytesToAppend)).1).frame
    simp only [flushLogcache, flushCore, hcache, hlist]
    split
    · exact ⟨list, memory, _, rfl⟩
    · exact ⟨_, _, _, rfl⟩
  obtain ⟨list, memory, flushes, hafter⟩ := hlist
  generalize (drain ts s.cache.buffer.length (reclaim s bytesToAppend)).1 = d at hmoved hafter
  rw [hafter]
  have hmovedFrame := hmoved.frame
  simp only [Prod.mk.injEq] at hmovedFrame
  have hstored := hmoved.stored
  have hmovedCache := hmoved.cache
  rw [hcache] at hstored hmovedCache
  refine ⟨?_, fun t => ?_, hmovedCache, hmoved.fails, hmovedFrame.1.trans hreclaims.maxSize⟩
  · show s.reclaimed ⊆ d.reclaimed
    rw [hmovedFrame.2]
    exact hdeletes.reclaimed
  · show stored d t = _ ∨ t ∈ d.reclaimed ∧ stored d t = _
    rw [hstored, hmovedFrame.2]
    obtain hsame | ⟨hgone, hnone⟩ := hdeletes.stored t
    · exact .inl (by rw [hsame]; rfl)
    · exact .inr ⟨hgone, by rw [hnone]; rfl⟩

/-- Data has been taken for a timestamp. What is logged for a timestamp is all there was and all that was taken, or, if its log has been deleted to make room, the end of that. -/
structure Filed (ts : Time) (data : List Byte) (s s' : Logfs) : Prop where
  reclaimed : s.reclaimed ⊆ s'.reclaimed
  suffix : ∀ t, logged s' t <:+ logged s t ++ if ts = t then data else []
  kept : ∀ t, t ∉ s'.reclaimed → logged s' t = logged s t ++ if ts = t then data else []

/-- Nothing was deleted. -/
theorem Filed.of_logged {ts : Time} {data : List Byte} {s s' : Logfs} (hreclaimed : s'.reclaimed = s.reclaimed)
    (hlogged : ∀ t, logged s' t = logged s t ++ if ts = t then data else []) : Filed ts data s s' where
  reclaimed := hreclaimed ▸ List.Subset.refl _
  suffix := fun t => hlogged t ▸ List.suffix_refl _
  kept := fun t _ => hlogged t

theorem Filed.trans {ts : Time} {data data' : List Byte} {s s' s'' : Logfs} (h : Filed ts data s s')
    (h' : Filed ts data' s' s'') : Filed ts (data ++ data') s s'' where
  reclaimed := List.Subset.trans h.reclaimed h'.reclaimed
  suffix := by
    intro t
    have hboth := (h'.suffix t).trans (List.suffix_append_self_iff.2 (h.suffix t))
    by_cases hts : ts = t
    · simp only [if_pos hts] at hboth ⊢
      rwa [List.append_assoc] at hboth
    · simp only [if_neg hts] at hboth ⊢
      rwa [List.append_assoc] at hboth
  kept := by
    intro t hnot
    rw [h'.kept t hnot, h.kept t fun hmem => hnot (h'.reclaimed hmem), List.append_assoc]
    split <;> rfl

section Write

variable {s : Logfs} {ts : Time}

/-- A flush to the cached timestamp's file takes nothing new, however far it gets. -/
theorem filed_flushLogcache (s : Logfs) (ts : Time) (bytesToAppend : Nat) :
    Filed ts [] s (flushLogcache s.cache.timestamp s bytesToAppend) := by
  have hspilled := spilled_flushLogcache s.cache.timestamp s bytesToAppend
  generalize flushLogcache s.cache.timestamp s bytesToAppend = s' at hspilled
  generalize (flushMoves s.cache.buffer s.fs.appendFails).1 = n at hspilled
  have hcached : ∀ t, logged s' t = stored s' t ++ if s.cache.timestamp = t then s.cache.buffer.content.drop n else [] := by
    intro t
    rw [logged, hspilled.cache]
    rfl
  have hwhole : ∀ t, (if t = s.cache.timestamp then s.cache.buffer.content.take n else []) ++
      (if s.cache.timestamp = t then s.cache.buffer.content.drop n else []) =
        if s.cache.timestamp = t then s.cache.buffer.content else [] := by
    intro t
    by_cases ht : t = s.cache.timestamp
    · rw [if_pos ht, if_pos ht.symm, if_pos ht.symm, List.take_append_drop]
    · rw [if_neg ht, if_neg (Ne.symm ht), if_neg (Ne.symm ht)]
      rfl
  have hlogged : ∀ t, logged s' t = logged s t ∨ t ∈ s'.reclaimed ∧ logged s' t <:+ logged s t := by
    intro t
    rw [hcached]
    obtain hall | ⟨hgone, hrest⟩ := hspilled.stored t
    · rw [hall, List.append_assoc, hwhole]
      exact .inl rfl
    · rw [hrest, hwhole]
      exact .inr ⟨hgone, List.suffix_append _ _⟩
  refine ⟨hspilled.reclaimed, fun t => ?_, fun t hnot => ?_⟩
  · rw [ite_self, List.append_nil]
    obtain hall | ⟨-, hsuffix⟩ := hlogged t
    · exact hall ▸ List.suffix_refl _
    · exact hsuffix
  · rw [ite_self, List.append_nil]
    exact (hlogged t).resolve_right fun hgone => hnot hgone.1

theorem filed_ringbufWrite (hts : s.cache.timestamp = ts) (data : List Byte) :
    Filed ts (data.take (s.cache.buffer.capacity - s.cache.buffer.content.length)) s (ringbufWrite s data).1 :=
  .of_logged rfl (logged_ringbufWrite hts data)

end Write

/-! ### Writes -/

/-- The cache and the failures to come when a write begins to take bytes: after the flush that a change of the timestamp makes. -/
def begins (s : Logfs) (timestamp : Time) : RingBuffer Byte × List Bool :=
  if timestamp = s.cache.timestamp then (s.cache.buffer, s.fs.appendFails)
  else
    (s.cache.buffer.consume (flushMoves s.cache.buffer s.fs.appendFails).1,
      (flushMoves s.cache.buffer s.fs.appendFails).2)

/-- The timestamp stays, or the flush that its change makes moves all that is cached. -/
def Empties (s : Logfs) (timestamp : Time) : Prop :=
  timestamp = s.cache.timestamp ∨ (flushMoves s.cache.buffer s.fs.appendFails).1 = s.cache.buffer.length

/-- A cache takes a write in two pieces at most: it is full, or its room and what the flush of the filled cache makes are enough, or that flush moves nothing, or the first append after it fails. -/
def TwoPieces (ring : RingBuffer Byte) (fails : List Bool) (log : List Byte) : Prop :=
  ring.capacity - ring.length = 0 ∨
    log.length ≤ ring.capacity - ring.length + (flushMoves (ring.write log) fails).1 ∨
    (flushMoves (ring.write log) fails).1 = 0 ∨ (flushMoves (ring.write log) fails).2.head? = some true

/-- A flush, or a write that is refused for its size or goes on from an empty or its own log's cache in two pieces at most. -/
def Files (s : Logfs) : Op → Prop
  | .write timestamp log =>
      s.maxSize < log.length ∨
        Empties s timestamp ∧ TwoPieces (begins s timestamp).1 (begins s timestamp).2 log
  | .flush => True
  | .delete _ | .clear => False

/-- The bytes a call reports as written to a timestamp. -/
def taken (t : Time) (s : Logfs) : Op → List Byte
  | .write timestamp log => if timestamp = t then log.take (logfsWrite timestamp log s).2.toNat else []
  | .flush | .delete _ | .clear => []

/-- The bytes that the calls of a run report as written to a timestamp, in order. -/
def takenBy (t : Time) (s : Logfs) (ops : List Op) : List Byte := (outputs step (taken t) s ops).flatten

instance (s : Logfs) (timestamp : Time) : Decidable (Empties s timestamp) := inferInstanceAs (Decidable (_ ∨ _))

instance (ring : RingBuffer Byte) (fails : List Bool) (log : List Byte) : Decidable (TwoPieces ring fails log) :=
  inferInstanceAs (Decidable (_ ∨ _ ∨ _ ∨ _))

instance (s : Logfs) : DecidablePred (Files s)
  | .write _ _ => inferInstanceAs (Decidable (_ ∨ _ ∧ _))
  | .flush => isTrue trivial
  | .delete _ | .clear => isFalse id

section Write

variable {s : Logfs} {ts : Time}

theorem begins_changeTimestamp (hempties : Empties s ts) (log : List Byte) :
    Filed ts [] s (changeTimestamp ts log s) ∧ (changeTimestamp ts log s).cache.timestamp = ts ∧
      (changeTimestamp ts log s).cache.buffer = (begins s ts).1 ∧
      (changeTimestamp ts log s).fs.appendFails = (begins s ts).2 := by
  unfold changeTimestamp begins
  by_cases hts : ts = s.cache.timestamp
  · simp only [hts, ne_eq, not_true, if_false, if_true]
    refine ⟨.of_logged rfl fun t => ?_, trivial, trivial, trivial⟩
    rw [ite_self, List.append_nil]
  · simp only [hts, ne_eq, not_false_iff, if_true, if_false]
    have hfiled := filed_flushLogcache s ts (s.cache.buffer.length + log.length)
    have hspilled := spilled_flushLogcache s.cache.timestamp s (s.cache.buffer.length + log.length)
    generalize flushLogcache s.cache.timestamp s (s.cache.buffer.length + log.length) = s' at hfiled hspilled
    have hnone : s'.cache.buffer.content = [] := by
      rw [hspilled.cache, hempties.resolve_left hts]
      exact List.drop_length
    have hsame : ∀ t, logged { s' with cache.timestamp := ts } t = logged s' t := by
      intro t
      show stored s' t ++ (if ts = t then s'.cache.buffer.content else []) = _
      rw [logged, hnone, ite_self, ite_self]
    refine ⟨⟨hfiled.reclaimed, fun t => ?_, fun t hnot => ?_⟩, trivial, ?_, hspilled.fails⟩
    · rw [hsame]
      exact hfiled.suffix t
    · rw [hsame]
      exact hfiled.kept t hnot
    · rw [hspilled.cache]

/-- A turn of the loop: a flush, and as many of the remaining bytes as it made room for. -/
theorem filed_turn (hts : s.cache.timestamp = ts) {log : List Byte} {written writtenTotal : Nat} (hsome : written ≠ 0)
    (hspills : writtenTotal < log.length) (fuel : Nat) {piece : List Byte}
    (hpiece : (log.drop written).take (log.length - writtenTotal) = piece)
    (hfull : s.cache.buffer.content.length = s.cache.buffer.capacity) :
    ∃ s', writeLoop ts log (fuel + 1) s written writtenTotal =
        writeLoop ts log fuel s' (min (flushMoves s.cache.buffer s.fs.appendFails).1 piece.length)
          (writtenTotal + min (flushMoves s.cache.buffer s.fs.appendFails).1 piece.length) ∧
      Filed ts (piece.take (flushMoves s.cache.buffer s.fs.appendFails).1) s s' ∧
      s'.cache.timestamp = ts ∧
      s'.cache.buffer = (s.cache.buffer.consume (flushMoves s.cache.buffer s.fs.appendFails).1).write piece ∧
      s'.fs.appendFails = (flushMoves s.cache.buffer s.fs.appendFails).2 := by
  have hfiled := filed_flushLogcache s ts (s.cache.buffer.capacity + (log.length - writtenTotal))
  have hspilled :=
    spilled_flushLogcache s.cache.timestamp s (s.cache.buffer.capacity + (log.length - writtenTotal))
  have hmoves : (flushMoves s.cache.buffer s.fs.appendFails).1 ≤ s.cache.buffer.content.length := moves_le _ _ _
  rw [writeLoop_turn ts hsome hspills, hpiece]
  rw [hts] at hfiled hspilled
  generalize flushLogcache ts s (s.cache.buffer.capacity + (log.length - writtenTotal)) = s' at hfiled hspilled
  generalize (flushMoves s.cache.buffer s.fs.appendFails).1 = n at hspilled hmoves ⊢
  have hroom : s'.cache.buffer.capacity - s'.cache.buffer.content.length = n := by
    rw [hspilled.cache]
    show s.cache.buffer.capacity - (s.cache.buffer.content.drop n).length = n
    rw [List.length_drop]
    omega
  have hts' : s'.cache.timestamp = ts := by rw [hspilled.cache]; exact hts
  have hwrite := filed_ringbufWrite hts' piece
  rw [hroom] at hwrite
  have htaken : (ringbufWrite s' piece).2 = min n piece.length := by
    rw [← hroom]
    rfl
  refine ⟨(ringbufWrite s' piece).1, by rw [htaken], ?_, hts', ?_, hspilled.fails⟩
  · have hall := hfiled.trans hwrite
    rwa [List.nil_append] at hall
  · show s'.cache.buffer.write piece = _
    rw [hspilled.cache]

theorem writeLoop_stop (ts : Time) (log : List Byte) (fuel : Nat) (s : Logfs) (writtenTotal : Nat) :
    writeLoop ts log fuel s 0 writtenTotal = (s, writtenTotal) := by
  cases fuel with
  | zero => rfl
  | succ fuel => rw [writeLoop, if_neg fun hcontinues => hcontinues.1 rfl]

theorem flushMoves_of_failing {ring : RingBuffer Byte} (hsome : ring.length ≠ 0) {fails : List Bool}
    (hfails : fails.head? = some true) : (flushMoves ring fails).1 = 0 := by
  obtain ⟨fuel, hfuel⟩ := Nat.exists_eq_succ_of_ne_zero hsome
  rw [flushMoves, hfuel, moves, if_neg hsome, if_pos hfails]

/-- The second piece of a write, after which the cache is full again or the write at its end. -/
theorem filed_secondPiece (hts : s.cache.timestamp = ts) {log : List Byte} {written : Nat} (hsome : written ≠ 0)
    (hspills : written < log.length) (hfull : s.cache.buffer.content.length = s.cache.buffer.capacity)
    (htwo : log.length ≤ written + (flushMoves s.cache.buffer s.fs.appendFails).1 ∨
      (flushMoves s.cache.buffer s.fs.appendFails).1 = 0 ∨
      (flushMoves s.cache.buffer s.fs.appendFails).2.head? = some true) :
    ∃ more, (writeLoop ts log (log.length + 1) s written written).2 = written + more ∧
      Filed ts ((log.drop written).take more) s (writeLoop ts log (log.length + 1) s written written).1 := by
  have hpiece : (log.drop written).take (log.length - written) = log.drop written := by
    rw [← List.length_drop, List.take_length]
  obtain ⟨s', hloop, hfiled, hts', hbuffer, hfails⟩ := filed_turn hts hsome hspills log.length hpiece hfull
  have hmoves : (flushMoves s.cache.buffer s.fs.appendFails).1 ≤ s.cache.buffer.content.length := moves_le _ _ _
  rw [hloop]
  rw [List.length_drop]
  generalize (flushMoves s.cache.buffer s.fs.appendFails).1 = n at *
  generalize (flushMoves s.cache.buffer s.fs.appendFails).2 = fails at *
  refine ⟨min n (log.length - written), ?_⟩
  by_cases hall : log.length ≤ written + n
  · -- The room is enough for all the rest.
    have hend : written + min n (log.length - written) = log.length := by omega
    have htake : (log.drop written).take n = (log.drop written).take (min n (log.length - written)) := by
      rw [← List.length_drop, List.take_eq_take_min]
    rw [hend, writeLoop_done, ← htake]
    exact ⟨rfl, hfiled⟩
  · rw [Nat.min_eq_left (by omega)]
    by_cases hnone : n = 0
    · subst hnone
      rw [writeLoop_stop]
      exact ⟨rfl, hfiled⟩
    · -- The cache is full again, and the flush that a third piece waits for moves nothing.
      have hfailing : fails.head? = some true := (htwo.resolve_left hall).resolve_left hnone
      have hfull' : s'.cache.buffer.content.length = s'.cache.buffer.capacity := by
        rw [hbuffer]
        show ((s.cache.buffer.content.drop n) ++ (log.drop written).take
          (s.cache.buffer.capacity - (s.cache.buffer.content.drop n).length)).length = s.cache.buffer.capacity
        simp only [List.length_append, List.length_take, List.length_drop]
        omega
      have hcapacity : s'.cache.buffer.capacity = s.cache.buffer.capacity := by
        rw [hbuffer]
        rfl
      obtain ⟨fuel, hfuel⟩ : ∃ fuel, log.length = fuel + 1 := ⟨log.length - 1, by omega⟩
      obtain ⟨s'', hloop', hfiled', -, -, -⟩ :=
        filed_turn hts' hnone (show written + n < log.length by omega) fuel rfl hfull'
      have hnothing : (flushMoves s'.cache.buffer s'.fs.appendFails).1 = 0 := by
        refine flushMoves_of_failing ?_ (hfails ▸ hfailing)
        show s'.cache.buffer.content.length ≠ 0
        omega
      rw [hnothing, Nat.zero_min, Nat.add_zero, writeLoop_stop, ← hfuel] at hloop'
      rw [hnothing, List.take_zero] at hfiled'
      rw [hloop']
      refine ⟨rfl, ?_⟩
      have hboth := hfiled.trans hfiled'
      rwa [List.append_nil] at hboth

/-- A write files what it reports as written. -/
theorem filed_logfsWrite {log : List Byte} (hfiles : Files s (.write ts log)) :
    Filed ts (log.take (logfsWrite ts log s).2.toNat) s (logfsWrite ts log s).1 := by
  unfold logfsWrite
  by_cases hrefused : log.length > s.maxSize
  · rw [if_pos hrefused]
    refine .of_logged rfl fun t => ?_
    show logged s t = logged s t ++ if ts = t then log.take 0 else []
    rw [List.take_zero, ite_self, List.append_nil]
  · rw [if_neg hrefused]
    obtain ⟨hempties, htwo⟩ := hfiles.resolve_left hrefused
    obtain ⟨hchange, hts, hbuffer, hfails⟩ := begins_changeTimestamp hempties log
    rw [← hbuffer, ← hfails] at htwo
    generalize changeTimestamp ts log s = s' at hchange hts hbuffer hfails htwo
    have hwrite := filed_ringbufWrite hts log
    have htaken : (ringbufWrite s' log).2 =
        min (s'.cache.buffer.capacity - s'.cache.buffer.content.length) log.length := rfl
    have hfiled := hchange.trans hwrite
    rw [List.nil_append] at hfiled
    show Filed ts (log.take (((writeLoop ts log (log.length + 1) (ringbufWrite s' log).1 (ringbufWrite s' log).2
        (ringbufWrite s' log).2).2 : Int).toNat)) s
      (writeLoop ts log (log.length + 1) (ringbufWrite s' log).1 (ringbufWrite s' log).2 (ringbufWrite s' log).2).1
    rw [Int.toNat_natCast]
    by_cases hspills : 0 < s'.cache.buffer.capacity - s'.cache.buffer.content.length ∧
        s'.cache.buffer.capacity - s'.cache.buffer.content.length < log.length
    · obtain ⟨hsome, hspills⟩ := hspills
      rw [Nat.min_eq_left (Nat.le_of_lt hspills)] at htaken
      have hfull : (ringbufWrite s' log).1.cache.buffer.content.length = s'.cache.buffer.capacity := by
        show (s'.cache.buffer.content ++ log.take _).length = _
        rw [List.length_append, List.length_take]
        omega
      obtain ⟨more, hmore, hsecond⟩ := filed_secondPiece (s := (ringbufWrite s' log).1) hts (Nat.ne_of_gt hsome) hspills
        hfull (htwo.resolve_left (Nat.ne_of_gt hsome))
      rw [htaken, hmore, List.take_add]
      exact hfiled.trans hsecond
    · have hstops : ¬ ((ringbufWrite s' log).2 ≠ 0 ∧ (ringbufWrite s' log).2 < log.length) := by omega
      rw [writeLoop, if_neg hstops, htaken, ← List.take_eq_take_min]
      exact hfiled

end Write

/-! ### Runs -/

theorem filed_step {s : Logfs} {op : Op} (hfiles : Files s op) :
    s.reclaimed ⊆ (step s op).reclaimed ∧
      ∀ t, logged (step s op) t <:+ logged s t ++ taken t s op ∧
        (t ∉ (step s op).reclaimed → logged (step s op) t = logged s t ++ taken t s op) := by
  cases op with
  | write ts log =>
      have hfiled := filed_logfsWrite hfiles
      exact ⟨hfiled.reclaimed, fun t => ⟨hfiled.suffix t, hfiled.kept t⟩⟩
  | flush =>
      have hfiled := filed_flushLogcache s s.cache.timestamp s.cache.buffer.length
      refine ⟨hfiled.reclaimed, fun t => ?_⟩
      have hsuffix := hfiled.suffix t
      have hkept := hfiled.kept t
      rw [ite_self] at hsuffix hkept
      exact ⟨hsuffix, hkept⟩
  | delete ts => exact absurd hfiles id
  | clear => exact absurd hfiles id

theorem filed_run {s : Logfs} {ops : List Op} (hfiles : EveryStep step Files s ops) :
    s.reclaimed ⊆ (run step s ops).reclaimed ∧
      ∀ t, logged (run step s ops) t <:+ logged s t ++ takenBy t s ops ∧
        (t ∉ (run step s ops).reclaimed → logged (run step s ops) t = logged s t ++ takenBy t s ops) := by
  induction ops generalizing s with
  | nil =>
      have hnone : ∀ t, logged s t = logged s t ++ takenBy t s [] := fun t => (List.append_nil _).symm
      exact ⟨List.Subset.refl _, fun t => ⟨hnone t ▸ List.suffix_refl _, fun _ => hnone t⟩⟩
  | cons op ops ih =>
      obtain ⟨hreclaimed, hfiled⟩ := filed_step hfiles.1
      obtain ⟨hreclaimed', hfiled'⟩ := ih hfiles.2
      refine ⟨List.Subset.trans hreclaimed hreclaimed', fun t => ?_⟩
      have htaken : logged s t ++ takenBy t s (op :: ops) =
          logged s t ++ taken t s op ++ takenBy t (step s op) ops := (List.append_assoc _ _ _).symm
      rw [run_cons, htaken]
      constructor
      · exact (hfiled' t).1.trans (List.suffix_append_self_iff.2 (hfiled t).1)
      · intro hnot
        rw [(hfiled' t).2 hnot, (hfiled t).2 fun hmem => hnot (hreclaimed' hmem)]

/-- Whichever appends fail, along every run of writes and flushes that meet the condition the file of every timestamp, followed by the cache if it is the cached one, holds what was there and what the writes to it reported as written, in order; of a log deleted to make room, it holds the end of that. Where the limits leave room, none is. -/
theorem failed_flush_misfiles_nothing (fs : Fs) (maxSize maxLogs cacheSize : Nat) (mallocFails : List Bool)
    (ops : List Op)
    (hfiles : EveryStep step Files (logfsCreate fs maxSize maxLogs cacheSize mallocFails) ops) (t : Time) :
    logged (run step (logfsCreate fs maxSize maxLogs cacheSize mallocFails) ops) t <:+
        (fs.dir.find t).getD [] ++ takenBy t (logfsCreate fs maxSize maxLogs cacheSize mallocFails) ops ∧
      (t ∉ (run step (logfsCreate fs maxSize maxLogs cacheSize mallocFails) ops).reclaimed →
        logged (run step (logfsCreate fs maxSize maxLogs cacheSize mallocFails) ops) t =
          (fs.dir.find t).getD [] ++ takenBy t (logfsCreate fs maxSize maxLogs cacheSize mallocFails) ops) ∧
      (EveryStep step Spares (logfsCreate fs maxSize maxLogs cacheSize mallocFails) ops →
        logged (run step (logfsCreate fs maxSize maxLogs cacheSize mallocFails) ops) t =
          (fs.dir.find t).getD [] ++ takenBy t (logfsCreate fs maxSize maxLogs cacheSize mallocFails) ops) := by
  have hempty : logged (logfsCreate fs maxSize maxLogs cacheSize mallocFails) t = (fs.dir.find t).getD [] := by
    show (fs.dir.find t).getD [] ++ (if (0 : Time) = t then [] else []) = _
    rw [ite_self, List.append_nil]
  have hfiled := (filed_run hfiles).2 t
  rw [hempty] at hfiled
  obtain ⟨hsuffix, hkept⟩ := hfiled
  refine ⟨hsuffix, hkept, fun hspares => hkept ?_⟩
  have hreclaimed := spared_run hspares (known_nil fs.dir)
  rw [hreclaimed]
  exact List.not_mem_nil

/-- A flush on request may fail, and a later one stores its bytes with those that came after. -/
theorem failed_flush_retried :
    logged (run step (logfsCreate { dir := .empty, appendFails := [true] } 8192 4 0)
        [.write 1 [7], .flush, .write 1 [8], .flush, .write 2 [9]]) 1 =
      takenBy 1 (logfsCreate { dir := .empty, appendFails := [true] } 8192 4 0)
        [.write 1 [7], .flush, .write 1 [8], .flush, .write 2 [9]] :=
  (failed_flush_misfiles_nothing { dir := .empty, appendFails := [true] } 8192 4 0 []
    [.write 1 [7], .flush, .write 1 [8], .flush, .write 2 [9]] (by decide +kernel) 1).2.2 (by decide +kernel)

/-- A change of the timestamp whose flush fails takes the cached byte along to the new log. -/
theorem failed_flush_misfiles :
    (run step (logfsCreate { dir := .empty, appendFails := [true] } 8192 2 0)
        [.write 1 [7], .write 2 [8], .flush]).reclaimed = [] ∧
      takenBy 1 (logfsCreate { dir := .empty, appendFails := [true] } 8192 2 0)
        [.write 1 [7], .write 2 [8], .flush] = [7] ∧
      logged (run step (logfsCreate { dir := .empty, appendFails := [true] } 8192 2 0)
        [.write 1 [7], .write 2 [8], .flush]) 1 = [] ∧
      takenBy 2 (logfsCreate { dir := .empty, appendFails := [true] } 8192 2 0)
        [.write 1 [7], .write 2 [8], .flush] = [8] ∧
      stored (run step (logfsCreate { dir := .empty, appendFails := [true] } 8192 2 0)
        [.write 1 [7], .write 2 [8], .flush]) 2 = [7, 8] := by
  decide +kernel

end Evse.Logfs
