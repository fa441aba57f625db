import Evse.Fs.Appending
import Evse.Lib.Printf

/-!
# Reading logs back

`cmd_log.c` lists the logs and prints one of them, by reading its file in blocks until the size in the list is reached. What was written goes through the cache, the file and the blocks, and comes out as it went in, if there is memory for a block.

The timestamp 0 is a case of its own: for it `logfs_size` answers with the size of all logs, so that the log of that timestamp is printed with a complaint at its end.
-/

namespace Evse.Logfs

open CString StepRun

def EBADF : Int := 9

def maxBufsize : Nat := 4096

section Read

variable (self : Logfs) (timestamp : Time)

/-- `fs_read` of `lfs.c`: no more than the file has, and from the offset on. -/
def fsRead (fs : Fs) (offset bufsize : Nat) : Except Int (List Byte) :=
  match fs.dir.find timestamp with
  | none => .error (-ENOENT)
  | some content =>
      let len := min content.length bufsize
      if len = 0 then .error (-EBADF) else .ok ((content.drop offset).take len)

def logfsRead (offset bufsize : Nat) : Except Int (List Byte) := fsRead timestamp self.fs offset bufsize

def findLog : Option LogFile := self.logList.find? (·.timestamp = timestamp)

def logfsSize : Nat :=
  if timestamp = 0 then computeTotalSize self.logList
  else
    match findLog self timestamp with
    | none => 0
    | some file => file.size

/-- The timestamps that `logfs_dir` calls back with. -/
def logfsDir (maxFiles : Nat) : List Time :=
  let timestamps := self.logList.map LogFile.timestamp
  if maxFiles = 0 then timestamps else timestamps.take maxFiles

end Read

/-! ### The command -/

section Command

variable (self : Logfs)

def println (str : Text) : Text := str ++ [10]

theorem println_ne_nil (str : Text) : println str ≠ [] := List.append_ne_nil_of_right_ne_nil str (List.cons_ne_nil 10 [])

def onDir (ts : Time) : Text :=
  println (printInt ts ++ ascii " (" ++ printNat (logfsSize self ts) ++ ascii " bytes)")

/-- The complaint is printed into the buffer of the blocks. -/
def failedToRead (i filesize blocksize : Nat) : Text :=
  println ((ascii "Failed to read at " ++ printNat i ++ ascii "/" ++ printNat filesize).take (blocksize - 1))

/-- The loop of `print_log` from the offset `i` on. Each round but the last prints a byte at least. -/
def printBlocks (ts : Time) (filesize blocksize : Nat) : Nat → Nat → Text
  | 0, _ => []
  | rounds + 1, i =>
      if i < filesize then
        match logfsRead self ts i blocksize with
        | .error _ => failedToRead i filesize blocksize
        | .ok [] => failedToRead i filesize blocksize
        | .ok buf => buf ++ printBlocks ts filesize blocksize rounds (i + buf.length)
      else []

/-- There is a buffer for the blocks if there is memory. -/
def printLog (memory : Bool) (filename : Text) : Text :=
  let ts := strtol 64 filename
  let filesize := logfsSize self ts
  if filesize = 0 then println (ascii "Failed to get file size")
  else if !memory then println (ascii "Failed to allocate memory")
  else printBlocks self ts filesize (min filesize maxBufsize) filesize 0

def deleteLogFile (filename : Text) : Logfs × Text :=
  let (self, err) := logfsDelete self (strtol 64 filename)
  if err < 0 then
    (self, println (if err = -ENOENT then ascii "File not found" else ascii "Failed to delete file"))
  else (self, [])

/-- The subcommands that work on the store, `print` for `show`, and the list of logs. -/
inductive LogCommand where
  | list
  | clear
  | rm (filename : Text)
  | print (filename : Text)
  | flush

/-- `log`, with what it writes to the console. -/
def cmdLog (memory : Bool) : LogCommand → Logfs × Text
  | .list => (self, (logfsDir self 0).flatMap (onDir self))
  | .clear => (logfsClear self, [])
  | .rm filename => deleteLogFile self filename
  | .print filename => (self, printLog self memory filename)
  | .flush => (logfsFlush self, [])

end Command

/-! ### What is printed -/

section Printed

variable {s : Logfs} {ts : Time}

/-- Past the end there is nothing to read. -/
theorem logfsRead_end {i : Nat} (h : (stored s ts).length ≤ i) (bufsize : Nat) :
    logfsRead s ts i bufsize = .ok [] ∨ ∃ err, logfsRead s ts i bufsize = .error err := by
  unfold logfsRead fsRead
  unfold stored at h
  cases hfind : s.fs.dir.find ts with
  | none => exact .inr ⟨_, rfl⟩
  | some content =>
      rw [hfind, Option.getD_some] at h
      dsimp only
      by_cases hlen : min content.length bufsize = 0
      · exact .inr ⟨_, if_pos hlen⟩
      · refine .inl ?_
        rw [if_neg hlen, List.drop_eq_nil_of_le h, List.take_nil]

/-- Before the end something is read, and it is what comes next. -/
theorem logfsRead_piece {i bufsize : Nat} (h : i < (stored s ts).length) (hbufsize : 0 < bufsize) :
    ∃ piece, logfsRead s ts i bufsize = .ok piece ∧ piece ≠ [] ∧
      (stored s ts).drop i = piece ++ (stored s ts).drop (i + piece.length) ∧
      i + piece.length ≤ (stored s ts).length := by
  unfold logfsRead fsRead
  unfold stored at h ⊢
  cases hfind : s.fs.dir.find ts with
  | none => simp [hfind] at h
  | some content =>
      rw [hfind, Option.getD_some] at h
      have hlen : min content.length bufsize ≠ 0 := by omega
      have hlength : ((content.drop i).take (min content.length bufsize)).length =
          min (min content.length bufsize) (content.length - i) := by rw [List.length_take, List.length_drop]
      refine ⟨(content.drop i).take (min content.length bufsize), by dsimp only; rw [if_neg hlen], ?_, ?_, ?_⟩
      · intro hnil
        rw [hnil, List.length_nil] at hlength
        omega
      · rw [Option.getD_some, ← List.drop_drop]
        exact (List.prefix_iff_eq_append.1 (List.take_prefix (min content.length bufsize) (content.drop i))).symm
      · rw [Option.getD_some]
        omega

/-- The blocks are the file from the offset on, with the complaint after it if the file is too short. -/
theorem printBlocks_eq {filesize blocksize : Nat} (hblock : 0 < blocksize) (hsize : (stored s ts).length ≤ filesize)
    (rounds i : Nat) (hi : i ≤ (stored s ts).length) (hrounds : filesize ≤ i + rounds) :
    printBlocks s ts filesize blocksize rounds i =
      (stored s ts).drop i ++
        if (stored s ts).length < filesize then failedToRead (stored s ts).length filesize blocksize else [] := by
  induction rounds generalizing i with
  | zero =>
      have hend : (stored s ts).drop i = [] := List.drop_eq_nil_of_le (by omega)
      rw [printBlocks, hend, if_neg (by omega), List.append_nil]
  | succ rounds ih =>
      rw [printBlocks]
      by_cases hmore : i < filesize
      · rw [if_pos hmore]
        by_cases hlast : (stored s ts).length ≤ i
        · -- The file ends here, and the list says it is longer.
          have hsame : (stored s ts).length = i := by omega
          rw [List.drop_eq_nil_of_le hlast, List.nil_append, if_pos (by omega), hsame]
          rcases logfsRead_end hlast blocksize with hread | ⟨err, hread⟩ <;> rw [hread]
        · have hmid : i < (stored s ts).length := Nat.lt_of_not_le hlast
          obtain ⟨piece, hread, hne, hdrop, hle⟩ := logfsRead_piece hmid hblock
          have hpositive : 0 < piece.length := List.length_pos_iff.2 hne
          have hrest := ih (i + piece.length) hle (by omega)
          rw [hread, hdrop, List.append_assoc, ← hrest]
          cases piece with
          | nil => exact absurd rfl hne
          | cons => rfl
      · have hend : (stored s ts).drop i = [] := List.drop_eq_nil_of_le (by omega)
        rw [if_neg hmore, hend, if_neg (by omega), List.append_nil]

/-- A log is printed whole, if the list does not have it shorter than it is. -/
theorem printLog_eq {filename : Text} (hts : strtol 64 filename = ts) (hsize : (stored s ts).length ≤ logfsSize s ts)
    (memory : Bool) :
    printLog s memory filename =
      if logfsSize s ts = 0 then println (ascii "Failed to get file size")
      else if memory then
        stored s ts ++
          if (stored s ts).length < logfsSize s ts then
            failedToRead (stored s ts).length (logfsSize s ts) (min (logfsSize s ts) maxBufsize)
          else []
      else println (ascii "Failed to allocate memory") := by
  unfold printLog
  dsimp only
  rw [hts]
  by_cases hnone : logfsSize s ts = 0
  · rw [if_pos hnone, if_pos hnone]
  · rw [if_neg hnone, if_neg hnone]
    cases memory with
    | false => rfl
    | true =>
        have hblock : 0 < min (logfsSize s ts) maxBufsize := by
          unfold maxBufsize
          omega
        have hblocks := printBlocks_eq hblock hsize (logfsSize s ts) 0 (Nat.zero_le _) (by omega)
        rw [List.drop_zero] at hblocks
        exact hblocks

end Printed

/-! ### What the list knows -/

section Listed

variable {s : Logfs} (h : Lists s.logList s.fs.dir)

include h

theorem Lists.findLog (t : Time) : findLog s t = (s.fs.dir.find t).map fun content => ⟨t, content.length⟩ := by
  unfold Logfs.findLog
  cases hfind : s.fs.dir.find t with
  | none =>
      rw [Option.map_none, List.find?_eq_none]
      intro file hfile hts
      rw [decide_eq_true_eq] at hts
      rw [h.2, mem_fsDir, hts, hfind] at hfile
      cases hfile
  | some content =>
      have hlisted : (⟨t, content.length⟩ : LogFile) ∈ s.logList := by
        rw [h.2, mem_fsDir]
        simp [hfind]
      obtain ⟨file, hfile⟩ : ∃ file, s.logList.find? (·.timestamp = t) = some file := by
        rw [← Option.isSome_iff_exists, List.find?_isSome]
        exact ⟨_, hlisted, by simp⟩
      have hts : file.timestamp = t := by simpa using List.find?_some hfile
      have hsize := (h.2 file).1 (List.mem_of_find?_eq_some hfile)
      rw [mem_fsDir, hts, hfind, Option.map_some, Option.some.injEq] at hsize
      rw [hfile, Option.map_some, hsize, ← hts]

theorem Lists.logfsSize {t : Time} (ht : t ≠ 0) : logfsSize s t = (stored s t).length := by
  rw [Logfs.logfsSize, if_neg ht, h.findLog t, stored]
  cases s.fs.dir.find t <;> rfl

/-- For the timestamp 0 the size is that of all logs. -/
theorem Lists.stored_le (t : Time) : (stored s t).length ≤ Logfs.logfsSize s t := by
  by_cases ht : t = 0
  · have htotal : Logfs.logfsSize s t = computeTotalSize s.logList := if_pos ht
    rw [htotal, stored]
    cases hfind : s.fs.dir.find t with
    | none => exact Nat.zero_le _
    | some content =>
        have hlisted : (⟨t, content.length⟩ : LogFile) ∈ s.logList := by
          rw [h.2, mem_fsDir]
          simp [hfind]
        exact List.le_sum_of_mem (List.mem_map_of_mem hlisted)
  · exact Nat.le_of_eq (h.logfsSize ht).symm

theorem Lists.mem_logfsDir (t : Time) : t ∈ logfsDir s 0 ↔ (s.fs.dir.find t).isSome = true := by
  unfold logfsDir
  dsimp only
  rw [if_pos rfl, List.mem_map]
  constructor
  · rintro ⟨file, hfile, rfl⟩
    rw [h.2, mem_fsDir] at hfile
    obtain ⟨content, hfind, -⟩ := Option.map_eq_some_iff.1 hfile
    rw [hfind]
    rfl
  · intro hsome
    obtain ⟨content, hfind⟩ := Option.isSome_iff_exists.1 hsome
    refine ⟨⟨t, content.length⟩, ?_, rfl⟩
    rw [h.2, mem_fsDir]
    simp [hfind]

theorem Lists.mem_iff (file : LogFile) :
    file ∈ s.logList ↔ (s.fs.dir.find file.timestamp).map List.length = some file.size := by
  rw [h.2, mem_fsDir]

/-- A log is all there is if the others are empty. -/
theorem Lists.total_eq_iff {t : Time} (hsome : stored s t ≠ []) :
    computeTotalSize s.logList = (stored s t).length ↔ ∀ t' ≠ t, stored s t' = [] := by
  have hlisted : (⟨t, (stored s t).length⟩ : LogFile) ∈ s.logList := by
    rw [h.mem_iff]
    unfold stored at hsome ⊢
    cases hfind : s.fs.dir.find t with
    | none => simp [hfind] at hsome
    | some content => rfl
  have hrest := List.sum_map_erase LogFile.size hlisted
  have hnodup : s.logList.Nodup := h.1.nodup.of_map _
  have hzero : computeTotalSize s.logList = (stored s t).length ↔
      ((s.logList.erase ⟨t, (stored s t).length⟩).map LogFile.size).sum = 0 := by
    unfold computeTotalSize
    rw [← hrest]
    exact Nat.add_eq_left
  rw [hzero, List.sum_eq_zero_iff, List.forall_mem_map]
  constructor
  · intro hall t' ht'
    cases hfind : s.fs.dir.find t' with
    | none => simp [stored, hfind]
    | some content =>
        have hfile : (⟨t', content.length⟩ : LogFile) ∈ s.logList := by
          rw [h.mem_iff]
          simp [hfind]
        have hne : (⟨t', content.length⟩ : LogFile) ≠ ⟨t, (stored s t).length⟩ :=
          fun heq => ht' (congrArg LogFile.timestamp heq)
        have hlength := hall _ ((hnodup.mem_erase_iff).2 ⟨hne, hfile⟩)
        rw [stored, hfind, Option.getD_some, ← List.length_eq_zero_iff]
        exact hlength
  · intro hall file hfile
    obtain ⟨hne, hmem⟩ := (hnodup.mem_erase_iff).1 hfile
    rw [h.mem_iff] at hmem
    obtain ⟨content, hfind, hlength⟩ := Option.map_eq_some_iff.1 hmem
    have hts : file.timestamp ≠ t := by
      rintro rfl
      apply hne
      rw [stored, hfind, Option.getD_some, hlength]
    have hempty := hall file.timestamp hts
    rw [stored, hfind, Option.getD_some] at hempty
    rw [← hlength, hempty]
    rfl

/-- The log of the timestamp 0 is printed as if it were as long as all logs. -/
theorem Lists.print_zero :
    ∃ complaint, (cmdLog s true (.print (printInt 0))).2 = stored s 0 ++ complaint ∧
      (complaint = [] ↔ stored s 0 ≠ [] ∧ ∀ t ≠ 0, stored s t = []) := by
  have hle := h.stored_le 0
  have htotal : Logfs.logfsSize s 0 = computeTotalSize s.logList := if_pos rfl
  rw [cmdLog, printLog_eq (strtol_printInt (n := 0) (by decide) (by decide)) hle, if_pos rfl]
  by_cases hnone : Logfs.logfsSize s 0 = 0
  · have hempty : stored s 0 = [] := List.length_eq_zero_iff.1 (by omega)
    rw [if_pos hnone, hempty]
    exact ⟨_, (List.nil_append _).symm, iff_of_false (println_ne_nil _) fun hsome => hsome.1 rfl⟩
  · rw [if_neg hnone]
    refine ⟨_, rfl, ?_⟩
    split
    · rename_i hshort
      refine iff_of_false (println_ne_nil _) ?_
      rintro ⟨hsome, hothers⟩
      have hall := (h.total_eq_iff hsome).2 hothers
      omega
    · rename_i hwhole
      have hsome : stored s 0 ≠ [] := fun hempty => by
        rw [hempty, List.length_nil] at hwhole
        omega
      exact iff_of_true rfl ⟨hsome, (h.total_eq_iff hsome).1 (by omega)⟩

end Listed

/-! ### The round trip -/

/-- The store after a run that ends with `log flush`. -/
def logsAfter (fs : Fs) (maxSize maxLogs cacheSize : Nat) (mallocFails : List Bool) (ops : List Op) : Logfs :=
  run step (logfsCreate fs maxSize maxLogs cacheSize mallocFails) (ops ++ [.flush])

/-- What the log of a timestamp held at first, and what was written to it. -/
def contentAfter (fs : Fs) (ops : List Op) (t : Time) : List Byte := (fs.dir.find t).getD [] ++ given t ops

section RoundTrip

variable {fs : Fs} (hreliable : fs.appendFails = []) {mallocFails : List Bool} (hmemory : true ∉ mallocFails)
  {maxSize maxLogs cacheSize : Nat} {ops : List Op} (hops : ∀ op ∈ ops, op.Logs maxSize)
  (hfits : EveryStep step Fits (logfsCreate fs maxSize maxLogs cacheSize mallocFails) ops)
  (hkept : (run step (logfsCreate fs maxSize maxLogs cacheSize mallocFails) (ops ++ [.flush])).reclaimed = [])

include hreliable hmemory in
/-- After a flush the list is the directory. -/
theorem lists_flushed (maxSize maxLogs cacheSize : Nat) (ops : List Op) :
    Lists (logsAfter fs maxSize maxLogs cacheSize mallocFails ops).logList
      (logsAfter fs maxSize maxLogs cacheSize mallocFails ops).fs.dir := by
  unfold logsAfter
  have hserved : Served (run step (logfsCreate fs maxSize maxLogs cacheSize mallocFails) (ops ++ [.flush])) :=
    served_run fs hreliable mallocFails _ hmemory
  refine Listed.lists ?_ hserved.plenty
  rw [run_append, run_cons, run_nil]
  exact (appended_flushLogcache (tracks_run hreliable maxSize maxLogs cacheSize mallocFails ops) _ _).follows

include hreliable hops hfits hkept in
/-- And every log holds what it held and what was written to it. -/
theorem stored_flushed (t : Time) :
    stored (logsAfter fs maxSize maxLogs cacheSize mallocFails ops) t = contentAfter fs ops t := by
  unfold logsAfter contentAfter
  have hstart : Reliable (logfsCreate fs maxSize maxLogs cacheSize mallocFails) := hreliable
  have hall : ∀ op ∈ ops ++ [.flush], op.Logs maxSize := by
    intro op hop
    rcases List.mem_append.1 hop with hop | hop
    · exact hops op hop
    · rw [List.mem_singleton.1 hop]
      trivial
  obtain ⟨deleted, hdeleted, hlogged⟩ := logged_run hstart hall (everyStep_append.2 ⟨hfits, trivial, trivial⟩)
  have hnone : deleted = [] := by
    rw [← hkept, hdeleted]
    rfl
  have hgiven : given t (ops ++ [.flush]) = given t ops := by
    rw [given_append]
    exact List.append_nil _
  have hempty : logged (logfsCreate fs maxSize maxLogs cacheSize mallocFails) t = (fs.dir.find t).getD [] := by
    show (fs.dir.find t).getD [] ++ (if (0 : Time) = t then [] else []) = _
    rw [ite_self, List.append_nil]
  have hcontent := hlogged hnone t
  rw [hgiven, hempty] at hcontent
  -- The flush has emptied the cache.
  have hcache : (run step (logfsCreate fs maxSize maxLogs cacheSize mallocFails)
      (ops ++ [.flush])).cache.buffer.content = [] := by
    rw [run_append, run_cons, run_nil]
    exact (flushed_flushLogcache (tracks_run hreliable maxSize maxLogs cacheSize mallocFails ops).reliable _ _).content
  rw [← hcontent, logged, hcache, ite_self, List.append_nil]

include hreliable hmemory hops hfits hkept in
/-- After any writes and flushes that find room and lose no log, and a last `log flush`: the list shows exactly the files that there are, in order, and every log that holds anything is one of them; each log but that of the timestamp 0 is printed byte for byte as it was before with all that was written to it at its end, if there is memory for a block; and that one too, with a complaint after it unless it is all there is. -/
theorem log_reads_back :
    (logfsDir (logsAfter fs maxSize maxLogs cacheSize mallocFails ops) 0).Pairwise (· < ·) ∧
      (∀ t, t ∈ logfsDir (logsAfter fs maxSize maxLogs cacheSize mallocFails ops) 0 ↔
        ((logsAfter fs maxSize maxLogs cacheSize mallocFails ops).fs.dir.find t).isSome) ∧
      (∀ t, contentAfter fs ops t ≠ [] → t ∈ logfsDir (logsAfter fs maxSize maxLogs cacheSize mallocFails ops) 0) ∧
      (∀ memory t, -2 ^ 63 ≤ t → t < 2 ^ 63 → t ≠ 0 →
        (cmdLog (logsAfter fs maxSize maxLogs cacheSize mallocFails ops) memory (.print (printInt t))).2 =
          if contentAfter fs ops t = [] then println (ascii "Failed to get file size")
          else if memory then contentAfter fs ops t
          else println (ascii "Failed to allocate memory")) ∧
      ∃ complaint,
        (cmdLog (logsAfter fs maxSize maxLogs cacheSize mallocFails ops) true (.print (printInt 0))).2 =
          contentAfter fs ops 0 ++ complaint ∧
        (complaint = [] ↔ contentAfter fs ops 0 ≠ [] ∧ ∀ t ≠ 0, contentAfter fs ops t = []) := by
  have hlists := lists_flushed hreliable hmemory maxSize maxLogs cacheSize ops
  have hstored := stored_flushed hreliable hops hfits hkept
  generalize logsAfter fs maxSize maxLogs cacheSize mallocFails ops = s at hlists hstored
  simp only [← hstored]
  refine ⟨?_, hlists.mem_logfsDir, ?_, ?_, ?_⟩
  · exact hlists.1.map _ fun _ _ hlt => hlt
  · intro t hsome
    rw [hlists.mem_logfsDir]
    unfold stored at hsome
    cases hfind : s.fs.dir.find t with
    | none => simp [hfind] at hsome
    | some content => rfl
  · intro memory t hlow hhigh ht
    have hsize := hlists.logfsSize ht
    rw [cmdLog, printLog_eq (strtol_printInt hlow hhigh) (Nat.le_of_eq hsize.symm), hsize, if_neg (Nat.lt_irrefl _),
      List.append_nil]
    simp only [List.length_eq_zero_iff]
  · exact hlists.print_zero

end RoundTrip

/-- Two logs are written, and the first is asked for. -/
theorem first_log_reads_back :
    (cmdLog (logsAfter { dir := .empty } 8192 2 0 [] [.write 1 [7, 8], .write 2 [9]]) true (.print (printInt 1))).2 =
      [7, 8] := by
  obtain ⟨-, -, -, hprinted, -⟩ := log_reads_back (show ({ dir := .empty } : Fs).appendFails = [] from rfl)
    (show true ∉ ([] : List Bool) from List.not_mem_nil)
    (show ∀ op ∈ [Op.write 1 [7, 8], .write 2 [9]], op.Logs 8192 by decide)
    (show EveryStep step Fits (logfsCreate { dir := .empty } 8192 2 0) [.write 1 [7, 8], .write 2 [9]] by decide +kernel)
    (by decide +kernel)
  have hlog := hprinted true 1 (by decide) (by decide) (by decide)
  rw [if_neg (by decide), if_pos rfl] at hlog
  exact hlog

end Evse.Logfs
