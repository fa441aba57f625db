import Evse.Fs.Lfs

/-!
# Which files stay open

An operation on a file opens it, and closes it at its end. A failing seek leaves the function before that, and so does a read from an empty file or into an empty buffer: then the structure on the stack stays open.
-/

namespace Evse.Lfs

open CString Environment StepRun

section Operations

variable (lfs : Log → Call → Int)

/-! ### Where a file is abandoned -/

/-- A write that has opened its file and fails to seek. -/
def AbandonsWrite (filepath : Text) (offset flags : Nat) (log : Log) : Prop :=
  let made := createDirectory lfs filepath log
  let opened := ask lfs (.fileOpen log.length filepath flags) made.2
  made.1 = 0 ∧ opened.1 = LFS_ERR_OK ∧ (seekTo lfs log.length offset opened.2).1 < 0

/-- A read that has opened its file and has nothing to read, or fails to seek. -/
def AbandonsRead (filepath : Text) (offset bufsize : Nat) (log : Log) : Prop :=
  let opened := ask lfs (.fileOpen log.length filepath LFS_O_RDONLY) log
  let fileSize := ask lfs (.fileSize log.length) opened.2
  opened.1 = LFS_ERR_OK ∧
    (min (toSize fileSize.1) (toSize bufsize) = 0 ∨ (seekTo lfs log.length offset fileSize.2).1 < 0)

def Abandons (log : Log) : Op → Prop
  | .read filepath offset bufsize => AbandonsRead lfs filepath offset bufsize log
  | .write filepath offset _ => AbandonsWrite lfs filepath offset (LFS_O_RDWR ||| LFS_O_CREAT) log
  | .append _ _ => False
  | .size _ => False

/-! ### Calls that open and close nothing -/

theorem openFiles_ask (c : Call) (log : Log) :
    openFiles (ask lfs c log).2 = (use (c, (ask lfs c log).1)).apply (openFiles log) := held_ask lfs c log

theorem openFiles_seekTo (file offset : Nat) (log : Log) :
    openFiles (seekTo lfs file offset log).2 = openFiles log := by
  rw [seekTo]
  split
  · rfl
  · exact openFiles_ask lfs _ log

theorem prefix_seekTo (file offset : Nat) (log : Log) : log <+: (seekTo lfs file offset log).2 := by
  rw [seekTo]
  split
  · exact List.prefix_rfl
  · exact prefix_ask lfs _ log

theorem createDirectories_spec (p : Text) (rounds : Nat) (rest : Text) (offset : Nat) (log : Log) :
    log <+: (createDirectories lfs p rounds rest offset log).2 ∧
      openFiles (createDirectories lfs p rounds rest offset log).2 = openFiles log := by
  induction rounds generalizing rest offset log with
  | zero => exact ⟨List.prefix_rfl, rfl⟩
  | succ rounds ih =>
      cases rest with
      | nil => exact ⟨List.prefix_rfl, rfl⟩
      | cons c rest =>
          rw [createDirectories]
          dsimp only
          split
          · exact ih rest offset log
          · split
            · exact ⟨prefix_ask lfs _ log, openFiles_ask lfs _ log⟩
            · obtain ⟨hgrows, hopen⟩ := ih (rest.drop (findDirTraillingSlash (c :: rest)))
                (offset + findDirTraillingSlash (c :: rest) + 1)
                (ask lfs (.mkdir (p.take (min (offset + findDirTraillingSlash (c :: rest)) fsFilenameMax))) log).2
              exact ⟨(prefix_ask lfs _ log).trans hgrows, hopen.trans (openFiles_ask lfs _ log)⟩

theorem createDirectory_spec (filepath : Text) (log : Log) :
    log <+: (createDirectory lfs filepath log).2 ∧
      openFiles (createDirectory lfs filepath log).2 = openFiles log :=
  createDirectories_spec lfs _ _ _ _ log

/-! ### One operation -/

/-- The file with the number of the calls so far is new. -/
def Fresh (log : Log) : Prop := ∀ file ∈ openFiles log, file < log.length

theorem Fresh.not_mem {log : Log} (h : Fresh log) : log.length ∉ openFiles log :=
  fun hmem => Nat.lt_irrefl _ (h _ hmem)

/-- What an operation does to the log: its file is left open if it was abandoned, and nothing else has changed. -/
structure Leaves (log log' : Log) (abandons : Prop) : Prop where
  longer : log <+: log'
  abandoned : abandons → log.length < log'.length ∧ openFiles log' = insert log.length (openFiles log)
  kept : ¬ abandons → openFiles log' = openFiles log

section Opening

variable {log : Log} {file : Nat} {path : Text} {flags : Nat}

theorem openFiles_opened (h : (ask lfs (.fileOpen file path flags) log).1 = LFS_ERR_OK) :
    openFiles (ask lfs (.fileOpen file path flags) log).2 = insert file (openFiles log) := by
  rw [openFiles_ask, h]
  rfl

theorem openFiles_notOpened (h : ¬ (ask lfs (.fileOpen file path flags) log).1 = LFS_ERR_OK) :
    openFiles (ask lfs (.fileOpen file path flags) log).2 = openFiles log := by
  rw [openFiles_ask]
  simp only [use, if_neg h]
  rfl

end Opening

/-- An operation that closes the file it has opened. -/
theorem Leaves.closes {log log' log'' : Log} {abandons : Prop} (h : Fresh log) (hgrows : log <+: log')
    (hopen : openFiles log' = insert log.length (openFiles log))
    (hclosed : log'' = (ask lfs (.fileClose log.length) log').2) (hkeeps : ¬ abandons) : Leaves log log'' abandons where
  longer := hclosed ▸ hgrows.trans (prefix_ask lfs _ log')
  abandoned := fun habandons => absurd habandons hkeeps
  kept := fun _ => by
    have hclose : openFiles log'' = (openFiles log').erase log.length := by
      rw [hclosed]
      exact openFiles_ask lfs _ log'
    rw [hclose, hopen, Finset.erase_insert h.not_mem]

theorem leaves_writeCore {log : Log} (h : Fresh log) (filepath : Text) (offset : Nat) (data : List UInt8) (flags : Nat) :
    Leaves log (writeCore lfs filepath offset data flags log).2 (AbandonsWrite lfs filepath offset flags log) := by
  obtain ⟨hgrows, hmade⟩ := createDirectory_spec lfs filepath log
  rw [writeCore, AbandonsWrite]
  dsimp only
  by_cases hdir : (createDirectory lfs filepath log).1 = 0
  · rw [if_neg (not_not.2 hdir)]
    have hlonger := hgrows.trans
      (prefix_ask lfs (.fileOpen log.length filepath flags) (createDirectory lfs filepath log).2)
    by_cases hopened : (ask lfs (.fileOpen log.length filepath flags) (createDirectory lfs filepath log).2).1 = LFS_ERR_OK
    · rw [if_neg (not_not.2 hopened)]
      have hopen := openFiles_opened lfs hopened
      rw [hmade] at hopen
      have hlt : log.length < (ask lfs (.fileOpen log.length filepath flags) (createDirectory lfs filepath log).2).2.length := by
        rw [ask_snd, List.length_append, List.length_singleton]
        exact Nat.lt_succ_of_le hgrows.length_le
      generalize ask lfs (.fileOpen log.length filepath flags) (createDirectory lfs filepath log).2 = opened at *
      have hsought := openFiles_seekTo lfs log.length offset opened.2
      have hseekGrows := prefix_seekTo lfs log.length offset opened.2
      split
      · rename_i hseek
        exact ⟨hlonger.trans hseekGrows, fun _ => ⟨hlt.trans_le hseekGrows.length_le, hsought.trans hopen⟩,
          fun hkeeps => absurd ⟨hdir, hopened, hseek⟩ hkeeps⟩
      · rename_i hseek
        refine Leaves.closes lfs h ((hlonger.trans hseekGrows).trans (prefix_ask lfs _ _)) ?_ rfl fun habandons => hseek habandons.2.2
        exact (openFiles_ask lfs _ _).trans (hsought.trans hopen)
    · rw [if_pos hopened]
      exact ⟨hlonger, fun habandons => absurd habandons.2.1 hopened, fun _ => (openFiles_notOpened lfs hopened).trans hmade⟩
  · rw [if_pos hdir]
    exact ⟨hgrows, fun habandons => absurd habandons.1 hdir, fun _ => hmade⟩

theorem leaves_doRead {log : Log} (h : Fresh log) (filepath : Text) (offset bufsize : Nat) :
    Leaves log (doRead lfs filepath offset bufsize log).2 (AbandonsRead lfs filepath offset bufsize log) := by
  rw [doRead, AbandonsRead]
  dsimp only
  have hgrows := prefix_ask lfs (.fileOpen log.length filepath LFS_O_RDONLY) log
  by_cases hopened : (ask lfs (.fileOpen log.length filepath LFS_O_RDONLY) log).1 = LFS_ERR_OK
  · rw [if_neg (not_not.2 hopened)]
    have hopen := openFiles_opened lfs hopened
    have hlt : log.length < (ask lfs (.fileOpen log.length filepath LFS_O_RDONLY) log).2.length := by
      rw [ask_snd, List.length_append, List.length_singleton]
      exact Nat.lt_succ_self _
    generalize ask lfs (.fileOpen log.length filepath LFS_O_RDONLY) log = opened at *
    have hsized : openFiles (ask lfs (.fileSize log.length) opened.2).2 = insert log.length (openFiles log) :=
      (openFiles_ask lfs _ _).trans hopen
    have hsizeGrows := prefix_ask lfs (.fileSize log.length) opened.2
    generalize ask lfs (.fileSize log.length) opened.2 = sized at *
    split
    · rename_i hempty
      exact ⟨hgrows.trans hsizeGrows, fun _ => ⟨hlt.trans_le hsizeGrows.length_le, hsized⟩,
        fun hkeeps => absurd ⟨hopened, .inl hempty⟩ hkeeps⟩
    · rename_i hempty
      have hsought := (openFiles_seekTo lfs log.length offset sized.2).trans hsized
      have hseekGrows := hsizeGrows.trans (prefix_seekTo lfs log.length offset sized.2)
      split
      · rename_i hseek
        exact ⟨hgrows.trans hseekGrows, fun _ => ⟨hlt.trans_le hseekGrows.length_le, hsought⟩,
          fun hkeeps => absurd ⟨hopened, .inr hseek⟩ hkeeps⟩
      · rename_i hseek
        refine Leaves.closes lfs h ((hgrows.trans hseekGrows).trans (prefix_ask lfs _ _)) ?_ rfl ?_
        · exact (openFiles_ask lfs _ _).trans hsought
        · rintro ⟨-, habandons | habandons⟩
          · exact hempty habandons
          · exact hseek habandons
  · rw [if_pos hopened]
    exact ⟨hgrows, fun habandons => absurd habandons.1 hopened, fun _ => openFiles_notOpened lfs hopened⟩

theorem leaves_doSize {log : Log} (h : Fresh log) (filepath : Text) :
    Leaves log (doSize lfs filepath log).2 False := by
  have hgrows := prefix_ask lfs (.fileOpen log.length filepath LFS_O_RDONLY) log
  rw [doSize]
  dsimp only
  by_cases hopened : (ask lfs (.fileOpen log.length filepath LFS_O_RDONLY) log).1 = LFS_ERR_OK
  · rw [if_neg (not_not.2 hopened)]
    refine Leaves.closes lfs h (hgrows.trans (prefix_ask lfs (.fileSize log.length) _)) ?_ rfl not_false
    exact (openFiles_ask lfs _ _).trans (openFiles_opened lfs hopened)
  · have hsame := openFiles_notOpened lfs hopened
    rw [if_pos hopened]
    split_ifs <;> exact ⟨hgrows, False.elim, fun _ => hsame⟩

theorem leaves_step {log : Log} (h : Fresh log) (op : Op) : Leaves log (step lfs log op) (Abandons lfs log op) := by
  cases op with
  | read filepath offset bufsize => exact leaves_doRead lfs h filepath offset bufsize
  | write filepath offset data => exact leaves_writeCore lfs h filepath offset data _
  | append filepath data =>
      have hnever : ¬ AbandonsWrite lfs filepath 0 (LFS_O_WRONLY ||| LFS_O_CREAT ||| LFS_O_APPEND) log :=
        fun habandons => absurd habandons.2.2 (Int.lt_irrefl 0)
      have hleaves := leaves_writeCore lfs h filepath 0 data (LFS_O_WRONLY ||| LFS_O_CREAT ||| LFS_O_APPEND)
      exact ⟨hleaves.longer, False.elim, fun _ => hleaves.kept hnever⟩
  | size filepath => exact leaves_doSize lfs h filepath

/-! ### Runs -/

theorem fresh_step {log : Log} (h : Fresh log) (op : Op) : Fresh (step lfs log op) := by
  have hleaves := leaves_step lfs h op
  intro file hfile
  by_cases habandons : Abandons lfs log op
  · obtain ⟨hlt, hopen⟩ := hleaves.abandoned habandons
    rw [hopen, Finset.mem_insert] at hfile
    obtain rfl | hold := hfile
    · exact hlt
    · exact (h file hold).trans hlt
  · rw [hleaves.kept habandons] at hfile
    exact (h file hfile).trans_le hleaves.longer.length_le

theorem openFiles_step_iff {log : Log} (h : Fresh log) (op : Op) :
    openFiles (step lfs log op) = openFiles log ↔ ¬ Abandons lfs log op := by
  have hleaves := leaves_step lfs h op
  refine ⟨fun hsame habandons => ?_, hleaves.kept⟩
  have hmem := Finset.mem_insert_self log.length (openFiles log)
  rw [← (hleaves.abandoned habandons).2, hsame] at hmem
  exact h.not_mem hmem

/-- In a run, every operation leaves the files open that it found open if and only if none abandons its file. -/
theorem closes_what_it_opens_iff (ops : List Op) :
    EveryStep (step lfs) (fun log op => openFiles (step lfs log op) = openFiles log) [] ops ↔
      EveryStep (step lfs) (fun log op => ¬ Abandons lfs log op) [] ops :=
  everyStep_congr (I := Fresh) (fun _ op h => fresh_step lfs h op) (fun _ op h => openFiles_step_iff lfs h op)
    (fun _ hfile => absurd hfile (Finset.notMem_empty _)) ops

end Operations

/-- Every call succeeds, and the file has no bytes. -/
theorem empty_file_stays_open :
    ¬ EveryStep (step fun _ _ => 0) (fun log op => openFiles (step (fun _ _ => 0) log op) = openFiles log) []
      [.read (ascii "config") 0 64] := by
  decide

end Evse.Lfs
