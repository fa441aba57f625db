import Evse.Updater.Process

/-!
# Firmware over XMODEM

`cmd_xmodem.c` has an update path of its own: the blocks of a transfer go straight to the DFU functions, and after the transfer the image is finished and committed. Where `updater.c` looks at how the download ended before it commits, this one prints it.

The receiver is not part of the repository. It calls back once for each block it received, and stops with an error when the callback or the link fails.
-/

namespace Evse.Xmodem

/-- `xmodem_error_t`, with one error for whatever the link does. -/
inductive XmodemError where
  | none | canceled | noEnoughBuffer | link
  deriving DecidableEq, Repr

/-- A block as the callback gets it, the last one with the number 0, and the answers of the DFU functions called for it. -/
structure Block where
  seq : Nat
  data : List UInt8
  prepareOk : Bool := true
  writeOk : Bool := true

/-- A transfer, and the answers of everything outside the command. -/
structure Transfer where
  blocks : List Block
  linkOk : Bool := true
  dfuNew : Bool := true
  mallocOk : Bool := true
  finishOk : Bool := true
  commitOk : Bool := true

/-- The headers given to `dfu_prepare`, and the data that `dfu_write` took. -/
structure Dfu where
  prepared : List (List UInt8)
  written : List (List UInt8)
  deriving DecidableEq

/-- What the command leaves: the image, the result of the transfer, the number of calls of `dfu_commit`, and its last message. -/
structure Outcome where
  dfu : Dfu
  err : XmodemError
  commits : Nat
  message : Option String
  deriving DecidableEq

variable (P : Platform)

def onRecvFirmware (dfu : Dfu) (block : Block) : Dfu × XmodemError :=
  if block.seq = 1 then
    let hdr := block.data.take P.headerSize
    if !P.isValidHeader hdr then (dfu, .canceled)
    else
      let dfu := { dfu with prepared := dfu.prepared ++ [hdr] }
      if !block.prepareOk || !block.writeOk then (dfu, .canceled)
      else ({ dfu with written := dfu.written ++ [block.data.drop P.headerSize] }, .none)
  else if block.seq = 0 then (dfu, .none)
  else if !block.writeOk then (dfu, .canceled)
  else ({ dfu with written := dfu.written ++ [block.data] }, .none)

/-- The receiver, with any callback. -/
def xmodemReceive {σ : Type*} (cb : σ → Block → σ × XmodemError) (linkOk : Bool) : σ → List Block → σ × XmodemError
  | ctx, [] => (ctx, if linkOk then .none else .link)
  | ctx, block :: blocks =>
      match cb ctx block with
      | (ctx, .none) => xmodemReceive cb linkOk ctx blocks
      | (ctx, err) => (ctx, err)

def download (t : Transfer) (dfu : Dfu) : Dfu × XmodemError :=
  if !t.mallocOk then (dfu, .noEnoughBuffer) else xmodemReceive (onRecvFirmware P) t.linkOk dfu t.blocks

def updateFirmware (t : Transfer) : Outcome :=
  let dfu := { prepared := [], written := [] }
  if !t.dfuNew then { dfu := dfu, err := .none, commits := 0, message := none }
  else
    let (dfu, err) := download P t dfu
    if t.finishOk then
      { dfu := dfu
        err := err
        commits := 1
        message := if t.commitOk then "Successfully updated firmware." else "Failed to update firmware." }
    else { dfu := dfu, err := err, commits := 0, message := "Failed to update firmware." }

/-! ### When to commit -/

/-- The rule of both update paths: the image was finished without error, it was transferred, and it was written. -/
def Duly (finishOk : Bool) (transferred written : Prop) : Prop := finishOk = true ∧ transferred ∧ written

/-- What a block adds to the image. -/
def payload (block : Block) : List (List UInt8) :=
  if block.seq = 1 then [block.data.drop P.headerSize] else if block.seq = 0 then [] else [block.data]

/-- The command commits only if the transfer ended without error and every block is in the image. -/
def CommitsDuly (t : Transfer) : Prop :=
  (updateFirmware P t).commits ≠ 0 →
    Duly t.finishOk ((updateFirmware P t).err = .none)
      ((updateFirmware P t).dfu.written = t.blocks.flatMap (payload P))

/-- The DFU functions take the block. -/
def Accepted (block : Block) : Prop :=
  if block.seq = 1 then
    P.isValidHeader (block.data.take P.headerSize) = true ∧ block.prepareOk = true ∧ block.writeOk = true
  else block.seq = 0 ∨ block.writeOk = true

/-- Nothing fails from the first block to the last. -/
def Clean (t : Transfer) : Prop := t.mallocOk = true ∧ t.linkOk = true ∧ ∀ block ∈ t.blocks, Accepted P block

variable {P}

theorem onRecvFirmware_spec (dfu : Dfu) (block : Block) :
    ((onRecvFirmware P dfu block).2 = .none ↔ Accepted P block) ∧
      (Accepted P block → (onRecvFirmware P dfu block).1.written = dfu.written ++ payload P block) := by
  unfold onRecvFirmware Accepted payload
  by_cases hfirst : block.seq = 1
  · simp only [if_pos hfirst]
    cases P.isValidHeader (block.data.take P.headerSize) <;> cases block.prepareOk <;> cases block.writeOk <;> simp
  · by_cases hlast : block.seq = 0
    · simp [hlast]
    · simp only [if_neg hfirst, if_neg hlast]
      cases block.writeOk <;> simp [hlast]

/-- The receiver gets through exactly the transfers on which nothing fails, and then every block is in the image. -/
theorem xmodemReceive_spec (linkOk : Bool) (blocks : List Block) (dfu : Dfu) :
    ((xmodemReceive (onRecvFirmware P) linkOk dfu blocks).2 = .none ↔
        linkOk = true ∧ ∀ block ∈ blocks, Accepted P block) ∧
      ((∀ block ∈ blocks, Accepted P block) →
        (xmodemReceive (onRecvFirmware P) linkOk dfu blocks).1.written =
          dfu.written ++ blocks.flatMap (payload P)) := by
  induction blocks generalizing dfu with
  | nil => cases linkOk <;> simp [xmodemReceive]
  | cons block blocks ih =>
      obtain ⟨haccepted, hwritten⟩ := onRecvFirmware_spec (P := P) dfu block
      rw [xmodemReceive, List.forall_mem_cons]
      cases hrecv : onRecvFirmware P dfu block with
      | mk dfu' err =>
          rw [hrecv] at haccepted hwritten
          by_cases herr : err = .none
          · subst herr
            have hblock := haccepted.1 rfl
            obtain ⟨hrest, hwritten'⟩ := ih dfu'
            refine ⟨by simp only [hrest, hblock, true_and], fun hall => ?_⟩
            rw [hwritten' hall.2, hwritten hblock, List.flatMap_cons, List.append_assoc]
          · have hblock : ¬ Accepted P block := fun hblock => herr (haccepted.2 hblock)
            refine ⟨?_, fun hall => absurd hall.1 hblock⟩
            cases err with
            | none => exact absurd rfl herr
            | canceled | noEnoughBuffer | link => simp [hblock]

theorem download_spec (t : Transfer) (dfu : Dfu) :
    ((download P t dfu).2 = .none ↔ Clean P t) ∧
      (Clean P t → (download P t dfu).1.written = dfu.written ++ t.blocks.flatMap (payload P)) := by
  obtain ⟨hreceive, hwritten⟩ := xmodemReceive_spec (P := P) t.linkOk t.blocks dfu
  unfold download Clean
  cases t.mallocOk with
  | false => simp
  | true => exact ⟨by simpa using hreceive, fun hclean => hwritten hclean.2.2⟩

/-- Whether there is a commit does not depend on the transfer. -/
theorem commits_ne_zero_iff (t : Transfer) :
    (updateFirmware P t).commits ≠ 0 ↔ t.dfuNew = true ∧ t.finishOk = true := by
  unfold updateFirmware
  cases t.dfuNew <;> cases t.finishOk <;> simp

/-- The command keeps the rule exactly when there is no image to commit or nothing failed, since it commits whatever came of the transfer. The updater commits exactly by the rule. -/
theorem xmodem_commits_duly_iff (P : Platform) (t : Transfer) (self : Updater) (call : ProcessCall)
    (result : DownloaderResult) :
    (CommitsDuly P t ↔ t.dfuNew = false ∨ t.finishOk = false ∨ Clean P t) ∧
      ((self.finishDownload call result).1.commits ≠ self.commits ↔
        Duly call.finishOk (result = .ok) (self.error = none)) := by
  constructor
  · rw [CommitsDuly, commits_ne_zero_iff]
    by_cases hcommits : t.dfuNew = true ∧ t.finishOk = true
    · obtain ⟨hclean, hwritten⟩ := download_spec (P := P) t { prepared := [], written := [] }
      have hresult : (updateFirmware P t).err = (download P t { prepared := [], written := [] }).2 ∧
          (updateFirmware P t).dfu = (download P t { prepared := [], written := [] }).1 := by
        simp [updateFirmware, hcommits.1, hcommits.2]
      rw [hresult.1, hresult.2, hclean, Duly, hcommits.1, hcommits.2]
      simp only [true_and, Bool.true_eq_false, false_or, and_self, true_imp_iff]
      exact ⟨And.left, fun hclean => ⟨hclean, hwritten hclean⟩⟩
    · refine iff_of_true (fun hcommits' => absurd hcommits' hcommits) ?_
      cases hnew : t.dfuNew with
      | false => exact .inl rfl
      | true =>
          refine .inr (.inl ?_)
          simpa [hnew] using hcommits
  · unfold Updater.finishDownload Duly
    by_cases hduly : call.finishOk = true ∧ result = .ok ∧ self.error = none
    · rw [if_pos hduly]
      exact iff_of_true (Nat.succ_ne_self _) hduly
    · rw [if_neg hduly]
      exact iff_of_false (fun hcommits => hcommits rfl) hduly

/-- A platform on which every header is valid. -/
def anyHeader : Platform := { headerSize := 2, isValidHeader := fun _ => true, capacity := 4096, fits := Nat.le_refl _ }

/-- The link fails after the first block of an image, and the first block is committed. -/
theorem truncated_image_committed : ¬ CommitsDuly anyHeader { blocks := [⟨1, [1, 2, 3], true, true⟩], linkOk := false } := by
  intro hduly
  obtain ⟨-, herr, -⟩ := hduly (by decide)
  exact absurd herr (by decide)

end Evse.Xmodem
