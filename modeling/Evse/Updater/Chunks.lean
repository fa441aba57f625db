import Evse.Updater.Events

/-!
# How an image comes in does not matter, or does it

The image is a header and data, and the downloader hands it over in chunks of its own choosing. Whether the header has been taken off is inferred from `bytes_written`, and the header is read in one piece through the pointer of the ring buffer. So the chunks do matter: the first must hold the header and the buffer must show it in one piece, and no later chunk may come while `bytes_written` is 0, be it because the first chunk held nothing but the header or because the counter has wrapped.
-/

namespace Evse.Updater

open StepRun

/-- Chunks that one call of `updater_process` hands over, and the seconds since the download was started. -/
structure DownloadCall where
  chunks : List (List UInt8)
  elapsed : Nat
  sized : ∀ chunk ∈ chunks, 1 ≤ chunk.length ∧ chunk.length ≤ updaterBufferSize
  inTime : (elapsed : Int) < updaterTimeoutSec

/-- An image with a valid header, as it comes in: the calls during which the download goes on, and the last one. -/
structure Download (P : Platform) where
  calls : List DownloadCall
  last : DownloadCall
  result : DownloaderResult
  long : P.headerSize ≤ ((calls.map DownloadCall.chunks).flatten ++ last.chunks).flatten.length
  valid : P.isValidHeader
    (((calls.map DownloadCall.chunks).flatten ++ last.chunks).flatten.take P.headerSize) = true

variable {P : Platform}

/-- The chunk comes in and the DFU functions succeed. -/
def reception (gaps : RingbufGaps) (chunk : List UInt8) : Reception := { data := chunk, gaps := gaps }

def DownloadCall.call (c : DownloadCall) (gaps : RingbufGaps) (started : Int) (result : DownloaderResult) :
    ProcessCall :=
  { now := started + c.elapsed, receptions := c.chunks.map (reception gaps), result := result }

namespace Download

variable (d : Download P)

def chunks : List (List UInt8) := (d.calls.map DownloadCall.chunks).flatten ++ d.last.chunks

def stream : List UInt8 := d.chunks.flatten

def ops (gaps : RingbufGaps) (started : Int) : List UpdaterOp :=
  d.calls.map (fun c => .process (c.call gaps started .inProgress)) ++ [.process (d.last.call gaps started d.result)]

/-- `dfu_prepare` was called once and with the header, and `dfu_write` with the rest of the image. -/
def Flashed (u : Updater) : Prop :=
  u.prepared = [d.stream.take P.headerSize] ∧ u.written.flatten = d.stream.drop P.headerSize

end Download

/-- No chunk comes while `bytes_written`, here after `n` bytes of data, is 0. -/
def NeverRestarts : Nat → List (List UInt8) → Prop
  | _, [] => True
  | n, chunk :: chunks => n % 2 ^ 32 ≠ 0 ∧ NeverRestarts (n + chunk.length) chunks

/-- The first chunk holds the header, the buffer shows it in one piece, and the counter is never 0 again when a chunk comes. -/
def HeaderFirst (P : Platform) (readIndex : Nat) : List (List UInt8) → Prop
  | [] => False
  | chunk :: chunks =>
      P.headerSize ≤ chunk.length ∧ readIndex % P.capacity + P.headerSize ≤ P.capacity ∧
        NeverRestarts (chunk.length - P.headerSize) chunks

/-! ### One chunk -/

/-- Between two chunks: the buffer is empty and nothing has failed. -/
structure Receiving (P : Platform) (u : Updater) : Prop where
  error : u.error = none
  content : u.ringbuf.content = []
  capacity : u.ringbuf.capacity = P.capacity
  bytes : u.bytesWritten < 2 ^ 32

section Blocks

variable {u : Updater}

/-- One round of the loop takes away the piece that the buffer shows. -/
theorem writeDataBlock_ok (h : u.ringbuf.content ≠ []) :
    ∃ block, block ≠ [] ∧ (∃ rest, u.ringbuf.content = block ++ rest) ∧
      u.writeDataBlock true =
        ({ u with
            ringbuf := u.ringbuf.consume block.length
            bytesWritten := (u.bytesWritten + block.length) % 2 ^ 32
            written := u.written ++ [block] }, none) := by
  have hpos := u.ringbuf.contiguous_ne_nil h
  refine ⟨u.ringbuf.contiguous.take updaterBufferSize, ?_, ?_, ?_⟩
  · rw [← List.length_pos_iff, List.length_take, updaterBufferSize]
    omega
  · have hprefix : u.ringbuf.contiguous.take updaterBufferSize <+: u.ringbuf.content :=
      (List.take_prefix _ _).trans (List.take_prefix _ _)
    obtain ⟨rest, hrest⟩ := hprefix
    exact ⟨rest, hrest.symm⟩
  · have hne : u.ringbuf.contiguous.take updaterBufferSize ≠ [] := by
      rw [← List.length_pos_iff, List.length_take, updaterBufferSize]
      omega
    simp only [writeDataBlock, if_pos hne, Bool.not_true, Bool.false_eq_true, if_false]

/-- All that the buffer held has been written to the flash. -/
structure Drained (before after : Updater) : Prop where
  content : after.ringbuf.content = []
  capacity : after.ringbuf.capacity = before.ringbuf.capacity
  prepared : after.prepared = before.prepared
  written : after.written.flatten = before.written.flatten ++ before.ringbuf.content
  bytes : after.bytesWritten = (before.bytesWritten + before.ringbuf.length) % 2 ^ 32

theorem Drained.of_empty (hbytes : u.bytesWritten < 2 ^ 32) (hempty : u.ringbuf.content = []) : Drained u u := by
  refine ⟨hempty, rfl, rfl, ?_, ?_⟩
  · rw [hempty, List.append_nil]
  · rw [RingBuffer.length, hempty]
    exact (Nat.mod_eq_of_lt hbytes).symm

theorem writeBlocks_ok (hbytes : u.bytesWritten < 2 ^ 32) {rounds : Nat} (hrounds : u.ringbuf.length ≤ rounds) :
    ∃ u', writeBlocks (fun _ => true) rounds u = (u', none) ∧ Drained u u' := by
  induction rounds generalizing u with
  | zero =>
      have hempty : u.ringbuf.content = [] := List.length_eq_zero_iff.mp (Nat.le_zero.mp hrounds)
      exact ⟨u, rfl, .of_empty hbytes hempty⟩
  | succ rounds ih =>
      by_cases hempty : u.ringbuf.content = []
      · have hzero : ¬ u.ringbuf.length > 0 := by rw [RingBuffer.length, hempty]; exact Nat.lt_irrefl 0
        exact ⟨u, by rw [writeBlocks, if_neg hzero], .of_empty hbytes hempty⟩
      · obtain ⟨block, hblock, ⟨rest, hrest⟩, hwrite⟩ := writeDataBlock_ok hempty
        have hpos : u.ringbuf.length > 0 := List.length_pos_iff.mpr hempty
        have hlength : u.ringbuf.length = block.length + rest.length := by
          rw [RingBuffer.length, hrest, List.length_append]
        have hblockpos : 0 < block.length := List.length_pos_iff.mpr hblock
        have hdrop : (u.ringbuf.consume block.length).content = rest := by
          rw [RingBuffer.consume_content, hrest, List.drop_left]
        rw [writeBlocks, if_pos hpos, hwrite]
        generalize hv : ({ u with
            ringbuf := u.ringbuf.consume block.length
            bytesWritten := (u.bytesWritten + block.length) % 2 ^ 32
            written := u.written ++ [block] } : Updater) = v
        have hcontent : v.ringbuf.content = rest := by rw [← hv]; exact hdrop
        obtain ⟨u', hloop, hdrained⟩ :=
          ih (u := v) (by rw [← hv]; exact Nat.mod_lt _ (by decide)) (by rw [RingBuffer.length, hcontent]; omega)
        refine ⟨u', hloop, hdrained.content, ?_, ?_, ?_, ?_⟩
        · rw [hdrained.capacity, ← hv]
          rfl
        · rw [hdrained.prepared, ← hv]
        · rw [hdrained.written, hcontent, hrest, ← hv]
          simp
        · rw [hdrained.bytes, RingBuffer.length, hcontent, hlength, ← hv]
          show ((u.bytesWritten + block.length) % 2 ^ 32 + rest.length) % 2 ^ 32 = _
          omega

theorem prepared_writeBlocks (writeOk : Nat → Bool) (rounds : Nat) (u : Updater) :
    (writeBlocks writeOk rounds u).1.prepared = u.prepared := by
  induction rounds generalizing u with
  | zero => rfl
  | succ rounds ih =>
      have hblock : (u.writeDataBlock (writeOk rounds)).1.prepared = u.prepared := by
        simp only [writeDataBlock]
        split_ifs <;> rfl
      rw [writeBlocks]
      split_ifs
      · generalize u.writeDataBlock (writeOk rounds) = result at hblock
        obtain ⟨v, err⟩ := result
        cases err with
        | some err => exact hblock
        | none => exact (ih v).trans hblock
      · rfl

end Blocks

/-! ### What cannot be undone -/

theorem prepared_prepareWrite (u : Updater) (call : Reception) : u.prepared <+: (prepareWrite P u call).1.prepared := by
  simp only [prepareWrite]
  split_ifs
  · exact List.prefix_rfl
  · exact List.prefix_append _ _
  · exact List.prefix_append _ _
  · exact List.prefix_rfl

theorem prepared_onDataReception (u : Updater) (call : Reception) :
    u.prepared <+: (onDataReception P u call).prepared := by
  show u.prepared <+: (writeToFlash P { u with ringbuf := u.ringbuf.write call.data } call).1.prepared
  generalize hw : ({ u with ringbuf := u.ringbuf.write call.data } : Updater) = w
  have hprepared : u.prepared = w.prepared := by rw [← hw]
  rw [hprepared, writeToFlash]
  cases w.error with
  | some err => exact List.prefix_rfl
  | none =>
      dsimp only
      split_ifs
      · exact List.prefix_rfl
      · have hprepare := prepared_prepareWrite (P := P) w call
        generalize prepareWrite P w call = result at hprepare
        obtain ⟨v, err⟩ := result
        cases err with
        | some err => exact hprepare
        | none =>
            show w.prepared <+: (writeBlocks call.writeOk v.ringbuf.length v).1.prepared
            rw [prepared_writeBlocks]
            exact hprepare

theorem prepared_receive (u : Updater) (calls : List Reception) : u.prepared <+: (receive P u calls).prepared := by
  induction calls generalizing u with
  | nil => exact List.prefix_rfl
  | cons call calls ih => exact (prepared_onDataReception u call).trans (ih (onDataReception P u call))

/-- After an error nothing more is done with what comes in. -/
theorem stuck_receive {u : Updater} (h : u.error ≠ none) (calls : List Reception) :
    (receive P u calls).prepared = u.prepared ∧ (receive P u calls).written = u.written := by
  induction calls generalizing u with
  | nil => exact ⟨rfl, rfl⟩
  | cons call calls ih =>
      obtain ⟨err, herr⟩ := Option.ne_none_iff_exists'.mp h
      have hstuck : onDataReception P u call =
          { u with
            ringbuf := u.ringbuf.write call.data
            error := some err
            outcomes := u.outcomes ++ [some err] } := by
        simp only [onDataReception, writeToFlash, herr]
      have hprepared : (onDataReception P u call).prepared = u.prepared := by rw [hstuck]
      have hwritten : (onDataReception P u call).written = u.written := by rw [hstuck]
      have hrest := ih (u := onDataReception P u call) (by rw [hstuck]; simp)
      exact ⟨hrest.1.trans hprepared, hrest.2.trans hwritten⟩

/-! ### A chunk -/

/-- The buffer holds the chunk and nothing else. -/
def loaded (u : Updater) (chunk : List UInt8) : Updater := { u with ringbuf := u.ringbuf.write chunk }

/-- What comes of the write to the flash is recorded. -/
theorem onDataReception_of_flash {u v : Updater} {gaps : RingbufGaps} {chunk : List UInt8} {err : Option UpdateError}
    (hflash : writeToFlash P (loaded u chunk) (reception gaps chunk) = (v, err)) :
    onDataReception P u (reception gaps chunk) = { v with error := err, outcomes := v.outcomes ++ [err] } :=
  congrArg (fun flashed : Updater × Option UpdateError =>
    ({ flashed.1 with error := flashed.2, outcomes := flashed.1.outcomes ++ [flashed.2] } : Updater)) hflash

section Chunk

variable {u : Updater} (h : Receiving P u) {chunk : List UInt8} (hpos : 1 ≤ chunk.length)
  (hsize : chunk.length ≤ updaterBufferSize) (gaps : RingbufGaps)

include h hsize in
theorem loaded_content : (loaded u chunk).ringbuf.content = chunk := by
  have hfits := P.fits
  have hroom : u.ringbuf.content.length + chunk.length ≤ u.ringbuf.capacity := by
    rw [h.content, h.capacity]
    simp only [List.length_nil]
    omega
  show (u.ringbuf.write chunk).content = chunk
  rw [RingBuffer.write_content u.ringbuf hroom, h.content, List.nil_append]

include h hpos hsize in
theorem writeToFlash_loaded {call : Reception} {v : Updater} {err : Option UpdateError}
    (hprepare : prepareWrite P (loaded u chunk) call = (v, err)) :
    writeToFlash P (loaded u chunk) call =
      err.elim (writeBlocks call.writeOk v.ringbuf.length v) fun err => (v, some err) := by
  have herror : (loaded u chunk).error = none := h.error
  have hlength : (loaded u chunk).ringbuf.length ≠ 0 := by
    rw [RingBuffer.length, loaded_content h hsize]
    omega
  simp only [writeToFlash, herror, if_neg hlength, hprepare]
  cases err with
  | none => rfl
  | some err => rfl

include h hpos hsize in
/-- Once the header is dealt with, the rest of the chunk goes to the flash. -/
theorem receive_prepared {v : Updater} (hprepare : prepareWrite P (loaded u chunk) (reception gaps chunk) = (v, none))
    (hcapacity : v.ringbuf.capacity = P.capacity) (hbytes : v.bytesWritten < 2 ^ 32) :
    Receiving P (onDataReception P u (reception gaps chunk)) ∧
      (onDataReception P u (reception gaps chunk)).prepared = v.prepared ∧
      (onDataReception P u (reception gaps chunk)).written.flatten = v.written.flatten ++ v.ringbuf.content ∧
      (onDataReception P u (reception gaps chunk)).bytesWritten = (v.bytesWritten + v.ringbuf.length) % 2 ^ 32 := by
  obtain ⟨u', hloop, hdrained⟩ := writeBlocks_ok hbytes (Nat.le_refl v.ringbuf.length)
  have hflash : writeToFlash P (loaded u chunk) (reception gaps chunk) = (u', none) := by
    rw [writeToFlash_loaded h hpos hsize hprepare]
    exact hloop
  rw [onDataReception_of_flash hflash]
  refine ⟨⟨rfl, hdrained.content, hdrained.capacity.trans hcapacity, ?_⟩, hdrained.prepared, hdrained.written,
    hdrained.bytes⟩
  show u'.bytesWritten < 2 ^ 32
  rw [hdrained.bytes]
  exact Nat.mod_lt _ (by decide)

include h hpos hsize in
/-- With the header off, a chunk is written to the flash as it is. -/
theorem receive_data (hbytes : u.bytesWritten ≠ 0) :
    Receiving P (onDataReception P u (reception gaps chunk)) ∧
      (onDataReception P u (reception gaps chunk)).prepared = u.prepared ∧
      (onDataReception P u (reception gaps chunk)).written.flatten = u.written.flatten ++ chunk ∧
      (onDataReception P u (reception gaps chunk)).bytesWritten = (u.bytesWritten + chunk.length) % 2 ^ 32 := by
  have hprepare : prepareWrite P (loaded u chunk) (reception gaps chunk) = (loaded u chunk, none) := by
    rw [prepareWrite, if_neg]
    exact fun hfirst => hbytes hfirst.1
  have hreceived := receive_prepared h hpos hsize gaps hprepare h.capacity h.bytes
  rw [RingBuffer.length, loaded_content h hsize] at hreceived
  exact hreceived

/-- The header the updater reads from a chunk. -/
def headerOf (P : Platform) (u : Updater) (gaps : RingbufGaps) (chunk : List UInt8) : List UInt8 :=
  peekHeader P (loaded u chunk) gaps

include h hsize in
theorem headerOf_eq :
    headerOf P u gaps chunk =
      (chunk.take (P.capacity - u.ringbuf.readIndex % P.capacity) ++
        (List.range P.headerSize).map gaps.beyond).take P.headerSize := by
  have hcontiguous : (loaded u chunk).ringbuf.contiguous =
      chunk.take (P.capacity - u.ringbuf.readIndex % P.capacity) := by
    rw [RingBuffer.contiguous, loaded_content h hsize]
    show chunk.take (u.ringbuf.capacity - u.ringbuf.readIndex % u.ringbuf.capacity) = _
    rw [h.capacity]
  rw [headerOf, peekHeader, hcontiguous]

include h hpos hsize in
/-- A chunk that comes while `bytes_written` is 0 is taken to start with a header. -/
theorem receive_header (hbytes : u.bytesWritten = 0) (hvalid : P.isValidHeader (headerOf P u gaps chunk) = true)
    (hlong : P.headerSize ≤ chunk.length) :
    Receiving P (onDataReception P u (reception gaps chunk)) ∧
      (onDataReception P u (reception gaps chunk)).prepared = u.prepared ++ [headerOf P u gaps chunk] ∧
      (onDataReception P u (reception gaps chunk)).written.flatten = u.written.flatten ++ chunk.drop P.headerSize ∧
      (onDataReception P u (reception gaps chunk)).bytesWritten = (chunk.length - P.headerSize) % 2 ^ 32 := by
  have hfirst : (loaded u chunk).bytesWritten = 0 ∧ (loaded u chunk).error = none := ⟨hbytes, h.error⟩
  have hheld : P.headerSize ≤ (loaded u chunk).ringbuf.length := by
    rw [RingBuffer.length, loaded_content h hsize]
    exact hlong
  have hread : P.isValidHeader (peekHeader P (loaded u chunk) gaps) = true := hvalid
  have hprepare : prepareWrite P (loaded u chunk) (reception gaps chunk) =
      ({ loaded u chunk with
          prepared := u.prepared ++ [headerOf P u gaps chunk]
          ringbuf := (loaded u chunk).ringbuf.consume P.headerSize }, none) := by
    rw [prepareWrite, if_pos hfirst]
    simp only [reception, hread, Bool.not_true, Bool.false_eq_true, if_false, consumeHeader, if_pos hheld]
    rfl
  have hreceived := receive_prepared h hpos hsize gaps hprepare h.capacity h.bytes
  rw [RingBuffer.length, RingBuffer.consume_content, loaded_content h hsize, List.length_drop] at hreceived
  obtain ⟨hstill, hprepared, hwritten, hcount⟩ := hreceived
  refine ⟨hstill, hprepared, hwritten, ?_⟩
  rw [hcount]
  show (u.bytesWritten + (chunk.length - P.headerSize)) % 2 ^ 32 = _
  rw [hbytes, Nat.zero_add]

include h hpos hsize in
/-- If it is not a valid header, the update has failed. -/
theorem receive_rejected (hbytes : u.bytesWritten = 0) (hvalid : P.isValidHeader (headerOf P u gaps chunk) = false) :
    (onDataReception P u (reception gaps chunk)).error ≠ none ∧
      (onDataReception P u (reception gaps chunk)).prepared = u.prepared ∧
      (onDataReception P u (reception gaps chunk)).written = u.written := by
  have hfirst : (loaded u chunk).bytesWritten = 0 ∧ (loaded u chunk).error = none := ⟨hbytes, h.error⟩
  have hread : P.isValidHeader (peekHeader P (loaded u chunk) (reception gaps chunk).gaps) = false := hvalid
  have hprepare : prepareWrite P (loaded u chunk) (reception gaps chunk) = (loaded u chunk, some .proto) := by
    rw [prepareWrite, if_pos hfirst]
    simp only [hread, Bool.not_false, if_true]
  have hflash : writeToFlash P (loaded u chunk) (reception gaps chunk) = (loaded u chunk, some .proto) := by
    rw [writeToFlash_loaded h hpos hsize hprepare]
    rfl
  rw [onDataReception_of_flash hflash]
  exact ⟨by simp, rfl, rfl⟩

include h hpos hsize in
/-- If it is, it goes to `dfu_prepare`, whatever comes of the rest. -/
theorem receive_accepted (hbytes : u.bytesWritten = 0) (hvalid : P.isValidHeader (headerOf P u gaps chunk) = true) :
    (onDataReception P u (reception gaps chunk)).prepared = u.prepared ++ [headerOf P u gaps chunk] := by
  have hfirst : (loaded u chunk).bytesWritten = 0 ∧ (loaded u chunk).error = none := ⟨hbytes, h.error⟩
  have hread : P.isValidHeader (peekHeader P (loaded u chunk) gaps) = true := hvalid
  have hprepare : ∃ v, prepareWrite P (loaded u chunk) (reception gaps chunk) = (v, none) ∧
      v.prepared = u.prepared ++ [headerOf P u gaps chunk] := by
    rw [prepareWrite, if_pos hfirst]
    simp only [reception, hread, Bool.not_true, Bool.false_eq_true, if_false]
    exact ⟨_, rfl, rfl⟩
  obtain ⟨v, hprepare, hprepared⟩ := hprepare
  show (writeToFlash P (loaded u chunk) (reception gaps chunk)).1.prepared = _
  rw [writeToFlash_loaded h hpos hsize hprepare]
  exact (prepared_writeBlocks _ _ v).trans hprepared

end Chunk

/-! ### The chunks of an image -/

/-- The chunks of one call, each of a size the updater takes. -/
def Sized (chunks : List (List UInt8)) : Prop :=
  ∀ chunk ∈ chunks, 1 ≤ chunk.length ∧ chunk.length ≤ updaterBufferSize

theorem receive_cons (gaps : RingbufGaps) (u : Updater) (chunk : List UInt8) (chunks : List (List UInt8)) :
    receive P u ((chunk :: chunks).map (reception gaps)) =
      receive P (onDataReception P u (reception gaps chunk)) (chunks.map (reception gaps)) := rfl

/-- After `n` bytes of data, the chunks that follow are all written as they are exactly when the counter is never 0 when one comes. -/
theorem receive_rest_iff (gaps : RingbufGaps) {u : Updater} (h : Receiving P u) {n : Nat}
    (hn : u.bytesWritten = n % 2 ^ 32) {chunks : List (List UInt8)} (hsized : Sized chunks) :
    ((receive P u (chunks.map (reception gaps))).prepared = u.prepared ∧
        (receive P u (chunks.map (reception gaps))).written.flatten = u.written.flatten ++ chunks.flatten) ↔
      NeverRestarts n chunks := by
  induction chunks generalizing u n with
  | nil => exact iff_of_true ⟨rfl, (List.append_nil _).symm⟩ trivial
  | cons chunk chunks ih =>
      obtain ⟨⟨hpos, hsize⟩, hsized⟩ := List.forall_mem_cons.mp hsized
      rw [NeverRestarts, receive_cons]
      by_cases hzero : u.bytesWritten = 0
      · -- the chunk is taken for the start of another image
        refine iff_of_false ?_ fun hnever => hnever.1 (hn ▸ hzero)
        rintro ⟨hprepared, hwritten⟩
        cases hvalid : P.isValidHeader (headerOf P u gaps chunk) with
        | true =>
            have hagain := receive_accepted h hpos hsize gaps hzero hvalid
            have hgrown := prepared_receive (P := P) (onDataReception P u (reception gaps chunk))
              (chunks.map (reception gaps))
            rw [hagain, hprepared] at hgrown
            have hlength := hgrown.length_le
            rw [List.length_append] at hlength
            exact absurd hlength (Nat.not_succ_le_self _)
        | false =>
            obtain ⟨herror, -, hkept⟩ := receive_rejected h hpos hsize gaps hzero hvalid
            have hstuck := (stuck_receive (P := P) herror (chunks.map (reception gaps))).2
            have hflat : u.written.flatten = u.written.flatten ++ (chunk :: chunks).flatten := by
              rw [← hwritten, hstuck, hkept]
            have hlength := congrArg List.length hflat
            rw [List.length_append, List.flatten_cons, List.length_append] at hlength
            omega
      · have hnz : n % 2 ^ 32 ≠ 0 := hn ▸ hzero
        obtain ⟨hstill, hprepared, hwritten, hcount⟩ := receive_data h hpos hsize gaps hzero
        have hn' : (onDataReception P u (reception gaps chunk)).bytesWritten = (n + chunk.length) % 2 ^ 32 := by
          rw [hcount, hn]
          omega
        have hrest := ih hstill hn' hsized
        rw [hprepared, hwritten, List.append_assoc] at hrest
        rw [List.flatten_cons]
        exact hrest.trans (and_iff_right hnz).symm

/-- A reading of the header that runs past the content is at the mercy of what lies there. -/
theorem headerOf_ne {u : Updater} (h : Receiving P u) {chunk : List UInt8} (hsize : chunk.length ≤ updaterBufferSize)
    (hshort : ¬ (P.headerSize ≤ chunk.length ∧ u.ringbuf.readIndex % P.capacity + P.headerSize ≤ P.capacity))
    {header : List UInt8} (hlength : header.length = P.headerSize) :
    ∃ gaps, headerOf P u gaps chunk ≠ header := by
  have hshown : (chunk.take (P.capacity - u.ringbuf.readIndex % P.capacity)).length < P.headerSize := by
    have hcapacity : 0 < P.capacity := Nat.lt_of_lt_of_le (by decide) P.fits
    have hindex := Nat.mod_lt u.ringbuf.readIndex hcapacity
    rw [List.length_take]
    omega
  generalize hk : (chunk.take (P.capacity - u.ringbuf.readIndex % P.capacity)).length = k at hshown
  let other : UInt8 := if header[k]? = some 0 then 1 else 0
  refine ⟨⟨fun _ => other, [], 0⟩, fun heq => ?_⟩
  have hbyte : (headerOf P u ⟨fun _ => other, [], 0⟩ chunk)[k]? = some other := by
    rw [headerOf_eq h hsize, List.getElem?_take, if_pos hshown, List.getElem?_append_right (by omega), hk]
    simp [show 0 < P.headerSize by omega]
  rw [heq] at hbyte
  simp only [other] at hbyte
  split_ifs at hbyte with hzero
  · rw [hzero] at hbyte
    cases hbyte
  · exact hzero hbyte

section First

variable {u : Updater} (h : Receiving P u) (hbytes : u.bytesWritten = 0) (hprepared : u.prepared = [])
  {chunk : List UInt8} (hpos : 1 ≤ chunk.length) (hsize : chunk.length ≤ updaterBufferSize)
  {chunks : List (List UInt8)}
include h hbytes hprepared hpos hsize

/-- With the whole header in the first chunk and shown in one piece, what follows decides. -/
theorem receive_first_iff (hwritten : u.written = []) (hsized : Sized chunks)
    (hlong : P.headerSize ≤ chunk.length) (hpiece : u.ringbuf.readIndex % P.capacity + P.headerSize ≤ P.capacity)
    (hvalid : P.isValidHeader (chunk.take P.headerSize) = true) (gaps : RingbufGaps) :
    ((receive P u ((chunk :: chunks).map (reception gaps))).prepared = [chunk.take P.headerSize] ∧
        (receive P u ((chunk :: chunks).map (reception gaps))).written.flatten =
          chunk.drop P.headerSize ++ chunks.flatten) ↔
      NeverRestarts (chunk.length - P.headerSize) chunks := by
  have hheader : headerOf P u gaps chunk = chunk.take P.headerSize := by
    rw [headerOf_eq h hsize, List.take_append_of_le_length, List.take_take, Nat.min_eq_left (by omega)]
    rw [List.length_take]
    omega
  obtain ⟨hstill, hprepared', hwritten', hcount⟩ :=
    receive_header h hpos hsize gaps hbytes (hheader.symm ▸ hvalid) hlong
  rw [hprepared, hheader, List.nil_append] at hprepared'
  rw [hwritten, List.flatten_nil, List.nil_append] at hwritten'
  have hrest := receive_rest_iff gaps hstill hcount hsized
  rw [hprepared', hwritten'] at hrest
  rw [receive_cons]
  exact hrest

/-- Without, the memory beyond the content can make another header of it, valid or not. -/
theorem receive_split
    (hsplit : ¬ (P.headerSize ≤ chunk.length ∧ u.ringbuf.readIndex % P.capacity + P.headerSize ≤ P.capacity))
    {header : List UInt8} (hheader : header.length = P.headerSize) :
    ∃ gaps, (receive P u ((chunk :: chunks).map (reception gaps))).prepared ≠ [header] := by
  obtain ⟨gaps, hne⟩ := headerOf_ne h hsize hsplit hheader
  refine ⟨gaps, fun hdone => ?_⟩
  rw [receive_cons] at hdone
  cases hread : P.isValidHeader (headerOf P u gaps chunk) with
  | true =>
      have hgrown := prepared_receive (P := P) (onDataReception P u (reception gaps chunk))
        (chunks.map (reception gaps))
      rw [receive_accepted h hpos hsize gaps hbytes hread, hprepared, List.nil_append, hdone] at hgrown
      exact hne (List.cons_prefix_cons.mp hgrown).1
  | false =>
      obtain ⟨herror, hkept, -⟩ := receive_rejected h hpos hsize gaps hbytes hread
      have hstuck := (stuck_receive (P := P) herror (chunks.map (reception gaps))).1
      rw [hkept, hprepared, hdone] at hstuck
      cases hstuck

end First

/-- From an updater that has just begun, all chunks arrive as they should, whatever lies beyond the buffer's content, exactly when the header comes first and in one piece. -/
theorem receive_all_iff {u : Updater} (h : Receiving P u) (hbytes : u.bytesWritten = 0) (hprepared : u.prepared = [])
    (hwritten : u.written = []) {chunks : List (List UInt8)} (hsized : Sized chunks)
    (hlong : P.headerSize ≤ chunks.flatten.length)
    (hvalid : P.isValidHeader (chunks.flatten.take P.headerSize) = true) :
    (∀ gaps, (receive P u (chunks.map (reception gaps))).prepared = [chunks.flatten.take P.headerSize] ∧
        (receive P u (chunks.map (reception gaps))).written.flatten = chunks.flatten.drop P.headerSize) ↔
      HeaderFirst P u.ringbuf.readIndex chunks := by
  cases chunks with
  | nil =>
      refine iff_of_false (fun hall => ?_) id
      have hnone : u.prepared = _ := (hall ⟨fun _ => 0, [], 0⟩).1
      rw [hprepared] at hnone
      cases hnone
  | cons chunk chunks =>
      obtain ⟨⟨hpos, hsize⟩, hsized⟩ := List.forall_mem_cons.mp hsized
      rw [HeaderFirst, ← and_assoc]
      by_cases hwhole : P.headerSize ≤ chunk.length ∧ u.ringbuf.readIndex % P.capacity + P.headerSize ≤ P.capacity
      · have htake : (chunk :: chunks).flatten.take P.headerSize = chunk.take P.headerSize := by
          rw [List.flatten_cons, List.take_append_of_le_length hwhole.1]
        have hdrop : (chunk :: chunks).flatten.drop P.headerSize = chunk.drop P.headerSize ++ chunks.flatten := by
          rw [List.flatten_cons, List.drop_append_of_le_length hwhole.1]
        rw [htake] at hvalid ⊢
        rw [and_iff_right hwhole, hdrop]
        have hone := receive_first_iff h hbytes hprepared hpos hsize hwritten hsized hwhole.1 hwhole.2 hvalid
        constructor
        · intro hall
          exact (hone ⟨fun _ => 0, [], 0⟩).mp (hall _)
        · intro hnever gaps
          exact (hone gaps).mpr hnever
      · have hheader : ((chunk :: chunks).flatten.take P.headerSize).length = P.headerSize := by
          rw [List.length_take]
          omega
        obtain ⟨gaps, hne⟩ := receive_split h hbytes hprepared hpos hsize hwhole hheader
        exact iff_of_false (fun hall => hne (hall gaps).1) fun hfirst => hwhole hfirst.1

/-! ### What earlier updates leave behind -/

/-- The updater after `updater_init`, with or without an event callback. -/
def boot (P : Platform) (registered : Bool) : Updater := { init P with eventCb := registered }

/-- Between two updates the buffer is empty, though it need not start where its array does, and a request that waits has no error and no bytes. -/
structure Rested (P : Platform) (u : Updater) : Prop where
  capacity : u.ringbuf.capacity = P.capacity
  dfu : u.current = none → u.dfu = false
  content : u.isUpdating = false → u.ringbuf.content = []
  fresh : u.isUpdating = false → u.current ≠ none → u.error = none ∧ u.bytesWritten = 0

section Rested

variable {u : Updater}

theorem rested_dispatchEvent (event : UpdaterEvent) : Rested P (u.dispatchEvent event) ↔ Rested P u := by
  obtain ⟨events, heq⟩ := dispatchEvent_frame u event
  rw [heq]
  exact ⟨fun h => ⟨h.capacity, h.dfu, h.content, h.fresh⟩, fun h => ⟨h.capacity, h.dfu, h.content, h.fresh⟩⟩

theorem rested_clearRequest (hcapacity : u.ringbuf.capacity = P.capacity) : Rested P u.clearRequest := by
  refine ⟨hcapacity, fun _ => rfl, fun _ => ?_, fun _ hsome => absurd rfl hsome⟩
  exact List.drop_length

theorem rested_of_updating (hcapacity : u.ringbuf.capacity = P.capacity) (hupdating : u.isUpdating = true) :
    Rested P u := by
  have hsome : u.current ≠ none := by
    rw [isUpdating, Bool.and_eq_true] at hupdating
    exact Option.isSome_iff_ne_none.mp hupdating.1
  have hbusy : u.isUpdating ≠ false := by rw [hupdating]; decide
  refine ⟨hcapacity, ?_, ?_, ?_⟩
  · exact fun hnone => absurd hnone hsome
  · exact fun hidle => absurd hidle hbusy
  · exact fun hidle => absurd hidle hbusy

theorem capacity_receive (u : Updater) (calls : List Reception) :
    (receive P u calls).ringbuf.capacity = u.ringbuf.capacity := by
  induction calls generalizing u with
  | nil => rfl
  | cons call calls ih =>
      obtain ⟨after, err, ⟨ringbuf, _, _, _, hcapacity, rfl⟩, -, heq⟩ := onDataReception_eq P u call
      have hone : (onDataReception P u call).ringbuf.capacity = u.ringbuf.capacity := by
        rw [heq]
        exact hcapacity
      exact (ih (onDataReception P u call)).trans hone

theorem rested_update (h : Rested P u) (hupdating : u.isUpdating = true) (call : ProcessCall) :
    Rested P (processUpdate P u call).1 := by
  have hcapacity := (capacity_receive (P := P) u call.receptions).trans h.capacity
  have hupdates := updates P u call
  generalize processUpdate P u call = result at hupdates
  cases hupdates with
  | downloading => exact rested_of_updating hcapacity ((isUpdating_receive P call.receptions).trans hupdating)
  | committed => exact rested_clearRequest (u := (receive P u call.receptions).dfuCommit) hcapacity
  | failed => exact rested_clearRequest hcapacity

theorem rested_step (u : Updater) (op : UpdaterOp) (h : Rested P u) : Rested P (u.step P op) := by
  cases op with
  | request param =>
      rw [step, request]
      by_cases hupdating : u.isUpdating = true
      · rw [if_pos hupdating]
        exact h
      · rw [if_neg hupdating]
        have hidle : u.isUpdating = false := by simpa using hupdating
        have hdfu : u.dfu = false := dfu_of_idle h.dfu hidle
        exact ⟨h.capacity, fun _ => hdfu, fun _ => h.content hidle, fun _ _ => ⟨rfl, rfl⟩⟩
  | process call =>
      rw [step]
      by_cases hupdating : u.isUpdating = true
      · rw [process_of_updating P u hupdating, rested_dispatchEvent]
        exact rested_update h hupdating call
      · have hidle : u.isUpdating = false := by simpa using hupdating
        by_cases hattempt : u.attemptsStart call = true
        · rw [process_of_attempt P u hattempt, rested_dispatchEvent, startDownload]
          simp only [attemptsStart, isPending, Bool.and_eq_true] at hattempt
          split_ifs
          · refine rested_of_updating h.capacity ?_
            show (u.current.isSome && true) = true
            rw [hattempt.1.2.1]
            rfl
          · exact rested_clearRequest h.capacity
        · rw [process_of_idle P u hidle (by simpa using hattempt)]
          exact h

theorem rested_boot (registered : Bool) : Rested P (boot P registered) :=
  ⟨rfl, fun _ => rfl, fun _ => rfl, fun _ hsome => absurd rfl hsome⟩

end Rested

/-! ### A whole download -/

/-- What the DFU functions have been given for the update at hand. -/
def flash (u : Updater) : List (List UInt8) × List (List UInt8) := (u.prepared, u.written)

section Whole

variable {u : Updater}

theorem flash_dispatchEvent (event : UpdaterEvent) : (u.dispatchEvent event).flash = u.flash := by
  obtain ⟨events, heq⟩ := dispatchEvent_frame u event
  rw [heq]
  rfl

theorem flash_processUpdate (u : Updater) (call : ProcessCall) :
    (processUpdate P u call).1.flash = (receive P u call.receptions).flash := by
  have hupdates := updates P u call
  generalize processUpdate P u call = result at hupdates
  cases hupdates with
  | downloading => rfl
  | committed => rfl
  | failed => rfl

/-- Without a request, calls of `updater_process` do nothing. -/
theorem run_of_no_request (h : u.current = none) (calls : List ProcessCall) :
    run (step P) u (calls.map UpdaterOp.process) = u := by
  induction calls with
  | nil => rfl
  | cons call calls ih =>
      have hupdating : u.isUpdating = false := by rw [isUpdating, h]; rfl
      have hattempt : u.attemptsStart call = false := by
        simp only [attemptsStart, isPending, h, Option.isSome_none, Bool.false_and, Bool.and_false]
      have hidle : u.step P (.process call) = u := process_of_idle P u hupdating hattempt
      rw [List.map_cons, run_cons, hidle]
      exact ih

theorem receive_append (u : Updater) (calls calls' : List Reception) :
    receive P u (calls ++ calls') = receive P (receive P u calls) calls' :=
  List.foldl_append

/-- The calls that bring the image in do with the flash what its chunks do, one after another: a call that ends the download early has met an error, after which the chunks do nothing either. -/
theorem flash_calls (gaps : RingbufGaps) (started : Int) (calls : List DownloadCall) (last : DownloadCall)
    (result : DownloaderResult) (hupdating : u.isUpdating = true) (hstarted : u.started = started) :
    (run (step P) u ((calls.map (fun c => c.call gaps started .inProgress) ++ [last.call gaps started result]).map
        UpdaterOp.process)).flash =
      (receive P u (((calls.map DownloadCall.chunks).flatten ++ last.chunks).map (reception gaps))).flash := by
  induction calls generalizing u with
  | nil =>
      show (process P u (last.call gaps started result)).1.flash = (receive P u (last.chunks.map (reception gaps))).flash
      rw [process_of_updating P u hupdating, flash_dispatchEvent, flash_processUpdate]
      rfl
  | cons c calls ih =>
      have hchunks : (((c :: calls).map DownloadCall.chunks).flatten ++ last.chunks).map (reception gaps) =
          c.chunks.map (reception gaps) ++
            ((calls.map DownloadCall.chunks).flatten ++ last.chunks).map (reception gaps) := by
        rw [List.map_cons, List.flatten_cons, List.append_assoc, List.map_append]
      rw [hchunks, receive_append, List.map_cons, List.cons_append, List.map_cons, run_cons]
      have hreceptions : (c.call gaps started .inProgress).receptions = c.chunks.map (reception gaps) := rfl
      have hstep : u.step P (.process (c.call gaps started .inProgress)) = _ := process_of_updating P u hupdating
      have hontime : u.isTimedout (c.call gaps started .inProgress).now = false := by
        have hintime := c.inTime
        show decide (started + c.elapsed - u.started ≥ updaterTimeoutSec) = false
        rw [hstarted, decide_eq_false_iff_not]
        omega
      have hupdates := updates P u (c.call gaps started .inProgress)
      rw [hstep]
      generalize processUpdate P u (c.call gaps started .inProgress) = outcome at hupdates
      cases hupdates with
      | downloading =>
          have hsilent : ∀ v : Updater, v.dispatchEvent .downloading = v := fun v => if_pos (.inr (.inr rfl))
          have hcontrol := control_receive P u (c.chunks.map (reception gaps))
          rw [hsilent, hreceptions]
          exact ih ((isUpdating_receive P _).trans hupdating)
            ((congrArg (fun k : Control => k.started) hcontrol).trans hstarted)
      | committed hresult => cases hresult
      | failed hwhy event =>
          have herror : (receive P u (c.chunks.map (reception gaps))).error ≠ none :=
            fun hnone => hwhy ⟨rfl, hnone, hontime⟩
          have hnone : ((receive P u (c.call gaps started .inProgress).receptions).clearRequest.dispatchEvent
              event).current = none := by
            obtain ⟨events, heq⟩ :=
              dispatchEvent_frame (receive P u (c.call gaps started .inProgress).receptions).clearRequest event
            rw [heq]
            rfl
          rw [run_of_no_request hnone, flash_dispatchEvent]
          have hstuck := stuck_receive (P := P) herror
            (((calls.map DownloadCall.chunks).flatten ++ last.chunks).map (reception gaps))
          exact (Prod.ext hstuck.1 hstuck.2).symm

end Whole

/-- The call starts a download. -/
def starts (u : Updater) (call : ProcessCall) : Bool :=
  u.attemptsStart call && call.dfuNew && call.downloaderPrepared

/-- An updater that has just begun has an empty buffer, which may start anywhere in its array. -/
theorem receiving_begun {u : Updater} (h : Rested P u) {call : ProcessCall} (hstarts : u.starts call = true) :
    ∃ events, (process P u call).1 = { u.attempted.begun call.now with events := events } ∧
      (process P u call).1.isUpdating = true ∧ (process P u call).1.bytesWritten = 0 ∧
      Receiving P (process P u call).1 := by
  simp only [starts, Bool.and_eq_true] at hstarts
  obtain ⟨⟨hattempt, hnew⟩, hprepared⟩ := hstarts
  have hprocess := process_of_attempt P u hattempt
  rw [startDownload, if_pos ⟨hnew, hprepared⟩] at hprocess
  obtain ⟨events, heq⟩ := dispatchEvent_frame (u.attempted.begun call.now) .startDownloading
  simp only [attemptsStart, isPending, Bool.and_eq_true, Bool.not_eq_true'] at hattempt
  obtain ⟨⟨hidle, hsome, -⟩, -⟩ := hattempt
  obtain ⟨herror, hbytes⟩ := h.fresh hidle (Option.isSome_iff_ne_none.mp hsome)
  rw [hprocess, heq]
  refine ⟨events, rfl, ?_, hbytes, herror, h.content hidle, h.capacity, ?_⟩
  · show (u.current.isSome && true) = true
    rw [hsome]
    rfl
  · show u.bytesWritten < 2 ^ 32
    rw [hbytes]
    decide

theorem flash_ops (d : Download P) (gaps : RingbufGaps) {u : Updater} (hupdating : u.isUpdating = true) :
    (run (step P) u (d.ops gaps u.started)).flash = (receive P u (d.chunks.map (reception gaps))).flash := by
  have hops : d.ops gaps u.started =
      (d.calls.map (fun c => c.call gaps u.started .inProgress) ++ [d.last.call gaps u.started d.result]).map
        UpdaterOp.process := by
    rw [Download.ops, List.map_append, List.map_map]
    rfl
  rw [hops]
  exact flash_calls gaps u.started d.calls d.last d.result hupdating rfl

theorem Download.sized (d : Download P) : Sized d.chunks := by
  intro chunk hchunk
  rcases List.mem_append.mp hchunk with hcalls | hlast
  · obtain ⟨chunks, hmem, hchunk⟩ := List.mem_flatten.mp hcalls
    obtain ⟨c, -, rfl⟩ := List.mem_map.mp hmem
    exact c.sized chunk hchunk
  · exact d.last.sized chunk hlast

/-- Whatever updates came before, a download that is started puts its image into the flash, whatever memory lies beyond the buffer's content, exactly when its first chunk holds the header, the buffer shows it in one piece, and `bytes_written` is not 0 when a later chunk comes. -/
theorem chunking_iff (P : Platform) (registered : Bool) (history : List UpdaterOp) (call : ProcessCall)
    (d : Download P) :
    ((run (step P) (boot P registered) history).starts call = true →
        ∀ gaps, d.Flashed (run (step P) (boot P registered) (history ++ .process call :: d.ops gaps call.now))) ↔
      ((run (step P) (boot P registered) history).starts call = true →
        HeaderFirst P (run (step P) (boot P registered) history).ringbuf.readIndex d.chunks) := by
  refine imp_congr_right fun hstarts => ?_
  have hrested := run_invariant (I := Rested P) rested_step (rested_boot registered) history
  have hsplit : ∀ gaps, run (step P) (boot P registered) (history ++ .process call :: d.ops gaps call.now) =
      run (step P) (process P (run (step P) (boot P registered) history) call).1 (d.ops gaps call.now) :=
    fun gaps => run_append (step P) _ _ _
  simp only [hsplit]
  generalize run (step P) (boot P registered) history = u at hstarts hrested ⊢
  obtain ⟨events, hbegun, hupdating, hbytes, hreceiving⟩ := receiving_begun hrested hstarts
  generalize (process P u call).1 = v at hbegun hupdating hbytes hreceiving ⊢
  have hstarted : call.now = v.started := by rw [hbegun]; rfl
  have hindex : u.ringbuf.readIndex = v.ringbuf.readIndex := by rw [hbegun]; rfl
  have hall := receive_all_iff hreceiving hbytes (by rw [hbegun]; rfl) (by rw [hbegun]; rfl) d.sized d.long d.valid
  rw [hindex, ← hall, hstarted]
  refine forall_congr' fun gaps => ?_
  have hflash := flash_ops d gaps hupdating
  have hprepared : (run (step P) v (d.ops gaps v.started)).prepared = _ := congrArg Prod.fst hflash
  have hwritten : (run (step P) v (d.ops gaps v.started)).written = _ := congrArg Prod.snd hflash
  rw [Download.Flashed, hprepared, hwritten]
  exact Iff.rfl

/-- A header of four bytes that starts with a magic number. -/
def smallPlatform : Platform :=
  { headerSize := 4, isValidHeader := fun hdr => hdr.head? == some 0xA5, capacity := 4096, fits := Nat.le_refl _ }

/-- The header in a chunk of its own, and then the data. -/
def headerAlone : Download smallPlatform :=
  { calls := [⟨[[0xA5, 1, 2, 3], [7, 8, 9, 10]], 1, by decide, by decide⟩], last := ⟨[], 2, by decide, by decide⟩,
    result := .ok, long := by decide, valid := by decide }

/-- With the header in a chunk of its own the data is taken for another header, and nothing is written. -/
theorem header_alone_not_flashed :
    (run (step smallPlatform) (boot smallPlatform true) [.request ⟨0⟩]).starts { now := 0 } = true ∧
      ¬ headerAlone.Flashed (run (step smallPlatform) (boot smallPlatform true)
        ([.request ⟨0⟩] ++ .process { now := 0 } :: headerAlone.ops ⟨fun _ => 0, [], 0⟩ 0)) := by
  refine ⟨by decide, fun hflashed => ?_⟩
  have hwritten := hflashed.2
  revert hwritten
  decide

end Evse.Updater
