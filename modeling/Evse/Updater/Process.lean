import Evse.Lib.Run
import Evse.Lib.RingBuffer
import Mathlib.Algebra.Ring.Nat
import Mathlib.Tactic.Common

/-!
# The firmware updater

`updater.c`: one request at a time, a download driven by calls of `updater_process`, and chunks of the image that the downloader hands over inside such a call. A chunk goes through a ring buffer: the first bytes of the image are taken for its header, the rest is written to the flash in the pieces the ring buffer shows.

The ring buffer, the downloader and the DFU functions are not part of the repository. The first is a queue whose pointer shows the content up to the end of the array; the others do and answer whatever the inputs say.
-/

namespace Evse

open StepRun

/-- `updater_event_t`. -/
inductive UpdaterEvent where
  | none | errorPreparing | startDownloading | downloading | errorDownloading | errorWriting | errorTimeout
  | downloaded | startInstalling | errorInstalling | rebootRequired | installed | error
  deriving DecidableEq, Repr

/-- The numbers of the enumeration, which the code compares. -/
def UpdaterEvent.val : UpdaterEvent → Nat
  | .none => 0
  | .errorPreparing => 1
  | .startDownloading => 2
  | .downloading => 3
  | .errorDownloading => 4
  | .errorWriting => 5
  | .errorTimeout => 6
  | .downloaded => 7
  | .startInstalling => 8
  | .errorInstalling => 9
  | .rebootRequired => 10
  | .installed => 11
  | .error => 12

/-- `-EPROTO` and `-EIO`, the errors a chunk can leave behind. -/
inductive UpdateError where
  | proto | io
  deriving DecidableEq, Repr

/-- What `downloader_process` returns: 0, `-EINPROGRESS`, `-ETIMEDOUT` or another error. -/
inductive DownloaderResult where
  | ok | inProgress | timedOut | failed
  deriving DecidableEq, Repr

/-- `UPDATER_BUFFER_SIZE`. -/
def updaterBufferSize : Nat := 4096

/-- `UPDATER_TIMEOUT_SEC`. -/
def updaterTimeoutSec : Int := 5 * 60

/-- What the updater is built with: the size of `struct dfu_image_header`, `dfu_is_valid_header`, and the ring buffer's capacity. -/
structure Platform where
  headerSize : Nat
  isValidHeader : List UInt8 → Bool
  capacity : Nat
  fits : updaterBufferSize ≤ capacity

/-- What the ring buffer leaves open: the memory that follows the content it shows, and what is left of it when more is consumed than it holds. -/
structure RingbufGaps where
  beyond : Nat → UInt8
  left : List UInt8
  index : Nat

/-- A call of `on_data_reception`, and the answers of the DFU functions it calls. -/
structure Reception where
  data : List UInt8
  gaps : RingbufGaps
  prepareOk : Bool := true
  writeOk : Nat → Bool := fun _ => true

/-- A call of `updater_process`, and the answers of what it calls. -/
structure ProcessCall where
  now : Int
  dfuNew : Bool := true
  downloaderPrepared : Bool := true
  receptions : List Reception := []
  result : DownloaderResult := .inProgress
  finishOk : Bool := true
  commitOk : Bool := true

/-- `struct updater_param`, as far as it decides anything. -/
structure UpdaterParam where
  retrieveDate : Int
  deriving DecidableEq

/-- `struct updater`. The last fields record what was called: the event callback, and for the update at hand `dfu_prepare`, `dfu_write` and what each chunk came to. -/
structure Updater where
  current : Option UpdaterParam
  dfu : Bool
  ringbuf : RingBuffer UInt8
  eventCb : Bool
  started : Int
  bytesWritten : Nat
  error : Option UpdateError
  events : List UpdaterEvent
  attempts : Nat
  commits : Nat
  prepared : List (List UInt8)
  written : List (List UInt8)
  outcomes : List (Option UpdateError)

namespace Updater

/-- `updater_init`, with a ring buffer of the platform's capacity. -/
def init (P : Platform) : Updater :=
  { current := none, dfu := false, ringbuf := .create P.capacity, eventCb := false, started := 0, bytesWritten := 0,
    error := none, events := [], attempts := 0, commits := 0, prepared := [], written := [], outcomes := [] }

variable (P : Platform) (self : Updater)

def registerEventCallback : Updater := { self with eventCb := true }

def clearRequest : Updater :=
  { self with current := none, dfu := false, ringbuf := self.ringbuf.consume self.ringbuf.length }

def setRequest (param : UpdaterParam) : Updater :=
  { self with current := some param, error := none, bytesWritten := 0 }

def isPending : Bool := self.current.isSome && !self.dfu

def isUpdating : Bool := self.current.isSome && self.dfu

def hasDateArrived (now : Int) : Bool :=
  match self.current with
  | none => false
  | some param => param.retrieveDate ≤ now

def isTimedout (now : Int) : Bool := now - self.started ≥ updaterTimeoutSec

/-! ### Chunks -/

/-- The header is read through the pointer, as far as it goes and beyond. -/
def peekHeader (gaps : RingbufGaps) : List UInt8 :=
  (self.ringbuf.contiguous ++ (List.range P.headerSize).map gaps.beyond).take P.headerSize

def consumeHeader (gaps : RingbufGaps) : RingBuffer UInt8 :=
  if P.headerSize ≤ self.ringbuf.length then self.ringbuf.consume P.headerSize
  else self.ringbuf.scramble gaps.left gaps.index

def prepareWrite (call : Reception) : Updater × Option UpdateError :=
  if self.bytesWritten = 0 ∧ self.error = none then
    let hdr := peekHeader P self call.gaps
    if !P.isValidHeader hdr then (self, some .proto)
    else
      let self := { self with prepared := self.prepared ++ [hdr] }
      if !call.prepareOk then (self, some .proto)
      else ({ self with ringbuf := consumeHeader P self call.gaps }, none)
  else (self, none)

/-- `write_data_block`; `bytes_written` is a `size_t` of 32 bits. -/
def writeDataBlock (ok : Bool) : Updater × Option UpdateError :=
  let data := self.ringbuf.contiguous.take updaterBufferSize
  if data ≠ [] then
    let self := { self with written := self.written ++ [data] }
    if !ok then (self, some .io)
    else
      ({ self with
          ringbuf := self.ringbuf.consume data.length
          bytesWritten := (self.bytesWritten + data.length) % 2 ^ 32 }, none)
  else (self, none)

/-- The loop of `write_to_flash`, in as many rounds as the buffer has bytes at most. -/
def writeBlocks (writeOk : Nat → Bool) : Nat → Updater → Updater × Option UpdateError
  | 0, self => (self, none)
  | rounds + 1, self =>
      if self.ringbuf.length > 0 then
        match self.writeDataBlock (writeOk rounds) with
        | (self, some err) => (self, some err)
        | (self, none) => writeBlocks writeOk rounds self
      else (self, none)

def writeToFlash (call : Reception) : Updater × Option UpdateError :=
  match self.error with
  | some err => (self, some err)
  | none =>
      if self.ringbuf.length = 0 then (self, none)
      else
        match prepareWrite P self call with
        | (self, some err) => (self, some err)
        | (self, none) => writeBlocks call.writeOk self.ringbuf.length self

def onDataReception (call : Reception) : Updater :=
  let (self, err) := writeToFlash P { self with ringbuf := self.ringbuf.write call.data } call
  { self with error := err, outcomes := self.outcomes ++ [err] }

/-- The chunks that one call of `downloader_process` hands over. -/
def receive (calls : List Reception) : Updater := calls.foldl (onDataReception P) self

/-! ### The update -/

/-- The call of `dfu_commit`. -/
def dfuCommit : Updater := { self with commits := self.commits + 1 }

def finishDownload (call : ProcessCall) (result : DownloaderResult) : Updater × UpdaterEvent :=
  if call.finishOk = true ∧ result = .ok ∧ self.error = none then
    (self.dfuCommit.clearRequest, if call.commitOk then .installed else .errorInstalling)
  else (self.clearRequest, if result = .timedOut then .errorTimeout else .errorDownloading)

/-- The start of a download is attempted. -/
def attempted : Updater := { self with attempts := self.attempts + 1 }

/-- The download has started, with a new `struct dfu`. -/
def begun (now : Int) : Updater :=
  { self with dfu := true, started := now, prepared := [], written := [], outcomes := [] }

def startDownload (call : ProcessCall) : Updater × UpdaterEvent :=
  if call.dfuNew = true ∧ call.downloaderPrepared = true then (self.attempted.begun call.now, .startDownloading)
  else (self.attempted.clearRequest, .errorPreparing)

def dispatchEvent (event : UpdaterEvent) : Updater :=
  if event = .none ∨ self.eventCb = false ∨ event = .downloading then self
  else
    let before := if event.val > UpdaterEvent.downloaded.val then [UpdaterEvent.downloaded] else []
    let before := before ++ if event.val > UpdaterEvent.startInstalling.val then [.startInstalling] else []
    let after := if event = .installed then [UpdaterEvent.rebootRequired] else []
    { self with events := self.events ++ before ++ [event] ++ after }

def isRequestInprogress (event : UpdaterEvent) : Bool :=
  event = .startDownloading || event = .downloading || event = .downloaded || event = .startInstalling

/-- `updater_process` for an update that has started. -/
def processUpdate (call : ProcessCall) : Updater × UpdaterEvent :=
  let self := receive P self call.receptions
  let downloading := call.result = .inProgress && self.error = none
  let timedout := self.isTimedout call.now
  if downloading && !timedout then (self, .downloading)
  else self.finishDownload call (if timedout then .timedOut else call.result)

/-- `updater_process`. It returns the event's number, or `-EAGAIN` here `none`. -/
def process (call : ProcessCall) : Updater × Option UpdaterEvent :=
  if !self.isUpdating then
    if self.isPending then
      if !self.hasDateArrived call.now then (self, none)
      else
        let (self, event) := self.startDownload call
        (self.dispatchEvent event, if isRequestInprogress event then none else some event)
    else (self, some .none)
  else
    let (self, event) := processUpdate P self call
    (self.dispatchEvent event, if isRequestInprogress event then none else some event)

/-- `updater_request`: `false` is `-EBUSY`. -/
def request (param : UpdaterParam) : Updater × Bool :=
  if self.isUpdating then (self, false) else (self.setRequest param, true)

end Updater

inductive UpdaterOp where
  | request (param : UpdaterParam)
  | process (call : ProcessCall)

def Updater.step (P : Platform) (self : Updater) : UpdaterOp → Updater
  | .request param => (self.request param).1
  | .process call => (process P self call).1

end Evse
