import Evse.Updater.Process

/-!
# The events of an update

What the event callback sees: for each attempt to start a download one word of a small grammar, the words one after another. The code dispatches one event at a time and derives the events that must have come before it from the order of the enumeration, so the words are read off `dispatch_event` once and the rest is about which event each path ends with.
-/

namespace Evse.Updater

open StepRun

/-- What an update that has come to its end has told the callback. -/
def completeWords : List (List UpdaterEvent) := [
  [.errorPreparing],
  [.startDownloading, .errorDownloading],
  [.startDownloading, .errorTimeout],
  [.startDownloading, .downloaded, .startInstalling, .errorInstalling],
  [.startDownloading, .downloaded, .startInstalling, .installed, .rebootRequired]]

/-- The callbacks that `dispatch_event` makes. -/
def dispatched (event : UpdaterEvent) : List UpdaterEvent :=
  if event = .none ∨ event = .downloading then []
  else
    (if event.val > UpdaterEvent.downloaded.val then [.downloaded] else []) ++
      (if event.val > UpdaterEvent.startInstalling.val then [.startInstalling] else []) ++ [event] ++
      if event = .installed then [.rebootRequired] else []

section Frames

variable (P : Platform) (self : Updater)

theorem dispatchEvent_eq (h : self.eventCb = true) (event : UpdaterEvent) :
    self.dispatchEvent event = { self with events := self.events ++ dispatched event } := by
  rw [dispatchEvent, dispatched]
  by_cases hsilent : event = .none ∨ event = .downloading
  · have hskip : event = .none ∨ self.eventCb = false ∨ event = .downloading := hsilent.imp id .inr
    rw [if_pos hskip, if_pos hsilent, List.append_nil]
  · have hskip : ¬ (event = .none ∨ self.eventCb = false ∨ event = .downloading) := by
      rw [h]
      simpa using hsilent
    rw [if_neg hskip, if_neg hsilent]
    simp only [List.append_assoc]

/-- Everything that the chunks of an image do not touch. -/
structure Control where
  current : Option UpdaterParam
  dfu : Bool
  eventCb : Bool
  started : Int
  events : List UpdaterEvent
  attempts : Nat
  commits : Nat

def control : Control :=
  ⟨self.current, self.dfu, self.eventCb, self.started, self.events, self.attempts, self.commits⟩

/-- Writing a chunk touches the ring buffer and what was given to the DFU functions, nothing else. -/
def Writes (before after : Updater) : Prop :=
  ∃ ringbuf bytesWritten prepared written, ringbuf.capacity = before.ringbuf.capacity ∧
    after = { before with ringbuf := ringbuf, bytesWritten := bytesWritten, prepared := prepared, written := written }

theorem Writes.refl (u : Updater) : Writes u u := ⟨_, _, _, _, rfl, rfl⟩

theorem Writes.trans {u v w : Updater} (h : Writes u v) (h' : Writes v w) : Writes u w := by
  obtain ⟨_, _, _, _, hcapacity, rfl⟩ := h
  obtain ⟨ringbuf, bytesWritten, prepared, written, hcapacity', rfl⟩ := h'
  exact ⟨ringbuf, bytesWritten, prepared, written, hcapacity'.trans hcapacity, rfl⟩

theorem writes_prepareWrite (call : Reception) : Writes self (prepareWrite P self call).1 := by
  have hcapacity : (consumeHeader P self call.gaps).capacity = self.ringbuf.capacity := by
    rw [consumeHeader]
    split_ifs <;> rfl
  simp only [prepareWrite]
  split_ifs
  · exact .refl self
  · exact ⟨_, _, _, _, rfl, rfl⟩
  · exact ⟨consumeHeader P self call.gaps, _, _, _, hcapacity, rfl⟩
  · exact .refl self

theorem writes_writeDataBlock (ok : Bool) : Writes self (self.writeDataBlock ok).1 := by
  simp only [writeDataBlock]
  split_ifs
  · exact ⟨_, _, _, _, rfl, rfl⟩
  · exact ⟨self.ringbuf.consume _, _, _, _, rfl, rfl⟩
  · exact .refl self

theorem writes_writeBlocks (writeOk : Nat → Bool) (rounds : Nat) :
    Writes self (writeBlocks writeOk rounds self).1 := by
  induction rounds generalizing self with
  | zero => exact .refl self
  | succ rounds ih =>
      rw [writeBlocks]
      have hblock := self.writes_writeDataBlock (writeOk rounds)
      split_ifs
      · generalize self.writeDataBlock (writeOk rounds) = result at hblock
        obtain ⟨self', err⟩ := result
        cases err with
        | some err => exact hblock
        | none => exact hblock.trans (ih self')
      · exact .refl self

theorem writes_writeToFlash (call : Reception) : Writes self (writeToFlash P self call).1 := by
  rw [writeToFlash]
  cases self.error with
  | some err => exact .refl self
  | none =>
      dsimp only
      split_ifs
      · exact .refl self
      · have hprepare := writes_prepareWrite P self call
        generalize prepareWrite P self call = result at hprepare
        obtain ⟨self', err⟩ := result
        cases err with
        | some err => exact hprepare
        | none => exact hprepare.trans (writes_writeBlocks self' _ _)

/-- A chunk leaves its error in the updater; one that was there is there still. -/
theorem onDataReception_eq (call : Reception) :
    ∃ after err, Writes self after ∧ (∀ e, self.error = some e → err = some e) ∧
      onDataReception P self call = { after with error := err, outcomes := self.outcomes ++ [err] } := by
  obtain ⟨ringbuf, bytesWritten, prepared, written, hcapacity, heq⟩ :=
    writes_writeToFlash P { self with ringbuf := self.ringbuf.write call.data } call
  refine ⟨(writeToFlash P { self with ringbuf := self.ringbuf.write call.data } call).1,
    (writeToFlash P { self with ringbuf := self.ringbuf.write call.data } call).2, ?_, ?_, ?_⟩
  · exact ⟨ringbuf, bytesWritten, prepared, written, hcapacity, heq⟩
  · intro e he
    simp only [writeToFlash, he]
  · simp only [onDataReception, heq]

theorem control_onDataReception (call : Reception) : (onDataReception P self call).control = self.control := by
  obtain ⟨after, err, ⟨_, _, _, _, -, rfl⟩, -, heq⟩ := onDataReception_eq P self call
  rw [heq]
  rfl

theorem control_receive (calls : List Reception) : (receive P self calls).control = self.control := by
  induction calls generalizing self with
  | nil => rfl
  | cons call calls ih => exact (ih (onDataReception P self call)).trans (control_onDataReception P self call)

end Frames

/-! ### What a call comes to -/

section Calls

variable (P : Platform) (self : Updater)

/-- The call of `start_download` that `updater_process` makes. -/
def attemptsStart (call : ProcessCall) : Bool :=
  !self.isUpdating && self.isPending && self.hasDateArrived call.now

theorem process_of_attempt {call : ProcessCall} (h : self.attemptsStart call = true) :
    (process P self call).1 = (self.startDownload call).1.dispatchEvent (self.startDownload call).2 := by
  simp only [attemptsStart, Bool.and_eq_true] at h
  obtain ⟨⟨hidle, hpending⟩, harrived⟩ := h
  simp only [process, hidle, hpending, harrived, if_true, Bool.not_true, Bool.false_eq_true, if_false]

theorem process_of_updating {call : ProcessCall} (h : self.isUpdating = true) :
    (process P self call).1 = (processUpdate P self call).1.dispatchEvent (processUpdate P self call).2 := by
  simp only [process, h, Bool.not_true, Bool.false_eq_true, if_false]

theorem process_of_idle {call : ProcessCall} (hidle : self.isUpdating = false)
    (h : self.attemptsStart call = false) : (process P self call).1 = self := by
  simp only [attemptsStart, hidle, Bool.not_false, Bool.true_and] at h
  simp only [process, hidle, Bool.not_false, if_true]
  by_cases hpending : self.isPending = true
  · rw [hpending, Bool.true_and] at h
    simp only [hpending, h, if_true, Bool.not_false]
  · simp only [hpending, Bool.false_eq_true, if_false]

/-- The ways a call for an update that has started can go. -/
inductive Updates (call : ProcessCall) : Updater × UpdaterEvent → Prop where
  | downloading (hresult : call.result = .inProgress) (herror : (receive P self call.receptions).error = none)
      (htime : self.isTimedout call.now = false) :
      Updates call (receive P self call.receptions, .downloading)
  | committed (hresult : call.result = .ok) (herror : (receive P self call.receptions).error = none)
      (htime : self.isTimedout call.now = false) (hfinish : call.finishOk = true) (event : UpdaterEvent)
      (hevent : event = .installed ∨ event = .errorInstalling) :
      Updates call ((receive P self call.receptions).dfuCommit.clearRequest, event)
  | failed (hwhy : ¬ (call.result = .inProgress ∧ (receive P self call.receptions).error = none ∧
      self.isTimedout call.now = false)) (event : UpdaterEvent)
      (hevent : event = .errorTimeout ∨ event = .errorDownloading) :
      Updates call ((receive P self call.receptions).clearRequest, event)

theorem updates (call : ProcessCall) : Updates P self call (processUpdate P self call) := by
  have hstarted : (receive P self call.receptions).isTimedout call.now = self.isTimedout call.now := by
    rw [isTimedout, isTimedout]
    exact congrArg (fun c : Control => decide (call.now - c.started ≥ updaterTimeoutSec))
      (control_receive P self call.receptions)
  by_cases htime : self.isTimedout call.now = true
  · have hfailed : processUpdate P self call = ((receive P self call.receptions).clearRequest, .errorTimeout) := by
      simp [processUpdate, finishDownload, hstarted, htime]
    rw [hfailed]
    exact .failed (fun hgoes => absurd (hgoes.2.2.symm.trans htime) (by decide)) _ (.inl rfl)
  · have hontime : self.isTimedout call.now = false := by simpa using htime
    by_cases hgoes : call.result = .inProgress ∧ (receive P self call.receptions).error = none
    · have hdownloading : processUpdate P self call = (receive P self call.receptions, .downloading) := by
        simp [processUpdate, hstarted, hontime, hgoes.1, hgoes.2]
      rw [hdownloading]
      exact .downloading hgoes.1 hgoes.2 hontime
    · have hfinished : processUpdate P self call =
          (receive P self call.receptions).finishDownload call call.result := by
        simp [processUpdate, hstarted, hontime, hgoes]
      rw [hfinished, finishDownload]
      split_ifs with hcommit
      · exact .committed hcommit.2.1 hcommit.2.2 hontime hcommit.1 _ (.inl rfl)
      · exact .committed hcommit.2.1 hcommit.2.2 hontime hcommit.1 _ (.inr rfl)
      · exact .failed (fun h => hgoes ⟨h.1, h.2.1⟩) _ (.inl rfl)
      · exact .failed (fun h => hgoes ⟨h.1, h.2.1⟩) _ (.inr rfl)

end Calls

/-! ### The words along a run -/

/-- The callback is registered and has seen a word for each attempt, the last one unfinished where an update is under way. -/
structure Orderly (u : Updater) : Prop where
  eventCb : u.eventCb = true
  dfu : u.current = none → u.dfu = false
  words : ∃ words : List (List UpdaterEvent), (∀ word ∈ words, word ∈ completeWords) ∧
    u.events = words.flatten ++ (if u.isUpdating then [.startDownloading] else []) ∧
    words.length + u.isUpdating.toNat = u.attempts

section Words

variable {u u' : Updater}

/-- Without an update under way there is no `struct dfu`. -/
theorem dfu_of_idle (h : u.current = none → u.dfu = false) (hidle : u.isUpdating = false) : u.dfu = false := by
  rw [isUpdating, Bool.and_eq_false_iff] at hidle
  rcases hidle with hnone | hdfu
  · exact h (by simpa using hnone)
  · exact hdfu

theorem Orderly.of_control (h : Orderly u) (hcontrol : u'.control = u.control) : Orderly u' := by
  have hcurrent : u'.current = u.current := congrArg (fun c : Control => c.current) hcontrol
  have hdfu : u'.dfu = u.dfu := congrArg (fun c : Control => c.dfu) hcontrol
  have hcb : u'.eventCb = u.eventCb := congrArg (fun c : Control => c.eventCb) hcontrol
  have hevents : u'.events = u.events := congrArg (fun c : Control => c.events) hcontrol
  have hattempts : u'.attempts = u.attempts := congrArg (fun c : Control => c.attempts) hcontrol
  have hupdating : u'.isUpdating = u.isUpdating := by rw [isUpdating, isUpdating, hcurrent, hdfu]
  refine ⟨hcb.trans h.eventCb, ?_, ?_⟩
  · rw [hcurrent, hdfu]
    exact h.dfu
  · rw [hevents, hattempts, hupdating]
    exact h.words

section Dispatch

variable {words : List (List UpdaterEvent)} (hcomplete : ∀ word ∈ words, word ∈ completeWords) (hcb : u.eventCb = true)
  (hattempts : u.attempts = words.length + 1)
include hcomplete hcb hattempts

/-- The first event of an update begins its word. -/
theorem orderly_begun (hupdating : u.isUpdating = true) (hcurrent : u.current ≠ none)
    (hevents : u.events = words.flatten) : Orderly (u.dispatchEvent .startDownloading) := by
  have hupdating' : ∀ events, ({ u with events := events } : Updater).isUpdating = true := fun _ => hupdating
  rw [dispatchEvent_eq u hcb]
  refine ⟨hcb, fun hnone => absurd hnone hcurrent, words, hcomplete, ?_, ?_⟩
  · rw [hupdating', hevents]
    rfl
  · rw [hupdating', hattempts]
    rfl

/-- The last event of an update completes its word. -/
theorem orderly_ended (hdfu : u.dfu = false) (begun : List UpdaterEvent) (event : UpdaterEvent)
    (hword : begun ++ dispatched event ∈ completeWords) (hevents : u.events = words.flatten ++ begun) :
    Orderly (u.dispatchEvent event) := by
  have hidle : ∀ events, ({ u with events := events } : Updater).isUpdating = false := by
    intro events
    rw [isUpdating, hdfu, Bool.and_false]
  rw [dispatchEvent_eq u hcb]
  refine ⟨hcb, fun _ => hdfu, words ++ [begun ++ dispatched event], ?_, ?_, ?_⟩
  · intro w hw
    rcases List.mem_append.mp hw with hw | hw
    · exact hcomplete w hw
    · rw [List.mem_singleton.mp hw]
      exact hword
  · rw [hidle, hevents]
    simp
  · rw [hidle, hattempts]
    simp

end Dispatch

theorem orderly_request (h : Orderly u) (param : UpdaterParam) : Orderly (u.request param).1 := by
  rw [request]
  by_cases hupdating : u.isUpdating = true
  · rw [if_pos hupdating]
    exact h
  · rw [if_neg hupdating]
    have hidle : u.isUpdating = false := by simpa using hupdating
    have hdfu : u.dfu = false := dfu_of_idle h.dfu hidle
    have hidle' : (u.setRequest param).isUpdating = false := hdfu
    refine ⟨h.eventCb, fun _ => hdfu, ?_⟩
    show ∃ words : List (List UpdaterEvent), _ ∧ u.events = _ ∧ _ = u.attempts
    rw [hidle', ← hidle]
    exact h.words

theorem orderly_start (h : Orderly u) {call : ProcessCall} (hattempt : u.attemptsStart call = true) :
    Orderly ((u.startDownload call).1.dispatchEvent (u.startDownload call).2) := by
  simp only [attemptsStart, Bool.and_eq_true, Bool.not_eq_true'] at hattempt
  obtain ⟨⟨hidle, hpending⟩, -⟩ := hattempt
  obtain ⟨words, hcomplete, hflat, hlength⟩ := h.words
  simp only [hidle, Bool.false_eq_true, if_false, List.append_nil, Bool.toNat_false, Nat.add_zero] at hflat hlength
  have hattempts : u.attempted.attempts = words.length + 1 := by
    rw [hlength]
    rfl
  rw [startDownload]
  split_ifs
  · have hsome : u.current.isSome = true := by
      rw [isPending, Bool.and_eq_true] at hpending
      exact hpending.1
    have hupdating : (u.attempted.begun call.now).isUpdating = true := by
      show (u.current.isSome && true) = true
      rw [hsome]
      rfl
    exact orderly_begun hcomplete h.eventCb hattempts hupdating (Option.isSome_iff_ne_none.mp hsome) hflat
  · refine orderly_ended (u := u.attempted.clearRequest) hcomplete h.eventCb hattempts rfl [] .errorPreparing
      (by decide) ?_
    rw [List.append_nil]
    exact hflat

theorem orderly_update (P : Platform) (h : Orderly u) (hupdating : u.isUpdating = true) (call : ProcessCall) :
    Orderly ((processUpdate P u call).1.dispatchEvent (processUpdate P u call).2) := by
  have hreceived := h.of_control (control_receive P u call.receptions)
  have hstill : (receive P u call.receptions).isUpdating = true :=
    (congrArg (fun c : Control => c.current.isSome && c.dfu) (control_receive P u call.receptions)).trans hupdating
  obtain ⟨words, hcomplete, hflat, hlength⟩ := hreceived.words
  rw [hstill] at hflat hlength
  have hupdates := updates P u call
  generalize processUpdate P u call = result at hupdates
  cases hupdates with
  | downloading =>
      rw [dispatchEvent_eq _ hreceived.eventCb]
      simp only [dispatched, or_true, if_true, List.append_nil]
      exact hreceived
  | committed _ _ _ _ event hevent =>
      refine orderly_ended (u := (receive P u call.receptions).dfuCommit.clearRequest) hcomplete hreceived.eventCb
        hlength.symm rfl [.startDownloading] event ?_ hflat
      rcases hevent with rfl | rfl <;> decide
  | failed _ event hevent =>
      refine orderly_ended (u := (receive P u call.receptions).clearRequest) hcomplete hreceived.eventCb
        hlength.symm rfl [.startDownloading] event ?_ hflat
      rcases hevent with rfl | rfl <;> decide

theorem orderly_step (P : Platform) (u : Updater) (op : UpdaterOp) (h : Orderly u) : Orderly (u.step P op) := by
  cases op with
  | request param => exact orderly_request h param
  | process call =>
      rw [step]
      by_cases hupdating : u.isUpdating = true
      · rw [process_of_updating P u hupdating]
        exact orderly_update P h hupdating call
      · by_cases hattempt : u.attemptsStart call = true
        · rw [process_of_attempt P u hattempt]
          exact orderly_start h hattempt
        · rw [process_of_idle P u (by simpa using hupdating) (by simpa using hattempt)]
          exact h

theorem orderly_init (P : Platform) : Orderly (init P).registerEventCallback :=
  ⟨rfl, fun _ => rfl, [], by simp, rfl, rfl⟩

end Words

/-! ### What is committed -/

/-- An error stays for the rest of the update: while there is none, no chunk of it has failed. -/
def Clean (u : Updater) : Prop := u.isUpdating = true → u.error = none → ∀ outcome ∈ u.outcomes, outcome = none

/-- `dfu_commit` is called only for an update on time, whose download is over, whose chunks were all written and which `dfu_finish` has closed. -/
def CommitsDuly (P : Platform) (u : Updater) (op : UpdaterOp) : Prop :=
  (u.step P op).commits ≠ u.commits →
    ∃ call, op = .process call ∧ u.isUpdating = true ∧ call.result = .ok ∧ call.finishOk = true ∧
      u.isTimedout call.now = false ∧ ∀ outcome ∈ (receive P u call.receptions).outcomes, outcome = none

section Commits

variable (P : Platform) {u : Updater}

theorem isUpdating_receive (calls : List Reception) : (receive P u calls).isUpdating = u.isUpdating :=
  congrArg (fun c : Control => c.current.isSome && c.dfu) (control_receive P u calls)

theorem commits_receive (calls : List Reception) : (receive P u calls).commits = u.commits :=
  congrArg (fun c : Control => c.commits) (control_receive P u calls)

theorem clean_onDataReception (h : Clean u) (call : Reception) : Clean (onDataReception P u call) := by
  have hupdating : (onDataReception P u call).isUpdating = u.isUpdating :=
    congrArg (fun c : Control => c.current.isSome && c.dfu) (control_onDataReception P u call)
  obtain ⟨after, err, -, hsticky, heq⟩ := onDataReception_eq P u call
  rw [heq] at hupdating ⊢
  intro hstill hnone outcome houtcome
  have herr : err = none := hnone
  have herror : u.error = none := by
    cases he : u.error with
    | none => rfl
    | some e =>
        rw [hsticky e he] at herr
        cases herr
  rcases List.mem_append.mp houtcome with hold | hnew
  · exact h (hupdating.symm.trans hstill) herror outcome hold
  · rw [List.mem_singleton.mp hnew]
    exact herr

theorem clean_receive (h : Clean u) (calls : List Reception) : Clean (receive P u calls) := by
  induction calls generalizing u with
  | nil => exact h
  | cons call calls ih => exact ih (clean_onDataReception P h call)

theorem clean_of_idle (h : u.isUpdating = false) : Clean u := by
  intro hupdating
  rw [h] at hupdating
  cases hupdating

theorem dispatchEvent_frame (u : Updater) (event : UpdaterEvent) :
    ∃ events, u.dispatchEvent event = { u with events := events } := by
  rw [dispatchEvent]
  by_cases hskip : event = .none ∨ u.eventCb = false ∨ event = .downloading
  · exact ⟨u.events, if_pos hskip⟩
  · exact ⟨_, if_neg hskip⟩

theorem commits_dispatchEvent (event : UpdaterEvent) : (u.dispatchEvent event).commits = u.commits := by
  obtain ⟨events, heq⟩ := dispatchEvent_frame u event
  rw [heq]

theorem clean_dispatchEvent (event : UpdaterEvent) : Clean (u.dispatchEvent event) ↔ Clean u := by
  obtain ⟨events, heq⟩ := dispatchEvent_frame u event
  rw [heq]
  exact Iff.rfl

theorem clean_step (op : UpdaterOp) (h : Orderly u) (hclean : Clean u) : Clean (u.step P op) := by
  cases op with
  | request param =>
      rw [step, request]
      by_cases hupdating : u.isUpdating = true
      · rw [if_pos hupdating]
        exact hclean
      · rw [if_neg hupdating]
        have hdfu : u.dfu = false := dfu_of_idle h.dfu (by simpa using hupdating)
        exact clean_of_idle hdfu
  | process call =>
      rw [step]
      by_cases hupdating : u.isUpdating = true
      · rw [process_of_updating P u hupdating, clean_dispatchEvent]
        have hupdates := updates P u call
        generalize processUpdate P u call = result at hupdates
        cases hupdates with
        | downloading => exact clean_receive P hclean call.receptions
        | committed => exact clean_of_idle rfl
        | failed => exact clean_of_idle rfl
      · by_cases hattempt : u.attemptsStart call = true
        · rw [process_of_attempt P u hattempt, clean_dispatchEvent, startDownload]
          split_ifs
          · intro _ _ outcome houtcome
            cases houtcome
          · exact clean_of_idle rfl
        · rw [process_of_idle P u (by simpa using hupdating) (by simpa using hattempt)]
          exact hclean

theorem commits_duly (op : UpdaterOp) (hclean : Clean u) : CommitsDuly P u op := by
  intro hcommits
  cases op with
  | request param =>
      rw [step, request] at hcommits
      split_ifs at hcommits <;> exact absurd rfl hcommits
  | process call =>
      rw [step] at hcommits
      by_cases hupdating : u.isUpdating = true
      · rw [process_of_updating P u hupdating, commits_dispatchEvent] at hcommits
        have hupdates := updates P u call
        generalize processUpdate P u call = result at hupdates hcommits
        cases hupdates with
        | downloading => exact absurd (commits_receive P call.receptions) hcommits
        | committed hresult herror htime hfinish =>
            have hstill := (isUpdating_receive P call.receptions).trans hupdating
            exact ⟨call, rfl, hupdating, hresult, hfinish, htime,
              clean_receive P hclean call.receptions hstill herror⟩
        | failed => exact absurd (commits_receive P call.receptions) hcommits
      · by_cases hattempt : u.attemptsStart call = true
        · rw [process_of_attempt P u hattempt, commits_dispatchEvent, startDownload] at hcommits
          split_ifs at hcommits <;> exact absurd rfl hcommits
        · rw [process_of_idle P u (by simpa using hupdating) (by simpa using hattempt)] at hcommits
          exact absurd rfl hcommits

end Commits

/-- Along any run the callback sees one word of the grammar for each attempt, in order, the last unfinished while its update is under way, and every commit is due. -/
theorem events_in_words (P : Platform) (ops : List UpdaterOp) :
    (∃ words : List (List UpdaterEvent), (∀ word ∈ words, word ∈ completeWords) ∧
      (run (step P) (init P).registerEventCallback ops).events =
        words.flatten ++
          (if (run (step P) (init P).registerEventCallback ops).isUpdating then [.startDownloading] else []) ∧
      words.length + (run (step P) (init P).registerEventCallback ops).isUpdating.toNat =
        (run (step P) (init P).registerEventCallback ops).attempts) ∧
    EveryStep (step P) (CommitsDuly P) (init P).registerEventCallback ops := by
  have hstep : ∀ u op, Orderly u ∧ Clean u → Orderly (u.step P op) ∧ Clean (u.step P op) :=
    fun u op h => ⟨orderly_step P u op h.1, clean_step P op h.1 h.2⟩
  have hinit : Orderly (init P).registerEventCallback ∧ Clean (init P).registerEventCallback :=
    ⟨orderly_init P, clean_of_idle rfl⟩
  exact ⟨(run_invariant hstep hinit ops).1.words,
    everyStep_of_invariant hstep (fun _ op h => commits_duly P op h.2) hinit ops⟩

end Evse.Updater
