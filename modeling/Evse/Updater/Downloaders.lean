import Evse.Updater.Events
import Mathlib.Data.List.Count

/-!
# The downloaders of the updater

`updater_request` is handed a downloader, and from then on the updater alone decides what is called on it. Here the updater is run together with its pointer to a downloader and a record of the calls made through it. The code pairs `downloader_delete` with a download that has begun: a downloader whose download never begins, because the start fails or because its request is overwritten while it waits, is dropped without a call.
-/

namespace Evse

open StepRun

/-- The calls made through the pointer to a downloader. -/
inductive DownloaderCall where
  | prepare (downloader : Nat)
  | process (downloader : Nat)
  | delete (downloader : Nat)
  deriving DecidableEq

def DownloaderCall.downloader : DownloaderCall → Nat
  | .prepare d | .process d | .delete d => d

/-- The updater and its downloader. Downloaders are numbered in the order they are handed to `updater_request`; which of them were accepted and whose download has begun is recorded with the calls. -/
structure Downloads where
  updater : Updater
  downloader : Nat
  created : Nat
  accepted : List Nat
  begun : List Nat
  calls : List DownloaderCall

/-- A request with or without its two arguments, or a call of `updater_process`. -/
inductive DownloadsOp where
  | request (param : Option UpdaterParam) (downloader : Bool)
  | process (call : ProcessCall)

namespace Downloads

variable (P : Platform) (s : Downloads)

def init : Downloads :=
  { updater := .init P, downloader := 0, created := 0, accepted := [], begun := [], calls := [] }

/-- `updater_request` with a downloader that nothing else refers to; `false` is `-EINVAL` or `-EBUSY`. -/
def request (param : Option UpdaterParam) (downloader : Bool) : Downloads × Bool :=
  let d := s.created
  let s := if downloader then { s with created := d + 1 } else s
  match param, downloader with
  | some param, true =>
      match s.updater.request param with
      | (updater, true) => ({ s with updater := updater, downloader := d, accepted := s.accepted ++ [d] }, true)
      | (_, false) => (s, false)
  | _, _ => (s, false)

/-- `updater_process` with the calls it makes on the downloader. -/
def process (call : ProcessCall) : Downloads :=
  let updater := (Updater.process P s.updater call).1
  if !s.updater.isUpdating then
    if s.updater.isPending then
      if !s.updater.hasDateArrived call.now then s
      else
        { s with
          updater := updater
          begun := if call.dfuNew = true ∧ call.downloaderPrepared = true then s.begun ++ [s.downloader] else s.begun
          calls := s.calls ++ if call.dfuNew then [.prepare s.downloader] else [] }
    else s
  else
    let received := Updater.receive P s.updater call.receptions
    let downloading := call.result = .inProgress && received.error = none
    let timedout := received.isTimedout call.now
    { s with
      updater := updater
      calls := s.calls ++ .process s.downloader :: if downloading && !timedout then [] else [.delete s.downloader] }

def step : DownloadsOp → Downloads
  | .request param downloader => (s.request param downloader).1
  | .process call => s.process P call

/-- The downloader the updater has a request for. -/
def Holds (d : Nat) : Prop := s.updater.current ≠ none ∧ s.downloader = d

instance (d : Nat) : Decidable (s.Holds d) :=
  inferInstanceAs (Decidable (s.updater.current ≠ none ∧ s.downloader = d))

/-- What a call leaves to the calls after it: none on a downloader it has deleted. -/
def Leaves (before after : DownloaderCall) : Prop := ∀ d, before = .delete d → after.downloader ≠ d

/-- The downloaders and the calls on them fit together: only accepted ones are called, those whose download has begun are deleted once they are no longer held, no other is, and none is called after its deletion. -/
structure Owned : Prop where
  dfu : s.updater.current = none → s.updater.dfu = false
  fresh : ∀ d ∈ s.accepted, d < s.created
  held : s.updater.current ≠ none → s.downloader ∈ s.accepted
  begunAccepted : ∀ d ∈ s.begun, d ∈ s.accepted
  pending : s.updater.isPending = true → s.downloader ∉ s.begun
  updating : s.updater.isUpdating = true → s.downloader ∈ s.begun
  called : ∀ call ∈ s.calls, call.downloader ∈ s.accepted
  deleted : ∀ d, s.calls.count (.delete d) = if d ∈ s.begun ∧ ¬s.Holds d then 1 else 0
  last : s.calls.Pairwise Leaves

/-! ### What a call comes to -/

/-- The ways a call of `updater_process` can go for the downloader. -/
inductive Processes : Downloads → Prop where
  | idle : Processes s
  | notBegun (u : Updater) (calls : List DownloaderCall) (hpending : s.updater.isPending = true)
      (hcurrent : u.current = none) (hdfu : u.dfu = false) (hcalls : calls = [] ∨ calls = [.prepare s.downloader]) :
      Processes { s with updater := u, calls := s.calls ++ calls }
  | begins (u : Updater) (hpending : s.updater.isPending = true) (hcurrent : u.current = s.updater.current)
      (hdfu : u.dfu = true) :
      Processes { s with
        updater := u, begun := s.begun ++ [s.downloader], calls := s.calls ++ [.prepare s.downloader] }
  | goesOn (u : Updater) (hupdating : s.updater.isUpdating = true) (hcurrent : u.current = s.updater.current)
      (hdfu : u.dfu = true) :
      Processes { s with updater := u, calls := s.calls ++ [.process s.downloader] }
  | finishes (u : Updater) (hupdating : s.updater.isUpdating = true) (hcurrent : u.current = none)
      (hdfu : u.dfu = false) :
      Processes { s with updater := u, calls := s.calls ++ [.process s.downloader, .delete s.downloader] }

theorem dispatched_frame (u : Updater) (event : UpdaterEvent) :
    (u.dispatchEvent event).current = u.current ∧ (u.dispatchEvent event).dfu = u.dfu := by
  obtain ⟨events, heq⟩ := Updater.dispatchEvent_frame u event
  rw [heq]
  exact ⟨rfl, rfl⟩

theorem finished_frame (u : Updater) (call : ProcessCall) (result : DownloaderResult) :
    (u.finishDownload call result).1.current = none ∧ (u.finishDownload call result).1.dfu = false := by
  rw [Updater.finishDownload]
  split_ifs <;> exact ⟨rfl, rfl⟩

theorem processes_start {call : ProcessCall} (hattempt : s.updater.attemptsStart call = true) :
    Processes s (s.process P call) := by
  obtain ⟨hcurrent, hdfu⟩ := dispatched_frame (s.updater.startDownload call).1 (s.updater.startDownload call).2
  rw [← Updater.process_of_attempt P s.updater hattempt] at hcurrent hdfu
  simp only [Updater.attemptsStart, Bool.and_eq_true] at hattempt
  obtain ⟨⟨hidle, hpending⟩, harrived⟩ := hattempt
  simp only [process, hidle, hpending, harrived, if_true, Bool.not_true, Bool.false_eq_true, if_false]
  by_cases hbegins : call.dfuNew = true ∧ call.downloaderPrepared = true
  · simp only [Updater.startDownload, if_pos hbegins] at hcurrent hdfu
    rw [if_pos hbegins, if_pos hbegins.1]
    exact .begins _ hpending hcurrent hdfu
  · simp only [Updater.startDownload, if_neg hbegins] at hcurrent hdfu
    rw [if_neg hbegins]
    refine .notBegun _ _ hpending hcurrent hdfu ?_
    cases call.dfuNew with
    | true => exact .inr rfl
    | false => exact .inl rfl

theorem processes_update {call : ProcessCall} (hupdating : s.updater.isUpdating = true) :
    Processes s (s.process P call) := by
  obtain ⟨hcurrent, hdfu⟩ :=
    dispatched_frame (Updater.processUpdate P s.updater call).1 (Updater.processUpdate P s.updater call).2
  rw [← Updater.process_of_updating P s.updater hupdating] at hcurrent hdfu
  simp only [process, hupdating, Bool.not_true, Bool.false_eq_true, if_false]
  simp only [Updater.processUpdate] at hcurrent hdfu
  generalize hgoes : (decide (call.result = .inProgress) &&
    decide ((Updater.receive P s.updater call.receptions).error = none) &&
      !(Updater.receive P s.updater call.receptions).isTimedout call.now) = goes at hcurrent hdfu ⊢
  cases goes with
  | true =>
    have hcontrol := Updater.control_receive P s.updater call.receptions
    refine .goesOn _ hupdating (hcurrent.trans ?_) (hdfu.trans ?_)
    · exact congrArg (fun c : Updater.Control => c.current) hcontrol
    · have hsame := congrArg (fun c : Updater.Control => c.dfu) hcontrol
      simp only [Updater.isUpdating, Bool.and_eq_true] at hupdating
      exact hsame.trans hupdating.2
  | false =>
    obtain ⟨hnone, hfalse⟩ := finished_frame (Updater.receive P s.updater call.receptions) call
      (if (Updater.receive P s.updater call.receptions).isTimedout call.now then .timedOut else call.result)
    exact .finishes _ hupdating (hcurrent.trans hnone) (hdfu.trans hfalse)

theorem processes (call : ProcessCall) : Processes s (s.process P call) := by
  by_cases hupdating : s.updater.isUpdating = true
  · exact processes_update P s hupdating
  · by_cases hattempt : s.updater.attemptsStart call = true
    · exact processes_start P s hattempt
    · have hidle : s.process P call = s := by
        simp only [Updater.attemptsStart, hupdating, Bool.not_false, Bool.true_and, Bool.and_eq_true, not_and] at hattempt
        simp only [process, hupdating, Bool.not_false, if_true]
        by_cases hpending : s.updater.isPending = true
        · simp only [hpending, hattempt hpending, Bool.not_false, if_true]
        · simp only [hpending, Bool.false_eq_true, if_false]
      rw [hidle]
      exact .idle

/-! ### Ownership along a run -/

section Ownership

variable {s}

theorem not_holds_of_idle {d : Nat} (h : s.updater.current = none) : ¬s.Holds d := fun hholds => hholds.1 h

theorem Owned.not_mem_of_held (h : Owned s) (hheld : s.updater.current ≠ none) :
    s.calls.count (.delete s.downloader) = 0 := by
  rw [h.deleted, if_neg]
  rintro ⟨-, hnot⟩
  exact hnot ⟨hheld, rfl⟩

/-- Calls on the downloader that is held, of which only the last may delete it, go on after the calls so far. -/
theorem Owned.last_append (h : Owned s) (hheld : s.updater.current ≠ none) {calls : List DownloaderCall}
    (hcalls : ∀ call ∈ calls, call.downloader = s.downloader) (hlast : calls.Pairwise Leaves) :
    (s.calls ++ calls).Pairwise Leaves := by
  rw [List.pairwise_append]
  refine ⟨h.last, hlast, ?_⟩
  rintro _ hmem call hcall d rfl hd
  rw [hcalls call hcall] at hd
  subst hd
  exact List.count_eq_zero.1 (h.not_mem_of_held hheld) hmem

theorem Owned.called_append (h : Owned s) (hheld : s.updater.current ≠ none) {calls : List DownloaderCall}
    (hcalls : ∀ call ∈ calls, call.downloader = s.downloader) :
    ∀ call ∈ s.calls ++ calls, call.downloader ∈ s.accepted := by
  intro call hmem
  rcases List.mem_append.1 hmem with hold | hnew
  · exact h.called call hold
  · rw [hcalls call hnew]
    exact h.held hheld

theorem current_of_pending (h : s.updater.isPending = true) : s.updater.current ≠ none := by
  intro hnone
  simp [Updater.isPending, hnone] at h

theorem current_of_updating (h : s.updater.isUpdating = true) : s.updater.current ≠ none := by
  intro hnone
  simp [Updater.isUpdating, hnone] at h

theorem owned_process (h : Owned s) (call : ProcessCall) : Owned (s.process P call) := by
  have hprocesses := processes P s call
  generalize s.process P call = s' at hprocesses
  cases hprocesses with
  | idle => exact h
  | notBegun u calls hpending hcurrent hdfu hcalls =>
    have hheld := current_of_pending hpending
    have hown : ∀ call ∈ calls, call.downloader = s.downloader := by
      rcases hcalls with rfl | rfl <;> simp [DownloaderCall.downloader]
    have hnone : ∀ d, calls.count (.delete d) = 0 := by
      intro d
      rcases hcalls with rfl | rfl <;> rfl
    refine ⟨fun _ => hdfu, h.fresh, fun hne => absurd hcurrent hne, h.begunAccepted, ?_, ?_, h.called_append hheld hown, ?_,
      h.last_append hheld hown ?_⟩
    · simp [Updater.isPending, hcurrent]
    · simp [Updater.isUpdating, hcurrent]
    · intro d
      rw [List.count_append, hnone, h.deleted, Nat.add_zero]
      refine if_congr (and_congr_right fun hd => ?_) rfl rfl
      refine iff_of_true (fun hholds => h.pending hpending (hholds.2 ▸ hd)) (not_holds_of_idle hcurrent)
    · rcases hcalls with rfl | rfl <;> simp
  | begins u hpending hcurrent hdfu =>
    have hheld := current_of_pending hpending
    have hown : ∀ call ∈ [DownloaderCall.prepare s.downloader], call.downloader = s.downloader := by
      simp [DownloaderCall.downloader]
    refine ⟨fun hnone => absurd (hcurrent.symm.trans hnone) hheld, h.fresh, fun _ => h.held hheld, ?_, ?_, ?_,
      h.called_append hheld hown, ?_, h.last_append hheld hown (List.pairwise_singleton _ _)⟩
    · intro d hd
      rcases List.mem_append.1 hd with hd | hd
      · exact h.begunAccepted d hd
      · rw [List.mem_singleton.1 hd]
        exact h.held hheld
    · simp [Updater.isPending, hdfu]
    · intro _
      simp
    · intro d
      rw [List.count_append, h.deleted]
      have hholds : Holds { s with
          updater := u, begun := s.begun ++ [s.downloader], calls := s.calls ++ [.prepare s.downloader] } d ↔
          s.Holds d := by
        rw [Holds, Holds, hcurrent]
      -- The one that is new among the begun is the one that is held.
      have hbegun : d ∈ s.begun ++ [s.downloader] ∧ ¬s.Holds d ↔ d ∈ s.begun ∧ ¬s.Holds d := by
        refine and_congr_left fun hnot => ?_
        rw [List.mem_append, List.mem_singleton, or_iff_left]
        exact fun hd => hnot ⟨hheld, hd.symm⟩
      exact if_congr (hbegun.symm.trans (and_congr_right fun _ => not_congr hholds.symm)) rfl rfl
  | goesOn u hupdating hcurrent hdfu =>
    have hheld := current_of_updating hupdating
    have hown : ∀ call ∈ [DownloaderCall.process s.downloader], call.downloader = s.downloader := by
      simp [DownloaderCall.downloader]
    refine ⟨fun hnone => absurd (hcurrent.symm.trans hnone) hheld, h.fresh, fun _ => h.held hheld, h.begunAccepted, ?_,
      fun _ => h.updating hupdating, h.called_append hheld hown, ?_,
      h.last_append hheld hown (List.pairwise_singleton _ _)⟩
    · simp [Updater.isPending, hdfu]
    · intro d
      have hholds : Holds { s with updater := u, calls := s.calls ++ [.process s.downloader] } d ↔ s.Holds d := by
        rw [Holds, Holds, hcurrent]
      rw [List.count_append, h.deleted]
      exact if_congr (and_congr_right fun _ => not_congr hholds.symm) rfl rfl
  | finishes u hupdating hcurrent hdfu =>
    have hheld := current_of_updating hupdating
    have hown : ∀ call ∈ [DownloaderCall.process s.downloader, .delete s.downloader],
        call.downloader = s.downloader := by
      simp [DownloaderCall.downloader]
    refine ⟨fun _ => hdfu, h.fresh, fun hne => absurd hcurrent hne, h.begunAccepted, ?_, ?_,
      h.called_append hheld hown, ?_, h.last_append hheld hown ?_⟩
    · simp [Updater.isPending, hcurrent]
    · simp [Updater.isUpdating, hcurrent]
    · intro d
      have hidle : ¬Holds { s with
          updater := u, calls := s.calls ++ [.process s.downloader, .delete s.downloader] } d :=
        not_holds_of_idle hcurrent
      rw [List.count_append]
      by_cases hd : s.downloader = d
      · subst hd
        rw [h.not_mem_of_held hheld, if_pos ⟨h.updating hupdating, hidle⟩]
        simp
      · have hnot : ¬s.Holds d := fun hholds => hd hholds.2
        rw [h.deleted]
        simp [hd, hnot, hidle]
    · simp [Leaves]

/-- A request that is accepted holds a downloader that was not there before. -/
theorem owned_request (h : Owned s) (param : Option UpdaterParam) (downloader : Bool) :
    Owned (s.request param downloader).1 := by
  have hcreated : Owned (if downloader then { s with created := s.created + 1 } else s) := by
    cases downloader with
    | false => exact h
    | true => exact { h with fresh := fun d hd => Nat.lt_succ_of_lt (h.fresh d hd) }
  cases param with
  | none => exact hcreated
  | some param =>
    cases downloader with
    | false => exact h
    | true =>
      simp only [request, if_true, Updater.request]
      by_cases hupdating : s.updater.isUpdating = true
      · simp only [hupdating, if_true]
        exact hcreated
      · simp only [hupdating, Bool.false_eq_true, if_false]
        have hdfu := Updater.dfu_of_idle h.dfu (by simpa using hupdating)
        have hnew : s.created ∉ s.accepted := fun hmem => absurd (h.fresh _ hmem) (Nat.lt_irrefl _)
        have hnotBegun : s.created ∉ s.begun := fun hmem => hnew (h.begunAccepted _ hmem)
        refine ⟨?_, ?_, ?_, ?_, fun _ => hnotBegun, ?_, ?_, ?_, h.last⟩
        · simp [Updater.setRequest]
        · intro d hd
          rcases List.mem_append.1 hd with hd | hd
          · exact Nat.lt_succ_of_lt (h.fresh d hd)
          · rw [List.mem_singleton.1 hd]
            exact Nat.lt_succ_self _
        · intro _
          simp
        · exact fun d hd => List.mem_append_left _ (h.begunAccepted d hd)
        · simp [Updater.isUpdating, Updater.setRequest, hdfu]
        · exact fun call hcall => List.mem_append_left _ (h.called call hcall)
        · intro d
          rw [h.deleted]
          refine if_congr (and_congr_right fun hd => iff_of_true ?_ ?_) rfl rfl
          · rintro ⟨hcurrent, rfl⟩
            refine h.pending ?_ hd
            simp [Updater.isPending, hdfu, Option.isSome_iff_ne_none, hcurrent]
          · rintro ⟨-, rfl⟩
            exact hnotBegun hd

theorem owned_step (s : Downloads) (op : DownloadsOp) (h : Owned s) : Owned (s.step P op) := by
  cases op with
  | request param downloader => exact owned_request h param downloader
  | process call => exact owned_process P h call

theorem owned_init : Owned (init P) := by
  refine ⟨fun _ => rfl, by simp [init], fun hne => absurd rfl hne, by simp [init], by simp [init], ?_, by simp [init], ?_,
    .nil⟩
  · simp [init, Updater.init, Updater.isUpdating]
  · intro d
    simp [init]

/-- What a step does to the downloaders: its calls are on the one that is held, none that was accepted is forgotten, and one that was let go is not taken up again. -/
structure Frames (s s' : Downloads) : Prop where
  calls : ∃ calls, s'.calls = s.calls ++ calls ∧ ∀ call ∈ calls, s.Holds call.downloader
  accepted : ∀ d ∈ s.accepted, d ∈ s'.accepted
  lost : ∀ d ∈ s.accepted, ¬s.Holds d → ¬s'.Holds d

theorem frames_process (s : Downloads) (call : ProcessCall) : Frames s (s.process P call) := by
  have hprocesses := processes P s call
  generalize s.process P call = s' at hprocesses
  cases hprocesses with
  | idle => exact ⟨⟨[], (List.append_nil _).symm, by simp⟩, fun _ hd => hd, fun _ _ hnot => hnot⟩
  | notBegun u calls hpending hcurrent hdfu hcalls =>
    refine ⟨⟨calls, rfl, ?_⟩, fun _ hd => hd, fun _ _ _ => not_holds_of_idle hcurrent⟩
    have hheld := current_of_pending hpending
    rcases hcalls with rfl | rfl <;> simp [Holds, hheld, DownloaderCall.downloader]
  | begins u hpending hcurrent hdfu =>
    refine ⟨⟨_, rfl, ?_⟩, fun _ hd => hd, fun d _ hnot hholds => hnot ⟨hcurrent ▸ hholds.1, hholds.2⟩⟩
    simp [Holds, current_of_pending hpending, DownloaderCall.downloader]
  | goesOn u hupdating hcurrent hdfu =>
    refine ⟨⟨_, rfl, ?_⟩, fun _ hd => hd, fun d _ hnot hholds => hnot ⟨hcurrent ▸ hholds.1, hholds.2⟩⟩
    simp [Holds, current_of_updating hupdating, DownloaderCall.downloader]
  | finishes u hupdating hcurrent hdfu =>
    refine ⟨⟨_, rfl, ?_⟩, fun _ hd => hd, fun _ _ _ => not_holds_of_idle hcurrent⟩
    simp [Holds, current_of_updating hupdating, DownloaderCall.downloader]

theorem frames_request (h : Owned s) (param : Option UpdaterParam) (downloader : Bool) :
    Frames s (s.request param downloader).1 := by
  have hrefused : ∀ created, Frames s { s with created := created } := fun _ =>
    ⟨⟨[], (List.append_nil _).symm, by simp⟩, fun _ hd => hd, fun _ _ hnot => hnot⟩
  cases param with
  | none => cases downloader <;> exact hrefused _
  | some param =>
    cases downloader with
    | false => exact hrefused _
    | true =>
      simp only [request, if_true, Updater.request]
      by_cases hupdating : s.updater.isUpdating = true
      · simp only [hupdating, if_true]
        exact hrefused _
      · simp only [hupdating, Bool.false_eq_true, if_false]
        refine ⟨⟨[], (List.append_nil _).symm, by simp⟩, fun d hd => List.mem_append_left _ hd, ?_⟩
        rintro d hd - ⟨-, rfl⟩
        exact absurd (h.fresh _ hd) (Nat.lt_irrefl _)

theorem frames_step (h : Owned s) (op : DownloadsOp) : Frames s (s.step P op) := by
  cases op with
  | request param downloader => exact frames_request h param downloader
  | process call => exact frames_process P s call

/-- On a downloader that was let go there is no further call. -/
theorem run_calls (h : Owned s) {d : Nat} (hd : d ∈ s.accepted) (hnot : ¬s.Holds d) (ops : List DownloadsOp) :
    ∃ calls, (run (step P) s ops).calls = s.calls ++ calls ∧ ∀ call ∈ calls, call.downloader ≠ d := by
  induction ops generalizing s with
  | nil => exact ⟨[], (List.append_nil _).symm, by simp⟩
  | cons op ops ih =>
    have hframes := frames_step P h op
    obtain ⟨calls, hcalls, hheld⟩ := hframes.calls
    obtain ⟨later, hlater, hothers⟩ := ih (owned_step P s op h) (hframes.accepted d hd) (hframes.lost d hd hnot)
    refine ⟨calls ++ later, ?_, ?_⟩
    · rw [run_cons, hlater, hcalls, List.append_assoc]
    · intro call hcall
      rcases List.mem_append.1 hcall with hcall | hcall
      · rintro rfl
        exact hnot (hheld call hcall)
      · exact hothers call hcall

end Ownership

/-- Where a run leads from the beginning. -/
def after (ops : List DownloadsOp) : Downloads := run (step P) (init P) ops

/-- Whatever the order of requests and calls and whatever they come to: a downloader is deleted exactly once if its download has begun and its request is over, and never otherwise; after its deletion, and after its request has failed to start or was overwritten, there is no call on it; and there is none on a downloader whose request was refused. -/
theorem downloader_ownership (ops : List DownloadsOp) :
    (∀ d, (after P ops).calls.count (.delete d) =
      if d ∈ (after P ops).begun ∧ ¬(after P ops).Holds d then 1 else 0) ∧
    (after P ops).calls.Pairwise Leaves ∧
    (∀ d ∈ (after P ops).begun, d ∈ (after P ops).accepted) ∧
    (∀ d ∈ (after P ops).accepted, ¬(after P ops).Holds d → ∀ later, ∃ calls,
      (after P (ops ++ later)).calls = (after P ops).calls ++ calls ∧ ∀ call ∈ calls, call.downloader ≠ d) ∧
    ∀ d ∉ (after P ops).accepted, ∀ call ∈ (after P ops).calls, call.downloader ≠ d := by
  have howned : Owned (after P ops) := run_invariant (owned_step P) (owned_init P) ops
  refine ⟨howned.deleted, howned.last, howned.begunAccepted, ?_, ?_⟩
  · intro d hd hnot later
    rw [after, run_append]
    exact run_calls P howned hd hnot later
  · rintro d hd call hcall rfl
    exact hd (howned.called call hcall)

/-- A platform whose header is one byte. -/
def plainPlatform : Platform :=
  { headerSize := 1, isValidHeader := fun _ => true, capacity := updaterBufferSize, fits := Nat.le_refl _ }

/-- A request that is overwritten while it waits, one for which there is no `struct dfu`, and one whose downloader cannot be prepared. -/
def neverBegun : List DownloadsOp :=
  [.request (some ⟨1⟩) true, .request (some ⟨0⟩) true, .process { now := 0, dfuNew := false },
    .request (some ⟨0⟩) true, .process { now := 0, downloaderPrepared := false }]

/-- All three are accepted, their requests are over, and none is deleted. -/
theorem neverBegun_not_deleted :
    (after plainPlatform neverBegun).accepted = [0, 1, 2] ∧ (after plainPlatform neverBegun).updater.current = none ∧
      (after plainPlatform neverBegun).calls = [.prepare 2] := ⟨rfl, rfl, rfl⟩

end Downloads

end Evse
