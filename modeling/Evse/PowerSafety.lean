import Evse.Safety
import Evse.Lib.RingBuffer
import Evse.Lib.Run
import Mathlib.Algebra.Ring.Nat

/-!
# Watching the mains

`power_safety.c` is the safety entry of the input and of the output power. An interrupt on the falling edge of the mains pulse stores the time of the edge, a timer counts and averages the stored times once a second, and `check` judges what the two left behind. Times are the 32-bit milliseconds since boot; a ring buffer entry is one whole sample, the time of an edge.

A tick can end early in two places, and what it then leaves untouched is what `check` reads next. The history kept beside the entry says which edges were accepted and what each tick found.
-/

namespace Evse.PowerSafety

open StepRun

def debounceDurationMs : UInt32 := 8
def frequencyToleranceHz : Int := 3
def maxSamples : Nat := 60
def uptodateDueMs : UInt32 := 1000

structure SafetyEntry where
  /-- A signed 16-bit number of hertz. -/
  expectedFreq : Int
  ringbuf : RingBuffer UInt32
  lastFallingTime : UInt32
  timeUpdated : UInt32
  /-- One byte. -/
  freq : Nat
  /-- One signed byte. -/
  missingSamples : Int

def powerSafetyCreate (freq : Int) : SafetyEntry where
  expectedFreq := freq
  ringbuf := RingBuffer.create (maxSamples * 2)
  lastFallingTime := 0
  timeUpdated := 0
  freq := 0
  missingSamples := 0

section Entry

variable (self : SafetyEntry) (now : UInt32)

def countSamples : Nat := self.ringbuf.length

def isPulseActive : Bool := now - self.lastFallingTime < uptodateDueMs

def isUptodate : Bool := now - self.timeUpdated < uptodateDueMs * 2

/-- What `calc_freq` adds up and returns. -/
structure Frequencies where
  sum : Nat
  min : Nat
  max : Nat
  deriving DecidableEq, Repr

/-- The loop of `calc_freq` from its second sample on. -/
def calcFreqLoop (older : UInt32) (f : Frequencies) : List UInt32 → Frequencies
  | [] => f
  | newer :: rest =>
      let diff := (newer - older).toNat
      let freq := (if diff = 0 then 0 else 1000 / diff) % 2 ^ 8
      let f :=
        if f.sum = 0 then { f with min := freq, max := freq }
        else { f with min := min freq f.min, max := max freq f.max }
      calcFreqLoop newer { f with sum := f.sum + freq } rest

/-- The average divides by the number of samples, one more than there are periods. -/
def calcFreq (samples : List UInt32) : Frequencies × Nat :=
  match samples with
  | [] => (⟨0, 0, 0⟩, 0)
  | older :: rest =>
      let f := calcFreqLoop older ⟨0, 0, 0⟩ rest
      (f, (f.sum * 10 / samples.length + 5) / 10 % 2 ^ 8)

/-- `process_samples`, the handler of the timer. -/
def processSamples : SafetyEntry :=
  let e := if isUptodate self now then self else { self with freq := 0 }
  if !isPulseActive e now then e
  else
    let e := { e with missingSamples := ((maxSamples : Int) - countSamples e).bmod (2 ^ 8) }
    if e.missingSamples > frequencyToleranceHz then e
    else
      { e with
        freq := (calcFreq e.ringbuf.content).2
        ringbuf := e.ringbuf.consume (countSamples e)
        timeUpdated := now
        missingSamples := 0 }

/-- A full buffer gives up its oldest sample. -/
def pushSample (ringbuf : RingBuffer UInt32) (sample : UInt32) : RingBuffer UInt32 :=
  if ringbuf.length < ringbuf.capacity then ringbuf.write [sample] else (ringbuf.consume 1).write [sample]

def isDebounced : Bool := now - self.lastFallingTime < debounceDurationMs

def onGpioEvent : SafetyEntry :=
  if isDebounced self now then self
  else { self with lastFallingTime := now, ringbuf := pushSample self.ringbuf now }

/-- `safety_entry_status_t`, as far as this entry answers it. -/
inductive Status where
  | ok | stale | samplingError | abnormalFrequency
  deriving DecidableEq, Repr

def check : Status :=
  if !isUptodate self now then .stale
  else if self.missingSamples > frequencyToleranceHz then .samplingError
  else if self.freq < self.expectedFreq - frequencyToleranceHz ∨
      self.freq > self.expectedFreq + frequencyToleranceHz then .abnormalFrequency
  else .ok

end Entry

/-! ### Runs and their history -/

/-- A falling edge or a tick of the timer, at a reading of the clock. -/
inductive PowerEvent where
  | edge (time : UInt32)
  | tick (time : UInt32)
  deriving DecidableEq, Repr

def PowerEvent.time : PowerEvent → UInt32
  | edge time | tick time => time

/-- What became of an event. A tick finds no pulse, or too few samples, or averages the samples it found. -/
inductive Happening where
  | accepted (time : UInt32)
  | noPulse (time : UInt32)
  | missing (time : UInt32) (samples : List UInt32)
  | measured (time : UInt32) (samples : List UInt32) (avg : Nat)
  deriving DecidableEq, Repr

/-- A tick that found the pulse active. -/
def Happening.IsActive : Happening → Prop
  | accepted _ | noPulse _ => False
  | missing _ _ | measured _ _ _ => True

/-- Read off the entry the event meets and the one it leaves. -/
def happens (before after : SafetyEntry) : PowerEvent → List Happening
  | .edge time => if isDebounced before time then [] else [.accepted time]
  | .tick time =>
      if !isPulseActive before time then [.noPulse time]
      else if after.missingSamples > frequencyToleranceHz then [.missing time before.ringbuf.content]
      else [.measured time before.ringbuf.content after.freq]

/-- The entry, the last reading of the clock, and what happened, the latest first. -/
structure Watch where
  entry : SafetyEntry
  clock : UInt32
  history : List Happening

def Watch.create (freq : Int) : Watch := ⟨powerSafetyCreate freq, 0, []⟩

def Watch.step (s : Watch) (e : PowerEvent) : Watch :=
  let after :=
    match e with
    | .edge time => onGpioEvent s.entry time
    | .tick time => processSamples s.entry time
  ⟨after, e.time, happens s.entry after e ++ s.history⟩

/-- The clock does not run backwards, so it has not wrapped either. -/
def InOrder (s : Watch) (e : PowerEvent) : Prop := s.clock ≤ e.time

instance (s : Watch) (e : PowerEvent) : Decidable (InOrder s e) := inferInstanceAs (Decidable (s.clock ≤ e.time))

/-- The accepted edges, the latest first. -/
def edges : List Happening → List UInt32
  | [] => []
  | .accepted time :: history => time :: edges history
  | _ :: history => edges history

/-- The edges accepted since the last tick that measured, the earliest first. -/
def edgesSinceMeasured : List Happening → List UInt32
  | [] => []
  | .accepted time :: history => edgesSinceMeasured history ++ [time]
  | .measured _ _ _ :: _ => []
  | _ :: history => edgesSinceMeasured history

/-- The last tick that found the pulse active averaged at least 57 of the edges accepted since the tick before it that did, and the average is near the expected frequency. -/
def MeasuredLast (history : List Happening) (expected : Int) : Prop :=
  ∃ later time samples avg earlier,
    history = later ++ .measured time samples avg :: earlier ∧ (∀ h ∈ later, ¬ h.IsActive) ∧
      57 ≤ samples.length ∧ samples <:+ edgesSinceMeasured earlier ∧ avg = (calcFreq samples).2 ∧
      expected - 3 ≤ avg ∧ avg ≤ expected + 3

/-- An edge was accepted within the last three seconds. -/
def RecentEdge (history : List Happening) (now : UInt32) : Prop :=
  ∃ time ∈ edges history, now.toNat < time.toNat + 3000

/-- Accepted edges keep the debounce distance. -/
def Spaced (history : List Happening) : Prop :=
  (edges history).IsChain fun later earlier => earlier.toNat + 8 ≤ later.toNat

/-! ### The clock -/

theorem elapsed_lt_iff {now then' due : UInt32} (h : then' ≤ now) :
    now - then' < due ↔ now.toNat < then'.toNat + due.toNat := by
  have hle := UInt32.le_iff_toNat_le.1 h
  rw [UInt32.lt_iff_toNat_lt, UInt32.toNat_sub_of_le _ _ h]
  omega

/-! ### What an event does -/

section Events

variable (e : SafetyEntry) (now : UInt32)

theorem forget_eq :
    (if isUptodate e now then e else { e with freq := 0 }) =
      { e with freq := if isUptodate e now then e.freq else 0 } := by
  split <;> rfl

/-- A tick that finds no pulse only forgets a frequency that is out of date. -/
theorem processSamples_of_no_pulse (h : isPulseActive e now = false) :
    processSamples e now = { e with freq := if isUptodate e now then e.freq else 0 } := by
  have hpulse : ∀ freq, isPulseActive { e with freq := freq } now = false := fun _ => h
  simp only [processSamples, forget_eq, hpulse, Bool.not_false, if_true]

/-- As many samples as the buffer holds do not wrap the signed byte. -/
theorem missing_eq (hfits : countSamples e ≤ 120) :
    ((maxSamples : Int) - countSamples e).bmod (2 ^ 8) = 60 - countSamples e := by
  have hmax : (maxSamples : Int) = 60 := rfl
  rw [hmax]
  refine Int.bmod_eq_of_le ?_ ?_ <;> omega

/-- A tick that finds the pulse but fewer than 57 samples says how many are missing. -/
theorem processSamples_of_missing (h : isPulseActive e now = true) (hfew : countSamples e < 57) :
    processSamples e now =
      { e with
        freq := if isUptodate e now then e.freq else 0
        missingSamples := 60 - countSamples e } := by
  have hpulse : ∀ freq, isPulseActive { e with freq := freq } now = true := fun _ => h
  have hcount : ∀ freq, countSamples { e with freq := freq } = countSamples e := fun _ => rfl
  have hover : (60 : Int) - countSamples e > frequencyToleranceHz := by
    rw [frequencyToleranceHz]
    omega
  simp only [processSamples, forget_eq, hpulse, hcount, missing_eq e (by omega), Bool.not_true, if_pos hover]
  rfl

/-- Otherwise it averages the samples and empties the buffer. -/
theorem processSamples_of_measured (h : isPulseActive e now = true) (hfits : countSamples e ≤ 120)
    (hmany : 57 ≤ countSamples e) :
    processSamples e now =
      { e with
        freq := (calcFreq e.ringbuf.content).2
        ringbuf := e.ringbuf.consume (countSamples e)
        timeUpdated := now
        missingSamples := 0 } := by
  have hpulse : ∀ freq, isPulseActive { e with freq := freq } now = true := fun _ => h
  have hcount : ∀ freq, countSamples { e with freq := freq } = countSamples e := fun _ => rfl
  have hwithin : ¬ (60 : Int) - countSamples e > frequencyToleranceHz := by
    rw [frequencyToleranceHz]
    omega
  simp only [processSamples, forget_eq, hpulse, hcount, missing_eq e hfits, Bool.not_true, if_neg hwithin]
  rfl

end Events

/-- The newest sample is at the end; the oldest is lost when the buffer is full. -/
theorem pushSample_content (ringbuf : RingBuffer UInt32) (hcapacity : 0 < ringbuf.capacity) (sample : UInt32) :
    (pushSample ringbuf sample).content <:+ ringbuf.content ++ [sample] := by
  have hfits := ringbuf.fits
  unfold pushSample
  split
  next hroom =>
    have hlength : ringbuf.content.length + [sample].length ≤ ringbuf.capacity := hroom
    exact ⟨[], ringbuf.write_content hlength⟩
  next hfull =>
    have hlength : ¬ ringbuf.content.length < ringbuf.capacity := hfull
    have hroom : (ringbuf.consume 1).content.length + [sample].length ≤ (ringbuf.consume 1).capacity := by
      have hcap : (ringbuf.consume 1).capacity = ringbuf.capacity := rfl
      rw [RingBuffer.consume_content, List.length_drop, List.length_singleton, hcap]
      omega
    rw [RingBuffer.write_content _ hroom, RingBuffer.consume_content]
    exact List.suffix_append_self_iff.2 (List.drop_suffix 1 ringbuf.content)

@[simp] theorem pushSample_capacity (ringbuf : RingBuffer UInt32) (sample : UInt32) :
    (pushSample ringbuf sample).capacity = ringbuf.capacity := by
  unfold pushSample
  split <;> rfl

/-! ### The invariant -/

/-- What the frequency in the entry rests on. -/
def Founded (s : Watch) : Prop :=
  ∃ later time samples earlier,
    s.history = later ++ .measured time samples s.entry.freq :: earlier ∧ (∀ h ∈ later, ¬ h.IsActive) ∧
      57 ≤ samples.length ∧ samples <:+ edgesSinceMeasured earlier ∧ s.entry.freq = (calcFreq samples).2 ∧
      s.entry.timeUpdated = time ∧ ∃ edge ∈ edges earlier, time.toNat < edge.toNat + 1000

structure Kept (s : Watch) : Prop where
  falling : s.entry.lastFallingTime ≤ s.clock
  updated : s.entry.timeUpdated ≤ s.clock
  capacity : s.entry.ringbuf.capacity = 120
  content : s.entry.ringbuf.content <:+ edgesSinceMeasured s.history
  /-- The last accepted edge is the one the entry remembers. -/
  lastEdge : edges s.history = [] ∨ ∃ rest, edges s.history = s.entry.lastFallingTime :: rest
  spaced : Spaced s.history
  /-- A frequency that passes `check` was measured by the last tick that found the pulse. -/
  founded : s.entry.freq = 0 ∨ s.entry.missingSamples > 3 ∨ Founded s

theorem kept_create (freq : Int) : Kept (Watch.create freq) where
  falling := UInt32.le_refl 0
  updated := UInt32.le_refl 0
  capacity := rfl
  content := List.nil_suffix
  lastEdge := .inl rfl
  spaced := List.IsChain.nil
  founded := .inl rfl

theorem edges_append (later earlier : List Happening) : edges (later ++ earlier) = edges later ++ edges earlier := by
  induction later with
  | nil => rfl
  | cons x later ih =>
      cases x with
      | accepted time => exact congrArg (time :: ·) ih
      | noPulse time => exact ih
      | missing time samples => exact ih
      | measured time samples avg => exact ih

theorem edges_of_sinceMeasured {history : List Happening} (h : edgesSinceMeasured history ≠ []) :
    edges history ≠ [] := by
  induction history with
  | nil => exact h
  | cons x history ih =>
      cases x with
      | accepted time => exact List.cons_ne_nil _ _
      | noPulse time => exact ih h
      | missing time samples => exact ih h
      | measured time samples avg => exact absurd rfl h

/-- An event that is not an active tick leaves the frequency as well founded as it was. -/
theorem Founded.later {s s' : Watch} (h : Founded s) {x : Happening} (hx : ¬ x.IsActive)
    (hhistory : s'.history = x :: s.history) (hfreq : s'.entry.freq = s.entry.freq)
    (htime : s'.entry.timeUpdated = s.entry.timeUpdated) : Founded s' := by
  obtain ⟨later, time, samples, earlier, heq, hlater, hrest⟩ := h
  refine ⟨x :: later, time, samples, earlier, ?_, ?_, ?_⟩
  · rw [hhistory, heq, hfreq, List.cons_append]
  · intro y hy
    cases List.mem_cons.1 hy with
    | inl hyx => exact hyx ▸ hx
    | inr hmem => exact hlater y hmem
  · rw [hfreq, htime]
    exact hrest

section Steps

variable {s : Watch} {now : UInt32}

theorem kept_edge (h : Kept s) (horder : s.clock ≤ now) : Kept (s.step (.edge now)) := by
  have hlast : s.entry.lastFallingTime ≤ now := UInt32.le_trans h.falling horder
  by_cases hdebounced : isDebounced s.entry now = true
  · -- The edge is dropped; only the clock has moved on.
    have hstep : s.step (.edge now) = { s with clock := now } := by
      simp only [Watch.step, onGpioEvent, happens, hdebounced, if_true, List.nil_append, PowerEvent.time]
    rw [hstep]
    exact { h with falling := hlast, updated := UInt32.le_trans h.updated horder, founded := h.founded }
  · have hstep : s.step (.edge now) =
        ⟨{ s.entry with lastFallingTime := now, ringbuf := pushSample s.entry.ringbuf now }, now,
          .accepted now :: s.history⟩ := by
      simp only [Watch.step, onGpioEvent, happens, hdebounced, if_false, PowerEvent.time, List.singleton_append,
        Bool.false_eq_true]
    have hspaced : s.entry.lastFallingTime.toNat + 8 ≤ now.toNat := by
      simp only [isDebounced, decide_eq_true_eq, elapsed_lt_iff hlast] at hdebounced
      have hdue : debounceDurationMs.toNat = 8 := rfl
      omega
    rw [hstep]
    constructor
    · exact UInt32.le_refl now
    · exact UInt32.le_trans h.updated horder
    · exact (pushSample_capacity _ _).trans h.capacity
    · have hpush := pushSample_content s.entry.ringbuf (by rw [h.capacity]; decide) now
      exact hpush.trans (List.suffix_append_self_iff.2 h.content)
    · exact .inr ⟨_, rfl⟩
    · cases h.lastEdge with
      | inl hnone =>
          simp only [Spaced, edges, hnone]
          exact List.IsChain.singleton now
      | inr hsome =>
          obtain ⟨rest, hrest⟩ := hsome
          have hchain := h.spaced
          simp only [Spaced, edges, hrest] at hchain ⊢
          exact List.IsChain.cons_cons hspaced hchain
    · obtain hzero | hmissing | hfounded := h.founded
      · exact .inl hzero
      · exact .inr (.inl hmissing)
      · exact .inr (.inr (hfounded.later (x := .accepted now) not_false rfl rfl rfl))

/-- Samples come from edges, so the last edge is the one the entry remembers; the tick finds it recent. -/
theorem Kept.recent (h : Kept s) (hlast : s.entry.lastFallingTime ≤ now) (hpulse : isPulseActive s.entry now = true)
    (hmany : 57 ≤ countSamples s.entry) : ∃ edge ∈ edges s.history, now.toNat < edge.toNat + 1000 := by
  have hsamples : s.entry.ringbuf.content ≠ [] := by
    intro hnil
    simp only [countSamples, RingBuffer.length, hnil, List.length_nil] at hmany
    omega
  have hedges : edges s.history ≠ [] := by
    apply edges_of_sinceMeasured
    intro hnil
    exact hsamples (List.suffix_nil.1 (hnil ▸ h.content))
  obtain ⟨rest, hrest⟩ := h.lastEdge.resolve_left hedges
  have hdue : uptodateDueMs.toNat = 1000 := rfl
  refine ⟨s.entry.lastFallingTime, ?_, ?_⟩
  · rw [hrest]
    exact List.mem_cons_self
  · simpa only [isPulseActive, decide_eq_true_eq, elapsed_lt_iff hlast, hdue] using hpulse

theorem kept_tick_noPulse (h : Kept s) (horder : s.clock ≤ now) (hpulse : isPulseActive s.entry now = false) :
    Kept (s.step (.tick now)) := by
  have hstep : s.step (.tick now) =
      ⟨{ s.entry with freq := if isUptodate s.entry now then s.entry.freq else 0 }, now,
        .noPulse now :: s.history⟩ := by
    simp only [Watch.step, processSamples_of_no_pulse _ _ hpulse, happens, hpulse, PowerEvent.time,
      Bool.not_false, if_true, List.singleton_append]
  rw [hstep]
  refine ⟨UInt32.le_trans h.falling horder, UInt32.le_trans h.updated horder, h.capacity, h.content, h.lastEdge,
    h.spaced, ?_⟩
  cases isUptodate s.entry now with
  | false => exact .inl rfl
  | true =>
      obtain hzero | hmissing | hfounded := h.founded
      · exact .inl hzero
      · exact .inr (.inl hmissing)
      · exact .inr (.inr (hfounded.later (x := .noPulse now) not_false rfl rfl rfl))

theorem kept_tick_missing (h : Kept s) (horder : s.clock ≤ now) (hpulse : isPulseActive s.entry now = true)
    (hfew : countSamples s.entry < 57) : Kept (s.step (.tick now)) := by
  have hover : (60 : Int) - countSamples s.entry > frequencyToleranceHz := by
    rw [frequencyToleranceHz]
    omega
  have hstep : s.step (.tick now) =
      ⟨{ s.entry with
          freq := if isUptodate s.entry now then s.entry.freq else 0
          missingSamples := 60 - countSamples s.entry }, now,
        .missing now s.entry.ringbuf.content :: s.history⟩ := by
    simp only [Watch.step, processSamples_of_missing _ _ hpulse hfew, happens, hpulse, PowerEvent.time,
      Bool.not_true, if_pos hover, Bool.false_eq_true, if_false, List.singleton_append]
  rw [hstep]
  exact ⟨UInt32.le_trans h.falling horder, UInt32.le_trans h.updated horder, h.capacity, h.content, h.lastEdge,
    h.spaced, .inr (.inl hover)⟩

theorem kept_tick_measured (h : Kept s) (horder : s.clock ≤ now) (hpulse : isPulseActive s.entry now = true)
    (hmany : 57 ≤ countSamples s.entry) : Kept (s.step (.tick now)) := by
  have hlast : s.entry.lastFallingTime ≤ now := UInt32.le_trans h.falling horder
  have hfits : countSamples s.entry ≤ 120 := h.capacity ▸ s.entry.ringbuf.fits
  have hwithin : ¬ (0 : Int) > frequencyToleranceHz := by decide
  have hstep : s.step (.tick now) =
      ⟨{ s.entry with
          freq := (calcFreq s.entry.ringbuf.content).2
          ringbuf := s.entry.ringbuf.consume (countSamples s.entry)
          timeUpdated := now
          missingSamples := 0 }, now,
        .measured now s.entry.ringbuf.content (calcFreq s.entry.ringbuf.content).2 :: s.history⟩ := by
    simp only [Watch.step, processSamples_of_measured _ _ hpulse hfits hmany, happens, hpulse,
      PowerEvent.time, Bool.not_true, if_neg hwithin, Bool.false_eq_true, if_false, List.singleton_append]
  have hrecent := h.recent hlast hpulse hmany
  rw [hstep]
  refine ⟨hlast, UInt32.le_refl now, h.capacity, ?_, h.lastEdge, h.spaced, .inr (.inr ?_)⟩
  · show s.entry.ringbuf.content.drop s.entry.ringbuf.content.length <:+ _
    rw [List.drop_length]
    exact List.nil_suffix
  · exact ⟨[], now, s.entry.ringbuf.content, s.history, rfl, fun _ hmem => absurd hmem List.not_mem_nil,
      hmany, h.content, rfl, rfl, hrecent⟩

theorem kept_tick (h : Kept s) (horder : s.clock ≤ now) : Kept (s.step (.tick now)) := by
  cases hpulse : isPulseActive s.entry now with
  | false => exact kept_tick_noPulse h horder hpulse
  | true =>
      by_cases hfew : countSamples s.entry < 57
      · exact kept_tick_missing h horder hpulse hfew
      · exact kept_tick_measured h horder hpulse (Nat.le_of_not_lt hfew)

theorem kept_step (h : Kept s) (e : PowerEvent) (horder : InOrder s e) : Kept (s.step e) := by
  cases e with
  | edge time => exact kept_edge h horder
  | tick time => exact kept_tick h horder

@[simp] theorem expectedFreq_step (s : Watch) (e : PowerEvent) :
    (s.step e).entry.expectedFreq = s.entry.expectedFreq := by
  cases e with
  | edge time =>
      simp only [Watch.step, onGpioEvent]
      split <;> rfl
  | tick time =>
      simp only [Watch.step, processSamples, forget_eq]
      split_ifs <;> rfl

/-- What an OK rests on. -/
theorem Kept.ok (h : Kept s) (horder : s.clock ≤ now) (hexpected : 3 < s.entry.expectedFreq)
    (hok : check s.entry now = .ok) : RecentEdge s.history now ∧ MeasuredLast s.history s.entry.expectedFreq := by
  have htolerance : frequencyToleranceHz = 3 := rfl
  unfold check at hok
  split_ifs at hok with hstale hmissing hfreq
  rw [htolerance] at hmissing hfreq
  obtain hzero | hover | hfounded := h.founded
  · omega
  · omega
  · obtain ⟨later, time, samples, earlier, hhistory, hlater, hmany, hsuffix, havg, htime, edge, hedge, hrecent⟩ :=
      hfounded
    have hfresh : now.toNat < s.entry.timeUpdated.toNat + 2000 := by
      have hdue : (uptodateDueMs * 2).toNat = 2000 := rfl
      have hupdated : s.entry.timeUpdated ≤ now := UInt32.le_trans h.updated horder
      simpa only [isUptodate, Bool.not_eq_true', decide_eq_false_iff_not, not_not, elapsed_lt_iff hupdated, hdue]
        using hstale
    constructor
    · refine ⟨edge, ?_, ?_⟩
      · rw [hhistory, edges_append]
        exact List.mem_append_right _ hedge
      · rw [htime] at hfresh
        omega
    · exact ⟨later, time, samples, s.entry.freq, earlier, hhistory, hlater, hmany, hsuffix, havg, by omega, by omega⟩

end Steps

/-- Whatever the order of edges and ticks on a clock that does not run back: an OK means a recent edge and enough samples averaging near the expected frequency, and accepted edges keep their distance. -/
theorem ok_means_fresh {freq : Int} (hfreq : 3 < freq) {evs : List PowerEvent}
    (horder : EveryStep Watch.step InOrder (Watch.create freq) evs) :
    (∀ now, (run Watch.step (Watch.create freq) evs).clock ≤ now →
      check (run Watch.step (Watch.create freq) evs).entry now = .ok →
        RecentEdge (run Watch.step (Watch.create freq) evs).history now ∧
          MeasuredLast (run Watch.step (Watch.create freq) evs).history freq) ∧
      Spaced (run Watch.step (Watch.create freq) evs).history := by
  have hkept : Kept (run Watch.step (Watch.create freq) evs) :=
    run_conditional_invariant (I := Kept) (fun s e h => kept_step h e) (kept_create freq) horder
  have hexpected : (run Watch.step (Watch.create freq) evs).entry.expectedFreq = freq :=
    run_invariant (I := fun s => s.entry.expectedFreq = freq) (fun s e h => (expectedFreq_step s e).trans h) rfl evs
  refine ⟨?_, hkept.spaced⟩
  intro now hnow hok
  have hcause := hkept.ok hnow (by rw [hexpected]; exact hfreq) hok
  rwa [hexpected] at hcause

/-- Sixty edges of a 60 Hz mains and a tick. -/
def firstSecond : List PowerEvent :=
  (List.range 60).map (fun i => .edge (100 + 16 * UInt32.ofNat i)) ++ [.tick 1050]

theorem ok_after_first_second :
    check (run Watch.step (Watch.create 60) firstSecond).entry 2000 = .ok ∧
      RecentEdge (run Watch.step (Watch.create 60) firstSecond).history 2000 := by
  have hok : check (run Watch.step (Watch.create 60) firstSecond).entry 2000 = .ok := by decide +kernel
  exact ⟨hok, ((ok_means_fresh (by decide) (by decide +kernel)).1 2000 (by decide +kernel) hok).1⟩

end Evse.PowerSafety
