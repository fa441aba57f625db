import Evse.Iec61851
import Evse.Lib.Run

/-!
# The pilot's status

`pilot.c` samples the control pilot on a timer, reduces the samples to a waveform and classifies its high and low voltage. There are two sets of thresholds: the downward one is tried first, and only when it gives more than the previous status the upward one decides. A measurement that fails and a timeout that finds the previous one still at work change nothing.

The comparison of statuses is one of their codes, volts for the known ones and 255 for the unknown one, so the cases of E, F and unknown come out of the same inequality.
-/

namespace Evse.ControlPilot

open StepRun

/-- The value of the enumeration `pilot_status_t`. -/
def code : PilotStatus → Int
  | .a => 12
  | .b => 9
  | .c => 6
  | .d => 3
  | .e => 0
  | .f => -12
  | .unknown => 0xff

/-- `pilot_boundary`, in millivolts. -/
structure PilotBoundary where
  a : Nat
  b : Nat
  c : Nat
  d : Nat
  e : Nat

structure PilotBoundaries where
  upward : PilotBoundary
  downward : PilotBoundary

/-- The numbers of `waveform`: samples above and below the cutoff, outliers among them, extremes and sums. -/
structure Waveform where
  highs : Nat := 0
  lows : Nat := 0
  highsOutliers : Nat := 0
  lowsOutliers : Nat := 0
  highsMax : Nat := 0
  lowsMin : Nat := 0
  highsSum : Nat := 0
  lowsSum : Nat := 0

structure Pilot where
  boundary : PilotBoundaries
  status : PilotStatus
  running : Bool
  /-- What `pilot_millivolt` and `pilot_duty` read. -/
  cached : Option Waveform
  /-- Whether a status callback is registered. -/
  cb : Bool
  /-- The statuses the callback was called with, in order. -/
  called : List PilotStatus

def pilotCreate (boundary : PilotBoundaries) : Pilot :=
  { boundary := boundary, status := .unknown, running := false, cached := none, cb := false, called := [] }

def pilotSetStatusCb (p : Pilot) : Pilot := { p with cb := true }

def evaluateStatus (measured : Waveform) (lim : PilotBoundary) : PilotStatus :=
  let status :=
    if measured.highsMax > lim.a then .a
    else if measured.highsMax > lim.b then .b
    else if measured.highsMax > lim.c then .c
    else if measured.highsMax > lim.d then .d
    else .f
  if measured.lowsMin > lim.e then .e else status

def updateStatus (p : Pilot) (status : PilotStatus) : Pilot :=
  if p.status ≠ status then
    { p with status := status, called := if p.cb then p.called ++ [status] else p.called }
  else p

def updateCache (p : Pilot) (measured : Waveform) : Pilot := { p with cached := some measured }

/-- The status `on_timeout` decides on. -/
def newStatus (b : PilotBoundaries) (prevStatus : PilotStatus) (w : Waveform) : PilotStatus :=
  if code (evaluateStatus w b.downward) > code prevStatus then evaluateStatus w b.upward
  else evaluateStatus w b.downward

/-- The argument is what `measure` leaves, `none` when the converter could not be read. -/
def onTimeout (p : Pilot) (measured : Option Waveform) : Pilot :=
  if p.running then p
  else
    match measured with
    | none => { p with running := false }
    | some w =>
        let p := { p with running := true }
        let status := newStatus p.boundary p.status w
        { updateStatus (updateCache p w) status with running := false }

/-- `pilot_default_params`. -/
def defaultBoundaries : PilotBoundaries where
  upward := { a := 3038, b := 2718, c := 2397, d := 2076, e := 767 }
  downward := { a := 2985, b := 2644, c := 2344, d := 2022, e := 767 }

/-! ### Levels and bands -/

/-- The statuses that the high voltage alone decides. -/
inductive Level where
  | a | b | c | d
  deriving DecidableEq, Repr

namespace Level

def status : Level → PilotStatus
  | a => .a
  | b => .b
  | c => .c
  | d => .d

def threshold : Level → PilotBoundary → Nat
  | a, lim => lim.a
  | b, lim => lim.b
  | c, lim => lim.c
  | d, lim => lim.d

end Level

/-- The bands between the downward and the upward threshold of a level lie apart, in the order of the levels. -/
structure PilotBoundaries.Ordered (b : PilotBoundaries) : Prop where
  band : ∀ x : Level, x.threshold b.downward ≤ x.threshold b.upward
  ab : b.upward.b < b.downward.a
  bc : b.upward.c < b.downward.b
  cd : b.upward.d < b.downward.c
  sameE : b.upward.e = b.downward.e

/-- The low voltage shows no diode fault. -/
def Waveform.Sound (w : Waveform) (b : PilotBoundaries) : Prop := w.lowsMin ≤ b.downward.e

/-- The high voltage is above the downward threshold of the level and not above its upward one. -/
structure Waveform.InBand (w : Waveform) (b : PilotBoundaries) (x : Level) : Prop where
  sound : w.Sound b
  above : x.threshold b.downward < w.highsMax
  notAbove : w.highsMax ≤ x.threshold b.upward

/-- The step gives the pilot another status. -/
def changed (p : Pilot) (measured : Option Waveform) : Bool := (onTimeout p measured).status ≠ p.status

variable {b : PilotBoundaries} {w w' : Waveform}

/-! ### One evaluation -/

theorem code_injective {s s' : PilotStatus} (h : code s = code s') : s = s' := by
  cases s <;> cases s' <;> first | rfl | exact absurd h (by decide)

theorem PilotBoundaries.Ordered.downward_sorted (h : b.Ordered) :
    b.downward.b < b.downward.a ∧ b.downward.c < b.downward.b ∧ b.downward.d < b.downward.c := by
  have hb := h.band .b
  have hc := h.band .c
  have hd := h.band .d
  have hab := h.ab
  have hbc := h.bc
  have hcd := h.cd
  simp only [Level.threshold] at hb hc hd
  omega

theorem PilotBoundaries.Ordered.upward_sorted (h : b.Ordered) :
    b.upward.b < b.upward.a ∧ b.upward.c < b.upward.b ∧ b.upward.d < b.upward.c := by
  have ha := h.band .a
  have hb := h.band .b
  have hc := h.band .c
  have hab := h.ab
  have hbc := h.bc
  have hcd := h.cd
  simp only [Level.threshold] at ha hb hc
  omega

/-- With decreasing thresholds, a level is reached exactly when its own threshold is exceeded. -/
theorem le_evaluateStatus_iff {lim : PilotBoundary} (hsorted : lim.b < lim.a ∧ lim.c < lim.b ∧ lim.d < lim.c)
    (hlow : w.lowsMin ≤ lim.e) (x : Level) :
    code x.status ≤ code (evaluateStatus w lim) ↔ x.threshold lim < w.highsMax := by
  have hnot : ¬ w.lowsMin > lim.e := Nat.not_lt.2 hlow
  simp only [evaluateStatus, if_neg hnot]
  cases x <;> simp only [Level.status, Level.threshold] <;> split_ifs <;> simp [code] <;> omega

theorem le_downward_iff (h : b.Ordered) (hw : w.Sound b) (x : Level) :
    code x.status ≤ code (evaluateStatus w b.downward) ↔ x.threshold b.downward < w.highsMax :=
  le_evaluateStatus_iff h.downward_sorted hw x

theorem le_upward_iff (h : b.Ordered) (hw : w.Sound b) (x : Level) :
    code x.status ≤ code (evaluateStatus w b.upward) ↔ x.threshold b.upward < w.highsMax :=
  le_evaluateStatus_iff h.upward_sorted (h.sameE ▸ hw) x

theorem evaluateStatus_of_diode_fault {lim : PilotBoundary} (hlow : lim.e < w.lowsMin) :
    evaluateStatus w lim = .e := by
  simp only [evaluateStatus, if_pos hlow]

/-- Without a diode fault an evaluation gives a level or F. -/
theorem evaluateStatus_cases (lim : PilotBoundary) (hlow : w.lowsMin ≤ lim.e) :
    (∃ x : Level, evaluateStatus w lim = x.status) ∨ evaluateStatus w lim = .f := by
  have hnot : ¬ w.lowsMin > lim.e := Nat.not_lt.2 hlow
  simp only [evaluateStatus, if_neg hnot]
  split_ifs
  · exact .inl ⟨.a, rfl⟩
  · exact .inl ⟨.b, rfl⟩
  · exact .inl ⟨.c, rfl⟩
  · exact .inl ⟨.d, rfl⟩
  · exact .inr rfl

theorem code_f_le (s : PilotStatus) : code .f ≤ code s := by
  cases s <;> decide

/-- The upward thresholds never give more than the downward ones. -/
theorem upward_le_downward (h : b.Ordered) (w : Waveform) :
    code (evaluateStatus w b.upward) ≤ code (evaluateStatus w b.downward) := by
  by_cases hlow : w.lowsMin ≤ b.downward.e
  · obtain ⟨x, hx⟩ | hf := evaluateStatus_cases b.upward (h.sameE ▸ hlow)
    · have habove := (le_upward_iff h hlow x).1 (hx ▸ Int.le_refl _)
      rw [hx, le_downward_iff h hlow x]
      exact Nat.lt_of_le_of_lt (h.band x) habove
    · rw [hf]
      exact code_f_le _
  · have hfault : b.downward.e < w.lowsMin := Nat.lt_of_not_le hlow
    have hupward : evaluateStatus w b.upward = .e := evaluateStatus_of_diode_fault (h.sameE.symm ▸ hfault)
    have hdownward : evaluateStatus w b.downward = .e := evaluateStatus_of_diode_fault hfault
    exact Int.le_of_eq (congrArg code (hupward.trans hdownward.symm))

/-- A level lies wholly above the bands of the lower levels. -/
theorem threshold_lt_of_lt (h : b.Ordered) {x y : Level} (hxy : code x.status < code y.status) :
    x.threshold b.upward < y.threshold b.downward := by
  have hb := h.band .b
  have hc := h.band .c
  have hab := h.ab
  have hbc := h.bc
  have hcd := h.cd
  cases x <;> cases y <;> simp [Level.status, code, Level.threshold] at hxy hb hc ⊢ <;> omega

/-! ### One decision -/

theorem newStatus_rises (h : b.Ordered) (hw : w.Sound b) {prev : PilotStatus} {x : Level}
    (hprev : code prev < code x.status) (hnew : code x.status ≤ code (newStatus b prev w)) :
    x.threshold b.upward < w.highsMax := by
  unfold newStatus at hnew
  split at hnew
  · exact (le_upward_iff h hw x).1 hnew
  · omega

theorem newStatus_falls (h : b.Ordered) (hw : w.Sound b) {prev : PilotStatus} {x : Level}
    (hprev : code x.status ≤ code prev) (hnew : code (newStatus b prev w) < code x.status) :
    w.highsMax ≤ x.threshold b.downward := by
  unfold newStatus at hnew
  split at hnew
  next hrise =>
    -- The downward thresholds give a level above `x`, whose band lies above that of `x`.
    exfalso
    have hx : 3 ≤ code x.status := by cases x <;> decide
    obtain ⟨y, hy⟩ | hf := evaluateStatus_cases b.downward hw
    · have habove := (le_downward_iff h hw y).1 (hy ▸ Int.le_refl _)
      have hapart := threshold_lt_of_lt h (x := x) (y := y) (by rw [← hy]; omega)
      have hreached := (le_upward_iff h hw x).2 (Nat.lt_trans hapart habove)
      omega
    · have hle := code_f_le prev
      rw [hf] at hrise
      omega
  next =>
    have hnot := mt (le_downward_iff h hw x).2 (by omega)
    exact Nat.le_of_not_lt hnot

/-- Two waveforms that both sets of thresholds classify alike. -/
def SameReading (b : PilotBoundaries) (w w' : Waveform) : Prop :=
  evaluateStatus w b.downward = evaluateStatus w' b.downward ∧
    evaluateStatus w b.upward = evaluateStatus w' b.upward

theorem newStatus_congr (hsame : SameReading b w w') (prev : PilotStatus) :
    newStatus b prev w = newStatus b prev w' := by
  unfold newStatus
  rw [hsame.1, hsame.2]

theorem newStatus_settled (h : b.Ordered) (prev : PilotStatus) :
    newStatus b (newStatus b prev w) w = newStatus b prev w := by
  by_cases hrise : code (evaluateStatus w b.downward) > code prev
  · have hnew : newStatus b prev w = evaluateStatus w b.upward := if_pos hrise
    rw [hnew]
    unfold newStatus
    split
    · rfl
    · have hle := upward_le_downward h w
      exact code_injective (by omega)
  · have hnew : newStatus b prev w = evaluateStatus w b.downward := if_neg hrise
    rw [hnew]
    exact if_neg (Int.lt_irrefl _)

/-- Waveforms on the same side of every threshold are classified alike. -/
theorem evaluateStatus_congr {lim : PilotBoundary} (hw : w.lowsMin ≤ lim.e) (hw' : w'.lowsMin ≤ lim.e)
    (hside : ∀ y : Level, y.threshold lim < w.highsMax ↔ y.threshold lim < w'.highsMax) :
    evaluateStatus w lim = evaluateStatus w' lim := by
  have ha := hside .a
  have hb := hside .b
  have hc := hside .c
  have hd := hside .d
  simp only [Level.threshold] at ha hb hc hd
  simp only [evaluateStatus, gt_iff_lt, if_neg (Nat.not_lt.2 hw), if_neg (Nat.not_lt.2 hw'), ha, hb, hc, hd]

/-- Inside a band the downward thresholds give its level and the upward ones less. -/
theorem Waveform.InBand.sides (h : b.Ordered) {x : Level} (hw : w.InBand b x) (y : Level) :
    (y.threshold b.downward < w.highsMax ↔ code y.status ≤ code x.status) ∧
      (y.threshold b.upward < w.highsMax ↔ code y.status < code x.status) := by
  have habove := hw.above
  have hnotAbove := hw.notAbove
  have hy := h.band y
  obtain hlt | heq | hgt := Int.lt_trichotomy (code y.status) (code x.status)
  · have hapart := threshold_lt_of_lt h hlt
    omega
  · have hyx : y = x := by
      cases y <;> cases x <;> first | rfl | exact absurd heq (by decide)
    subst hyx
    omega
  · have hapart := threshold_lt_of_lt h hgt
    omega

theorem Waveform.InBand.sameReading (h : b.Ordered) {x : Level} (hw : w.InBand b x) (hw' : w'.InBand b x) :
    SameReading b w w' := by
  constructor
  · exact evaluateStatus_congr hw.sound hw'.sound fun y => (hw.sides h y).1.trans (hw'.sides h y).1.symm
  · exact evaluateStatus_congr (h.sameE ▸ hw.sound) (h.sameE ▸ hw'.sound) fun y =>
      (hw.sides h y).2.trans (hw'.sides h y).2.symm

/-! ### One timeout -/

variable {p : Pilot}

@[simp] theorem onTimeout_boundary (p : Pilot) (m : Option Waveform) : (onTimeout p m).boundary = p.boundary := by
  unfold onTimeout updateStatus updateCache
  split
  · rfl
  · cases m with
    | none => rfl
    | some w => dsimp only; split <;> rfl

@[simp] theorem onTimeout_cb (p : Pilot) (m : Option Waveform) : (onTimeout p m).cb = p.cb := by
  unfold onTimeout updateStatus updateCache
  split
  · rfl
  · cases m with
    | none => rfl
    | some w => dsimp only; split <;> rfl

theorem onTimeout_status_some (p : Pilot) (w : Waveform) :
    (onTimeout p (some w)).status = if p.running then p.status else newStatus p.boundary p.status w := by
  unfold onTimeout updateStatus updateCache
  split
  · rfl
  · dsimp only
    split
    · rfl
    · next hsame => exact not_not.1 hsame

/-- The callback runs once when the status changes, with the new status, and not otherwise. -/
theorem onTimeout_called (p : Pilot) (m : Option Waveform) :
    (onTimeout p m).called =
      p.called ++ if changed p m = true ∧ p.cb = true then [(onTimeout p m).status] else [] := by
  simp only [changed, decide_eq_true_eq, onTimeout]
  split
  · simp
  · cases m with
    | none => simp
    | some w =>
        by_cases hsame : p.status = newStatus p.boundary p.status w
        · simp only [updateStatus, updateCache, ← hsame]
          simp
        · have hsame' : newStatus p.boundary p.status w ≠ p.status := fun heq => hsame heq.symm
          cases p.cb <;> simp [updateStatus, updateCache, hsame, hsame']

/-- Waveforms that the thresholds do not tell apart change the status at most once. -/
theorem countSteps_changed_le_one (h : b.Ordered) {ms : List (Option Waveform)}
    (hms : ∀ m ∈ ms, ∃ w', m = some w' ∧ SameReading b w' w) (hp : p.boundary = b) :
    countSteps onTimeout changed p ms ≤ 1 := by
  have hnext : ∀ (p : Pilot) (m : Option Waveform), (∃ w', m = some w' ∧ SameReading b w' w) → p.boundary = b →
      (onTimeout p m).status = if p.running then p.status else newStatus b p.status w := by
    rintro p m ⟨w', rfl, hsame⟩ rfl
    rw [onTimeout_status_some, newStatus_congr hsame]
  have hkept : ∀ (p : Pilot) (m : Option Waveform), (∃ w', m = some w' ∧ SameReading b w' w) → p.boundary = b →
      (p.running = true ∨ newStatus b p.status w = p.status) → (onTimeout p m).status = p.status := by
    intro p m hm hp hsettled
    rw [hnext p m hm hp]
    split
    · rfl
    next hrunning => exact hsettled.resolve_left hrunning
  -- The settled states: one more such waveform leaves the status as it is.
  refine countSteps_le_one (I := fun p => p.boundary = b)
    (J := fun p => p.running = true ∨ newStatus b p.status w = p.status) ?_ ?_ ?_ ?_ hp hms
  · intro p m _ hp
    rw [onTimeout_boundary, hp]
  · intro p m hm hp hchanged
    rw [hnext p m hm hp]
    split
    next hrunning => simp [changed, hnext p m hm hp, hrunning] at hchanged
    next => exact .inr (newStatus_settled h p.status)
  · intro p m hm hp hsettled
    have hstatus : (onTimeout p m).status = p.status := hkept p m hm hp hsettled
    cases hsettled with
    | inl hrunning => exact .inl (by unfold onTimeout; rwa [if_pos hrunning])
    | inr hfixed => exact .inr (by rw [hstatus, hfixed])
  · intro p m hm hp hsettled
    simp [changed, hkept p m hm hp hsettled]

/-- What is asked of one timeout: a rise to a level, the unknown status not counted as low, needs more than its upward threshold, a fall below it no more than its downward one, and the callback follows the status. -/
structure Hysteretic (p : Pilot) (m : Option Waveform) : Prop where
  rises : ∀ w, m = some w → w.Sound p.boundary → ∀ x : Level,
    code p.status < code x.status → code x.status ≤ code (onTimeout p m).status →
      x.threshold p.boundary.upward < w.highsMax
  falls : ∀ w, m = some w → w.Sound p.boundary → ∀ x : Level,
    code x.status ≤ code p.status → code (onTimeout p m).status < code x.status →
      w.highsMax ≤ x.threshold p.boundary.downward
  called : p.cb = true →
    (onTimeout p m).called = p.called ++ if changed p m then [(onTimeout p m).status] else []

theorem hysteretic_onTimeout (h : p.boundary.Ordered) (m : Option Waveform) : Hysteretic p m where
  rises := by
    rintro w rfl hw x hprev hnew
    rw [onTimeout_status_some] at hnew
    split at hnew
    · omega
    · exact newStatus_rises h hw hprev hnew
  falls := by
    rintro w rfl hw x hprev hnew
    rw [onTimeout_status_some] at hnew
    split at hnew
    · omega
    · exact newStatus_falls h hw hprev hnew
  called := by
    intro hcb
    rw [onTimeout_called]
    simp only [hcb, and_true]

/-- Hysteresis along every run of timeouts. -/
theorem hysteresis {p : Pilot} (h : p.boundary.Ordered) :
    (∀ ms, EveryStep onTimeout Hysteretic p ms) ∧
      (∀ w n, countSteps onTimeout changed p (List.replicate n (some w)) ≤ 1) ∧
      ∀ (x : Level) (ws : List Waveform), (∀ w ∈ ws, w.InBand p.boundary x) →
        countSteps onTimeout changed p (ws.map some) ≤ 1 := by
  refine ⟨?_, ?_, ?_⟩
  · intro ms
    refine everyStep_of_invariant (I := fun q => q.boundary.Ordered) ?_ (fun q m hq => hysteretic_onTimeout hq m)
      h ms
    intro q m hq
    rwa [onTimeout_boundary]
  · intro w n
    refine countSteps_changed_le_one (w := w) h ?_ rfl
    intro m hm
    exact ⟨w, List.eq_of_mem_replicate hm, rfl, rfl⟩
  · intro x ws hws
    cases ws with
    | nil => exact Nat.zero_le 1
    | cons w ws =>
        refine countSteps_changed_le_one (w := w) h ?_ rfl
        intro m hm
        obtain ⟨w', hw', rfl⟩ := List.mem_map.1 hm
        exact ⟨w', rfl, (hws w' hw').sameReading h (hws w List.mem_cons_self)⟩

/-- The default thresholds, a pilot that rises from F to B and stays there in the band of level A. -/
theorem hysteresis_default :
    (∀ ms, EveryStep onTimeout Hysteretic (pilotSetStatusCb (pilotCreate defaultBoundaries)) ms) ∧
      (run onTimeout (pilotSetStatusCb (pilotCreate defaultBoundaries))
        [some { highsMax := 0 }, some { highsMax := 3000 }, none, some { highsMax := 3038 }]).called = [.f, .b] :=
  ⟨(hysteresis (p := pilotSetStatusCb (pilotCreate defaultBoundaries))
    ⟨by rintro (_ | _ | _ | _) <;> decide, by decide, by decide, by decide, rfl⟩).1, by decide⟩

end Evse.ControlPilot
