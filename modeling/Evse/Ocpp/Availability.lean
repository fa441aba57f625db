import Evse.Ocpp.Charger

/-!
# ChangeAvailability

`do_change_availability` has two paths. A request for connector 0 goes through all connectors and answers Scheduled if one of them is charging. A request for one connector is rejected while the charger as a whole is unavailable; otherwise it is accepted, whether there is such a connector and whether it is charging or not.

The charger's flag and those of the connectors are kept in step by the two paths together: while the charger is unavailable, only a request for all can make a connector available.
-/

namespace Evse.Ocpp.Charger

open StepRun

variable {c : Charger} {connectorId : Int} {unavailable : Bool}

/-- In Charging or SuspendedEV. -/
def IsCharging (w : World) : Prop := w.base.fsm = .charging ∨ w.base.fsm = .suspendedEV

/-- The places of the connectors a request is about. -/
def targets (c : Charger) (connectorId : Int) : List Nat :=
  if connectorId = 0 then List.range c.connectors.length else (c.connectorById connectorId).toList

/-- The availability of the charger and of each connector. -/
def availability (c : Charger) : Bool × List Bool := (c.unavailable, c.connectors.map isUnavailableSet)

/-- What the answer to a request is to say, and what the request is to leave. -/
structure AnswersRightly (c : Charger) (connectorId : Int) (unavailable : Bool) : Prop where
  scheduled : (c.doChangeAvailability connectorId unavailable).2 = .scheduled ↔
    unavailable = true ∧ (c.doChangeAvailability connectorId unavailable).2 ≠ .rejected ∧
      ∃ place ∈ c.targets connectorId, ∃ w, c.connectors[place]? = some w ∧ IsCharging w
  missing : connectorId ≠ 0 → (∀ w ∈ c.connectors, (w.base.id : Int) ≠ connectorId) →
    (c.doChangeAvailability connectorId unavailable).2 ≠ .accepted ∧
      (c.doChangeAvailability connectorId unavailable).2 ≠ .scheduled
  rejected : (c.doChangeAvailability connectorId unavailable).2 = .rejected →
    (c.doChangeAvailability connectorId unavailable).1.availability = c.availability
  changed : (c.doChangeAvailability connectorId unavailable).2 ≠ .rejected →
    ∀ place ∈ c.targets connectorId, ∀ w,
      (c.doChangeAvailability connectorId unavailable).1.connectors[place]? = some w →
        isUnavailableSet w = unavailable

/-- The request is for all connectors, or rejected, or names a connector that is not charging or is not to be made unavailable. -/
def AnswerFits (c : Charger) (connectorId : Int) (unavailable : Bool) : Prop :=
  connectorId = 0 ∨ c.unavailable = true ∨
    ∃ place w, c.connectorById connectorId = some place ∧ c.connectors[place]? = some w ∧
      ¬ (unavailable = true ∧ IsCharging w)

/-! ### The lookup -/

theorem connectorById_eq_none_iff :
    c.connectorById connectorId = none ↔ ∀ w ∈ c.connectors, (w.base.id : Int) ≠ connectorId := by
  simp only [connectorById, List.findIdx?_eq_none_iff, decide_eq_false_iff_not, ne_eq]

theorem exists_of_connectorById {place : Nat} (h : c.connectorById connectorId = some place) :
    ∃ w, c.connectors[place]? = some w ∧ (w.base.id : Int) = connectorId := by
  obtain ⟨hlt, hid, -⟩ := List.findIdx?_eq_some_iff_getElem.1 h
  exact ⟨c.connectors[place], List.getElem?_eq_getElem hlt, of_decide_eq_true hid⟩

/-! ### The paths -/

theorem mqSend_connectors (c : Charger) (msg : QueuedMsg) : (c.mqSend msg).connectors = c.connectors := by
  unfold mqSend
  split <;> rfl

theorem mqSend_unavailable (c : Charger) (msg : QueuedMsg) : (c.mqSend msg).unavailable = c.unavailable := by
  unfold mqSend
  split <;> rfl

/-- The request for all connectors. -/
theorem doChangeAvailability_zero (c : Charger) (unavailable : Bool) :
    (c.doChangeAvailability 0 unavailable).1.unavailable = unavailable ∧
      (c.doChangeAvailability 0 unavailable).1.connectors = c.connectors.map (setAvailability !unavailable) ∧
      (c.doChangeAvailability 0 unavailable).2 =
        if unavailable && c.connectors.any fun w => w.base.fsm = .charging || w.base.fsm = .suspendedEV then .scheduled
        else .accepted := by
  unfold doChangeAvailability
  rw [if_pos rfl]
  exact ⟨mqSend_unavailable _ _, mqSend_connectors _ _, rfl⟩

theorem doChangeAvailability_rejected (unavailable : Bool) (hid : connectorId ≠ 0) (h : c.unavailable = true) :
    c.doChangeAvailability connectorId unavailable = (c, .rejected) := by
  unfold doChangeAvailability
  rw [if_neg hid, if_pos h]

theorem doChangeAvailability_missing (unavailable : Bool) (hid : connectorId ≠ 0) (h : c.unavailable = false)
    (hnone : c.connectorById connectorId = none) :
    c.doChangeAvailability connectorId unavailable = (c, .accepted) := by
  unfold doChangeAvailability
  rw [if_neg hid, if_neg (by simp [h]), hnone]

/-- A request for one connector: accepted, with the availability of that one as requested and those of the others as they were. -/
theorem doChangeAvailability_named (unavailable : Bool) (hid : connectorId ≠ 0) (h : c.unavailable = false) {place : Nat}
    (hplace : c.connectorById connectorId = some place) :
    (c.doChangeAvailability connectorId unavailable).2 = .accepted ∧
      (c.doChangeAvailability connectorId unavailable).1.unavailable = false ∧
      ∀ other w, (c.doChangeAvailability connectorId unavailable).1.connectors[other]? = some w →
        if other = place then isUnavailableSet w = unavailable
        else ∃ w', c.connectors[other]? = some w' ∧ isUnavailableSet w = isUnavailableSet w' := by
  obtain ⟨w, hw, -⟩ := exists_of_connectorById hplace
  unfold doChangeAvailability
  rw [if_neg hid, if_neg (by simp [h]), hplace]
  simp only [hw, Option.any_some, decide_eq_true_eq]
  split
  next hdiffers =>
    have hon : c.on place (setAvailability !unavailable) = c.put place (setAvailability (!unavailable) w) := by
      simp only [on, hw]
    refine ⟨rfl, (mqSend_unavailable _ _).trans ((congrArg Charger.unavailable hon).trans h), ?_⟩
    intro other v hv
    rw [mqSend_connectors, hon] at hv
    simp only [put, List.getElem?_map, Option.map_eq_some_iff] at hv
    obtain ⟨u, hu, rfl⟩ := hv
    split
    next heq =>
      subst heq
      rw [List.getElem?_set_self (List.getElem?_eq_some_iff.1 hw).1, Option.some.injEq] at hu
      subst hu
      simp [isUnavailableSet, setAvailability]
    next hne =>
      rw [List.getElem?_set_ne (Ne.symm hne)] at hu
      exact ⟨u, hu, rfl⟩
  next hsame =>
    refine ⟨rfl, h, ?_⟩
    intro other v hv
    split
    next heq =>
      subst heq
      rw [hw, Option.some.injEq] at hv
      exact hv ▸ not_not.1 hsame
    next => exact ⟨v, hv, rfl⟩

/-! ### The answer -/

theorem answersRightly_zero (c : Charger) (unavailable : Bool) : AnswersRightly c 0 unavailable := by
  obtain ⟨-, hconnectors, hstatus⟩ := doChangeAvailability_zero c unavailable
  have hany : (c.connectors.any fun w => w.base.fsm = .charging || w.base.fsm = .suspendedEV) = true ↔
      ∃ place ∈ c.targets 0, ∃ w, c.connectors[place]? = some w ∧ IsCharging w := by
    simp only [List.any_eq_true, Bool.or_eq_true, decide_eq_true_eq, targets, if_true, List.mem_range]
    constructor
    · rintro ⟨w, hw, hcharging⟩
      obtain ⟨place, hlt, rfl⟩ := List.mem_iff_getElem.1 hw
      exact ⟨place, hlt, _, List.getElem?_eq_getElem hlt, hcharging⟩
    · rintro ⟨place, -, w, hw, hcharging⟩
      exact ⟨w, List.mem_of_getElem? hw, hcharging⟩
  have hnot : (c.doChangeAvailability 0 unavailable).2 ≠ .rejected := by
    rw [hstatus]
    split <;> simp
  refine ⟨?_, fun hid => absurd rfl hid, fun hrejected => absurd hrejected hnot, ?_⟩
  · rw [← hany, and_iff_right hnot, hstatus]
    split
    next hboth => exact iff_of_true rfl (Bool.and_eq_true_iff.1 hboth)
    next hneither => exact iff_of_false (by simp) fun hboth => hneither (Bool.and_eq_true_iff.2 hboth)
  · intro _ place _ w hw
    rw [hconnectors, List.getElem?_map, Option.map_eq_some_iff] at hw
    obtain ⟨u, -, rfl⟩ := hw
    simp [isUnavailableSet, setAvailability]

theorem answersRightly_rejected (hid : connectorId ≠ 0) (h : c.unavailable = true) :
    AnswersRightly c connectorId unavailable := by
  have heq := doChangeAvailability_rejected unavailable hid h
  refine ⟨?_, fun _ _ => ?_, fun _ => ?_, fun hnot => ?_⟩
  · rw [heq]
    exact iff_of_false (by simp) fun hall => hall.2.1 rfl
  · rw [heq]
    exact ⟨by simp, by simp⟩
  · rw [heq]
  · rw [heq] at hnot
    exact absurd rfl hnot

/-- The answer is right exactly when it fits the request: the path for one connector never schedules and never misses a connector. -/
theorem answers_rightly_iff (c : Charger) (connectorId : Int) (unavailable : Bool) :
    AnswersRightly c connectorId unavailable ↔ AnswerFits c connectorId unavailable := by
  by_cases hid : connectorId = 0
  · subst hid
    exact iff_of_true (answersRightly_zero c unavailable) (.inl rfl)
  by_cases h : c.unavailable = true
  · exact iff_of_true (answersRightly_rejected hid h) (.inr (.inl h))
  rw [Bool.not_eq_true] at h
  cases hplace : c.connectorById connectorId with
  | none =>
      have heq := doChangeAvailability_missing unavailable hid h hplace
      refine iff_of_false (fun hright => ?_) ?_
      · have hnot := (hright.missing hid (connectorById_eq_none_iff.1 hplace)).1
        rw [heq] at hnot
        exact hnot rfl
      · rintro (hzero | hrejects | ⟨place, w, hfound, -⟩)
        · exact hid hzero
        · exact absurd (h.symm.trans hrejects) (by decide)
        · exact absurd (hplace.symm.trans hfound) (by simp)
  | some place =>
      obtain ⟨w, hw, hwid⟩ := exists_of_connectorById hplace
      obtain ⟨hstatus, -, hafter⟩ := doChangeAvailability_named unavailable hid h hplace
      have htargets : c.targets connectorId = [place] := by rw [targets, if_neg hid, hplace, Option.toList_some]
      constructor
      · intro hright
        refine .inr (.inr ⟨place, w, hplace, hw, ?_⟩)
        rintro ⟨hinoperative, hcharging⟩
        have hscheduled := hright.scheduled.2
          ⟨hinoperative, by rw [hstatus]; simp, place, by rw [htargets]; simp, w, hw, hcharging⟩
        exact absurd (hstatus.symm.trans hscheduled) (by simp)
      · rintro (hzero | hrejects | ⟨place', w', hfound, hw', hidle⟩)
        · exact absurd hzero hid
        · exact absurd (h.symm.trans hrejects) (by decide)
        · obtain rfl : place = place' := Option.some.inj (hplace.symm.trans hfound)
          obtain rfl : w = w' := Option.some.inj (hw.symm.trans hw')
          refine ⟨iff_of_false (by rw [hstatus]; simp) ?_, ?_, fun hrejected => ?_, ?_⟩
          · rintro ⟨hinoperative, -, place', hmem, v, hv, hcharging⟩
            rw [htargets, List.mem_singleton] at hmem
            subst hmem
            rw [hw, Option.some.injEq] at hv
            exact hidle ⟨hinoperative, hv ▸ hcharging⟩
          · intro _ hmissing
            exact absurd hwid (hmissing w (List.mem_of_getElem? hw))
          · exact absurd (hstatus.symm.trans hrejected) (by simp)
          · intro _ other hother v hv
            rw [htargets, List.mem_singleton] at hother
            have hset := hafter other v hv
            rwa [if_pos hother] at hset

/-- A charger with one connector, fresh out of the box: a request for connector 7 is accepted. -/
theorem missing_connector_accepted :
    ((create [freshBoot]).doChangeAvailability 7 true).2 = .accepted ∧
      ¬ AnswersRightly (create [freshBoot]) 7 true := by
  refine ⟨by decide +kernel, fun h => ?_⟩
  have hmissing : ∀ w ∈ (create [freshBoot]).connectors, (w.base.id : Int) ≠ 7 := by
    intro w hw
    rw [show (create [freshBoot]).connectors = [freshBoot.start] from rfl, List.mem_singleton] at hw
    subst hw
    decide
  exact (h.missing (by decide) hmissing).1 (by decide +kernel)

/-! ### The hierarchy -/

/-- `struct ocpp_ChangeAvailability`. -/
structure ChangeAvailability where
  connectorId : Int
  inoperative : Bool
  deriving DecidableEq

/-- The charger after a request. -/
def change (c : Charger) (p : ChangeAvailability) : Charger :=
  (c.doChangeAvailability p.connectorId p.inoperative).1

/-- While the charger is unavailable, so is every connector. -/
def Hierarchical (c : Charger) : Prop := c.unavailable = true → ∀ w ∈ c.connectors, isUnavailableSet w = true

/-- The charger and all connectors are available. -/
def AllAvailable (c : Charger) : Prop := c.unavailable = false ∧ ∀ w ∈ c.connectors, isUnavailableSet w = false

theorem isUnavailableSet_of_zero {w : World} (h : w ∈ (c.doChangeAvailability 0 unavailable).1.connectors) :
    isUnavailableSet w = unavailable := by
  rw [(doChangeAvailability_zero c unavailable).2.1, List.mem_map] at h
  obtain ⟨u, -, rfl⟩ := h
  simp [isUnavailableSet, setAvailability]

theorem hierarchical_change (c : Charger) (p : ChangeAvailability) (h : Hierarchical c) : Hierarchical (c.change p) := by
  obtain ⟨connectorId, inoperative⟩ := p
  by_cases hid : connectorId = 0
  · subst hid
    intro hunavailable w hw
    have hflag : inoperative = true := (doChangeAvailability_zero c inoperative).1.symm.trans hunavailable
    rw [isUnavailableSet_of_zero hw, hflag]
  by_cases hrejects : c.unavailable = true
  · rw [change, doChangeAvailability_rejected inoperative hid hrejects]
    exact h
  rw [Bool.not_eq_true] at hrejects
  cases hplace : c.connectorById connectorId with
  | none =>
      rw [change, doChangeAvailability_missing inoperative hid hrejects hplace]
      exact h
  | some place =>
      intro hunavailable
      have hstill := (doChangeAvailability_named inoperative hid hrejects hplace).2.1
      exact absurd (hstill.symm.trans hunavailable) (by decide)

theorem allAvailable_change (c : Charger) : AllAvailable (c.change ⟨0, false⟩) :=
  ⟨(doChangeAvailability_zero c false).1, fun _ hw => isUnavailableSet_of_zero hw⟩

/-- Every sequence of requests keeps the hierarchy, and one that makes connector 0 operative makes everything available. -/
theorem availability_hierarchical (h : Hierarchical c) (requests : List ChangeAvailability) :
    EveryState change Hierarchical c requests ∧
      EveryStep change (fun c p => p.connectorId = 0 → p.inoperative = false → AllAvailable (c.change p)) c requests := by
  have hsteps : EveryStep change (fun _ _ => True) c requests :=
    everyStep_of_invariant (I := fun _ => True) (fun _ _ _ => trivial) (fun _ _ _ => trivial) trivial requests
  constructor
  · exact everyState_of_conditional_invariant (C := fun _ _ => True) (fun c p h _ => hierarchical_change c p h)
      (fun _ h => h) h hsteps
  · refine everyStep_of_invariant (I := fun _ => True) (fun _ _ _ => trivial) ?_ trivial requests
    rintro c ⟨connectorId, inoperative⟩ - rfl rfl
    exact allAvailable_change c

/-- A charger with two connectors is closed, one of them is asked for in vain, and the charger is opened. -/
theorem availability_hierarchical_two :
    EveryState change Hierarchical (create [freshBoot, { freshBoot with id := 2 }]) [⟨0, true⟩, ⟨2, false⟩, ⟨0, false⟩] :=
  (availability_hierarchical (c := create [freshBoot, { freshBoot with id := 2 }])
    (fun hunavailable => absurd hunavailable (by decide)) [⟨0, true⟩, ⟨2, false⟩, ⟨0, false⟩]).1

end Evse.Ocpp.Charger
