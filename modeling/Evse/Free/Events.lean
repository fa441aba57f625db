import Evse.Free.Connector
import Evse.Lib.Trace

/-!
# What a free connector tells

The events of a change of state are looked up in a table of their own, beside the table of the machine. A step moves between two states of which the machine has a row, and what it tells is the table's entry for the two, so each property of what is told is checked on the pairs of states that have a row and carried along a run.
-/

namespace Evse.Free

open RowTable StepRun Trace ConnectorEvent

/-! ### One step -/

/-- The machine has a row between the two states, or they are the same. -/
def follows : ConnectorState → ConnectorState → Bool
  | .e, .e | .e, .a => true
  | .a, .a | .a, .b | .a, .f => true
  | .b, .b | .b, .a | .b, .c | .b, .d | .b, .f => true
  | .c, .c | .c, .a | .c, .b | .c, .d | .c, .f => true
  | .d, .d | .d, .a | .d, .b | .d, .c | .d, .f => true
  | .f, .f | .f, .a => true
  | _, _ => false

/-- What is told of a change of state. -/
def told (newState prevState : ConnectorState) : List ConnectorEvent :=
  if newState = prevState ∨ getEventFromStateChange newState prevState = 0 then []
  else [getEventFromStateChange newState prevState]

/-- What no action touches. -/
def frame (c : FreeConnector) : ConnectorState × List ConnectorEvent × Bool × Bool × Int :=
  (c.fsm, c.dispatched, c.eventCb, c.enabled, c.timeLastStateChange)

section Actions

variable (r : Readings) (c : FreeConnector)

theorem frame_doStopPower : frame (doStopPower c) = frame c := by
  unfold doStopPower
  split <;> rfl

theorem frame_doSupplyPower : frame (doSupplyPower c) = frame c := by
  unfold doSupplyPower
  split <;> rfl

theorem frame_doError : frame (doError c) = frame c := by
  unfold doError
  dsimp only
  split <;> rfl

theorem frame_doStopAll : frame (doStopAll c) = frame c := frame_doStopPower c

theorem frame_doEvseError : frame (doEvseError r c) = frame c := frame_doError c

theorem frame_doEvError : frame (doEvError c) = frame c := frame_doError c

/-- What the action of a row to `next` leaves of the connector. -/
inductive Acts : ConnectorState → FreeConnector → Prop
  | none {next : ConnectorState} : next ≠ .f → Acts next c
  | startPwm {next : ConnectorState} : next ≠ .f → Acts next (doStartPwm c)
  | stopPwm {next : ConnectorState} : next ≠ .f → Acts next (doStopPwm c)
  | supplyPower {next : ConnectorState} : next ≠ .f → Acts next (doSupplyPower c)
  | stopPower {next : ConnectorState} : next ≠ .f → Acts next (doStopPower c)
  | stopAll {next : ConnectorState} : next ≠ .f → Acts next (doStopAll c)
  | unexpected : Acts .f (doUnexpected c)
  | evError : Acts .f (doEvError c)
  | evseError : Acts .f (doEvseError r c)

/-- The rows of the machine, one by one. -/
theorem row_cases {row : Row ConnectorState FreeConnector} (hrow : row ∈ transitions r) :
    follows row.present row.next = true ∧ Acts r c row.next (row.perform c) := by
  simp only [transitions, List.mem_cons, List.not_mem_nil, or_false] at hrow
  obtain rfl | rfl | rfl | rfl | rfl | rfl | rfl | rfl | rfl | rfl | rfl | rfl | rfl | rfl | rfl | rfl | rfl | rfl |
    rfl | rfl | rfl | rfl | rfl | rfl | rfl | rfl | rfl := hrow
  · exact ⟨rfl, .stopPwm ConnectorState.noConfusion⟩
  · exact ⟨rfl, .startPwm ConnectorState.noConfusion⟩
  · exact ⟨rfl, .unexpected⟩
  · exact ⟨rfl, .unexpected⟩
  · exact ⟨rfl, .unexpected⟩
  · exact ⟨rfl, .evseError⟩
  · exact ⟨rfl, .stopPwm ConnectorState.noConfusion⟩
  · exact ⟨rfl, .supplyPower ConnectorState.noConfusion⟩
  · exact ⟨rfl, .supplyPower ConnectorState.noConfusion⟩
  · exact ⟨rfl, .evError⟩
  · exact ⟨rfl, .evseError⟩
  · exact ⟨rfl, .stopAll ConnectorState.noConfusion⟩
  · exact ⟨rfl, .stopPower ConnectorState.noConfusion⟩
  · exact ⟨rfl, .none ConnectorState.noConfusion⟩
  · exact ⟨rfl, .evError⟩
  · exact ⟨rfl, .evseError⟩
  · exact ⟨rfl, .stopAll ConnectorState.noConfusion⟩
  · exact ⟨rfl, .stopPower ConnectorState.noConfusion⟩
  · exact ⟨rfl, .none ConnectorState.noConfusion⟩
  · exact ⟨rfl, .evError⟩
  · exact ⟨rfl, .evseError⟩
  · exact ⟨rfl, .unexpected⟩
  · exact ⟨rfl, .unexpected⟩
  · exact ⟨rfl, .unexpected⟩
  · exact ⟨rfl, .unexpected⟩
  · exact ⟨rfl, .unexpected⟩
  · exact ⟨rfl, .stopPwm ConnectorState.noConfusion⟩

theorem Acts.frame_eq {next : ConnectorState} {c' : FreeConnector} (h : Acts r c next c') : frame c' = frame c := by
  cases h with
  | none _ | startPwm _ | stopPwm _ | unexpected => rfl
  | supplyPower _ => exact frame_doSupplyPower c
  | stopPower _ => exact frame_doStopPower c
  | stopAll _ => exact frame_doStopAll c
  | evError => exact frame_doEvError c
  | evseError => exact frame_doEvseError r c

end Actions

section Steps

variable {r : Readings} {c : FreeConnector}

theorem follows_self (s : ConnectorState) : follows s s = true := by
  cases s <;> rfl

/-- The frame after the state change callback, of a connector that has an event callback. -/
theorem frame_onStateChange (hcb : c.eventCb = true) {newState prevState : ConnectorState}
    (hmoves : newState ≠ prevState) :
    frame (onStateChange r newState prevState c) =
      (c.fsm, c.dispatched ++ told newState prevState, true, c.enabled, r.changeTime) := by
  simp only [onStateChange, told, hmoves, false_or]
  by_cases hnone : getEventFromStateChange newState prevState = 0
  · rw [if_neg (not_not.2 hnone), if_pos hnone, List.append_nil]
    simp only [frame, hcb]
  · rw [if_pos hnone, if_neg hnone]
    simp only [frame, Connector.callback, hcb, if_true]

/-- What a step of the machine leaves: a state the table has a row to, the events of the two states told, and the time of a change of state. -/
structure Processed (r : Readings) (c c' : FreeConnector) : Prop where
  follows : follows c.fsm c'.fsm = true
  dispatched : c'.dispatched = c.dispatched ++ told c'.fsm c.fsm
  eventCb : c'.eventCb = c.eventCb
  enabled : c'.enabled = c.enabled
  changed : c'.timeLastStateChange = if c'.fsm = c.fsm then c.timeLastStateChange else r.changeTime

theorem Processed.refl (r : Readings) (c : FreeConnector) : Processed r c c where
  follows := follows_self c.fsm
  dispatched := by rw [told, if_pos (.inl rfl), List.append_nil]
  eventCb := rfl
  enabled := rfl
  changed := (if_pos rfl).symm

theorem processed (r : Readings) (hcb : c.eventCb = true) : Processed r c (process r c) := by
  obtain hnone | ⟨row, hrow, hpresent, -, hfire⟩ := (machine r).step_cases c
  · have hsame : process r c = c := hnone
    rw [hsame]
    exact .refl r c
  · obtain ⟨hfollows, hacts⟩ := row_cases r { c with fsm := row.next } hrow
    have hframe := hacts.frame_eq
    have hpresent : row.present = c.fsm := hpresent
    have hfire : process r c = (machine r).fire row c := hfire
    simp only [frame, Prod.mk.injEq] at hframe
    obtain ⟨hfsm, hdispatched, heventCb, henabled, htime⟩ := hframe
    rw [hpresent] at hfollows
    rw [Machine.fire] at hfire
    split at hfire
    next hstays =>
      have hback : row.next = c.fsm := hstays.trans hpresent
      have hsame : (process r c).fsm = c.fsm := by rw [hfire]; exact hfsm.trans hback
      refine ⟨?_, ?_, ?_, ?_, ?_⟩
      · rw [hsame]
        exact follows_self c.fsm
      · rw [told, if_pos (.inl hsame), List.append_nil, hfire]
        exact hdispatched
      · rw [hfire]
        exact heventCb
      · rw [hfire]
        exact henabled
      · rw [if_pos hsame, hfire]
        exact htime
    next hmoves =>
      have hcallback : process r c =
          onStateChange r row.next row.present (row.perform { c with fsm := row.next }) := hfire
      have hafter := frame_onStateChange (r := r) (c := row.perform { c with fsm := row.next })
        (heventCb.trans hcb) hmoves
      rw [← hcallback] at hafter
      simp only [frame, Prod.mk.injEq] at hafter
      obtain ⟨hfsm', hdispatched', heventCb', henabled', htime'⟩ := hafter
      have hnext : (process r c).fsm = row.next := hfsm'.trans hfsm
      refine ⟨hnext ▸ hfollows, ?_, heventCb'.trans hcb.symm, henabled'.trans henabled, ?_⟩
      · rw [hdispatched', hdispatched, hnext, hpresent]
      · rw [if_neg (by rw [hnext, ← hpresent]; exact hmoves)]
        exact htime'

end Steps

/-! ### What the pairs of states say -/

def isChargingState (state : ConnectorState) : Bool := state = .c || state = .d

/-- A vehicle is plugged in. -/
def isPluggedState (state : ConnectorState) : Bool := state = .b || state = .c || state = .d

/-- What ends the time in which a vehicle is plugged in. -/
def unpluggedOrError (events : ConnectorEvent) : Bool := has events unplugged || has events error

section Pairs

variable {prev new : ConnectorState} (h : follows prev new = true)
include h

theorem told_charging :
    Alternates (has · chargingStarted) (has · chargingEnded) (!isChargingState prev) (told new prev) ∧
      turn (has · chargingStarted) (has · chargingEnded) (!isChargingState prev) (told new prev) =
        !isChargingState new := by
  revert h
  cases prev <;> cases new <;> decide

theorem told_faults :
    Alternates (has · error) (has · errorRecovery) (prev ≠ .f) (told new prev) ∧
      turn (has · error) (has · errorRecovery) (prev ≠ .f) (told new prev) = decide (new ≠ .f) := by
  revert h
  cases prev <;> cases new <;> decide

-- The events are a finite type, so a quantifier over them would be decided by going through all of them.
theorem told_plugged :
    (isPluggedState new = true →
      (isPluggedState prev && (told new prev).all (!unpluggedOrError ·)) = true ∨ told new prev = [plugged]) ∧
      (isPluggedState prev || (told new prev).all (!has · chargingStarted)) = true := by
  revert h
  cases prev <;> cases new <;> decide

theorem told_counts :
    (told new prev).countP (has · error) = (decide (prev ≠ .f) && decide (new = .f)).toNat ∧
      (told new prev).countP (has · errorRecovery) = (decide (prev = .f) && decide (new ≠ .f)).toNat := by
  revert h
  cases prev <;> cases new <;> decide

omit h in
theorem told_length (new prev : ConnectorState) : told new prev = [] ∨ ∃ x, told new prev = [x] := by
  unfold told
  split
  · exact .inl rfl
  · exact .inr ⟨_, rfl⟩

end Pairs

/-! ### Along a run -/

/-- What has been told agrees with the state: whose turn it is, and whether a vehicle is plugged in. -/
structure TalliedBy (c : FreeConnector) : Prop where
  eventCb : c.eventCb = true
  charging : Alternates (has · chargingStarted) (has · chargingEnded) true c.dispatched ∧
    turn (has · chargingStarted) (has · chargingEnded) true c.dispatched = !isChargingState c.fsm
  faults : Alternates (has · error) (has · errorRecovery) true c.dispatched ∧
    turn (has · error) (has · errorRecovery) true c.dispatched = decide (c.fsm ≠ .f)
  pluggedIn : isPluggedState c.fsm = true → Since (has · plugged) unpluggedOrError c.dispatched
  started : EachSince (has · plugged) unpluggedOrError (has · chargingStarted) c.dispatched

theorem talliedBy_create (param : ConnectorParam) : TalliedBy (create param) :=
  ⟨rfl, ⟨trivial, rfl⟩, ⟨trivial, rfl⟩, by simp [create, Connector.create, isPluggedState], eachSince_nil⟩

/-- Telling something that agrees with the change of state keeps the tally. -/
theorem TalliedBy.tell {c c' : FreeConnector} (h : TalliedBy c) {xs : List ConnectorEvent}
    (heventCb : c'.eventCb = c.eventCb) (hdispatched : c'.dispatched = c.dispatched ++ xs)
    (hcharging : Alternates (has · chargingStarted) (has · chargingEnded) (!isChargingState c.fsm) xs ∧
      turn (has · chargingStarted) (has · chargingEnded) (!isChargingState c.fsm) xs = !isChargingState c'.fsm)
    (hfaults : Alternates (has · error) (has · errorRecovery) (c.fsm ≠ .f) xs ∧
      turn (has · error) (has · errorRecovery) (c.fsm ≠ .f) xs = decide (c'.fsm ≠ .f))
    (hplugged : isPluggedState c'.fsm = true → Since (has · plugged) unpluggedOrError c'.dispatched)
    (hstarted : EachSince (has · plugged) unpluggedOrError (has · chargingStarted) c'.dispatched) :
    TalliedBy c' where
  eventCb := heventCb.trans h.eventCb
  charging := by
    rw [hdispatched, alternates_append, turn_append, h.charging.2]
    exact ⟨⟨h.charging.1, hcharging.1⟩, hcharging.2⟩
  faults := by
    rw [hdispatched, alternates_append, turn_append, h.faults.2]
    exact ⟨⟨h.faults.1, hfaults.1⟩, hfaults.2⟩
  pluggedIn := hplugged
  started := hstarted

theorem talliedBy_process {r : Readings} {c : FreeConnector} (h : TalliedBy c) : TalliedBy (process r c) := by
  have hp := processed r h.eventCb
  obtain ⟨hplugged, hstarted⟩ := told_plugged hp.follows
  refine h.tell hp.eventCb hp.dispatched (told_charging hp.follows) (told_faults hp.follows) ?_ ?_
  · intro hnew
    rw [hp.dispatched]
    obtain hstill | htold := hplugged hnew
    · rw [Bool.and_eq_true, List.all_eq_true] at hstill
      exact (h.pluggedIn hstill.1).append fun x hx => by simpa using hstill.2 x hx
    · rw [htold]
      exact since_concat _ rfl
  · rw [hp.dispatched]
    obtain hnil | ⟨x, hx⟩ := told_length (process r c).fsm c.fsm
    · rw [hnil, List.append_nil]
      exact h.started
    · rw [hx] at hstarted ⊢
      refine h.started.concat fun hstart => h.pluggedIn ?_
      simpa [hstart] using hstarted

theorem talliedBy_step (c : FreeConnector) (e : Event) (h : TalliedBy c) : TalliedBy (step c e) := by
  cases e with
  | process r =>
      show TalliedBy (if c.enabled then process r c else c)
      split
      · exact talliedBy_process h
      · exact h
  | enable r =>
      have hdispatched : (step c (.enable r)).dispatched = c.dispatched ++ [enabled] := by
        simp [step, Connector.enable, Connector.callback, h.eventCb]
      have hfsm : (step c (.enable r)).fsm = c.fsm := c.enable_fsm r
      have heventCb : (step c (.enable r)).eventCb = c.eventCb := by
        simp [step, Connector.enable, Connector.callback, h.eventCb]
      refine h.tell heventCb hdispatched ?_ ?_ ?_ ?_
      · rw [hfsm]
        cases c.fsm <;> decide
      · rw [hfsm]
        cases c.fsm <;> decide
      · rw [hfsm, hdispatched]
        refine fun hplugged => (h.pluggedIn hplugged).append fun x hx => ?_
        rw [List.mem_singleton.1 hx]
        decide
      · rw [hdispatched]
        have hnot : has enabled chargingStarted = false := by decide
        exact h.started.concat fun hstart => absurd (hnot.symm.trans hstart) Bool.false_ne_true
  | disable => exact ⟨h.eventCb, h.charging, h.faults, h.pluggedIn, h.started⟩

/-- What a step tells. -/
def deliveredBy (c : FreeConnector) (e : Event) : List ConnectorEvent :=
  (step c e).dispatched.drop c.dispatched.length

/-- An error is told exactly on entering F and the recovery exactly on leaving it, once each. -/
def TellsFaults (c : FreeConnector) (e : Event) : Prop :=
  (deliveredBy c e).countP (has · error) = (decide (c.fsm ≠ .f) && decide ((step c e).fsm = .f)).toNat ∧
    (deliveredBy c e).countP (has · errorRecovery) = (decide (c.fsm = .f) && decide ((step c e).fsm ≠ .f)).toNat

theorem deliveredBy_eq {c : FreeConnector} {e : Event} {xs : List ConnectorEvent}
    (h : (step c e).dispatched = c.dispatched ++ xs) : deliveredBy c e = xs := by
  rw [deliveredBy, h, List.drop_left]

theorem tellsFaults (c : FreeConnector) (e : Event) (h : TalliedBy c) : TellsFaults c e := by
  have hquiet : ∀ xs, (step c e).dispatched = c.dispatched ++ xs → (step c e).fsm = c.fsm →
      xs.countP (has · error) = 0 → xs.countP (has · errorRecovery) = 0 → TellsFaults c e := by
    intro xs hxs hfsm herror hrecovery
    rw [TellsFaults, deliveredBy_eq hxs, hfsm, herror, hrecovery]
    cases c.fsm <;> decide
  cases e with
  | process r =>
      by_cases henabled : c.enabled = true
      · have hstep : step c (.process r) = process r c := if_pos henabled
        have hp := processed r h.eventCb
        rw [TellsFaults, deliveredBy_eq (hstep ▸ hp.dispatched), hstep]
        exact told_counts hp.follows
      · have hstep : step c (.process r) = c := if_neg henabled
        exact hquiet [] (by rw [hstep, List.append_nil]) (by rw [hstep]) rfl rfl
  | enable r =>
      have hdispatched : (step c (.enable r)).dispatched = c.dispatched ++ [enabled] := by
        simp [step, Connector.enable, Connector.callback, h.eventCb]
      exact hquiet [enabled] hdispatched (c.enable_fsm r) (by decide) (by decide)
  | disable => exact hquiet [] (List.append_nil _).symm rfl rfl rfl

/-- The event stream of every run: starts and ends of charging take turns, each start has a plug with neither an unplug nor an error since, and errors and recoveries mark the way into F and out of it. -/
theorem events_in_order (param : ConnectorParam) (evs : List Event) :
    Alternates (has · chargingStarted) (has · chargingEnded) true (run step (create param) evs).dispatched ∧
      EachSince (has · plugged) (fun events => has events unplugged || has events error) (has · chargingStarted)
        (run step (create param) evs).dispatched ∧
      EveryStep step TellsFaults (create param) evs ∧
      Alternates (has · error) (has · errorRecovery) true (run step (create param) evs).dispatched := by
  have h : TalliedBy (run step (create param) evs) := run_invariant talliedBy_step (talliedBy_create param) evs
  exact ⟨h.charging.1, h.started, everyStep_of_invariant talliedBy_step tellsFaults (talliedBy_create param) evs,
    h.faults.1⟩

end Evse.Free
