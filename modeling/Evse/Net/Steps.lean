import Evse.Net.Manager

/-!
# What a step of the network machine does

The state a step leads to is a chain of the guards of the present state, in the order of the rows. No action touches the last event, the external state or the dispatched events; only the row from S4 to S5 connects; and what is dispatched is a function of the two states, the previous external state and whether the retries are exhausted.
-/

namespace Evse.Net

open RowTable StepRun

variable {ρ : Type} {api : RetryApi ρ} {env : Surroundings}

/-- Where the rows of the present state lead. -/
def target (api : RetryApi ρ) (c : Ctx ρ) : State :=
  match c.entry.fsm with
  | .s0 => if isStateS1 api c then .s1 else .s0
  | .s1 => if isStateS0 api .s1 c then .s0 else .s2
  | .s2 => if isStateS0 api .s2 c then .s0 else if isStateS3 c then .s3 else .s2
  | .s3 => if isStateS0 api .s3 c then .s0 else if isStateS2 .s3 c then .s2 else .s4
  | .s4 => if isStateS0 api .s4 c then .s0 else if isStateS2 .s4 c then .s2 else if isStateS5 api c then .s5 else .s4
  | .s5 =>
      if isStateS0 api .s5 c then .s0 else if isStateS2 .s5 c then .s2 else if isStateS4 .s5 c then .s4
      else if isStateS6 c then .s6 else .s5
  | .s6 => if isStateS0 api .s6 c then .s0 else if isStateS2 .s6 c then .s2 else if isStateS4 .s6 c then .s4 else .s6

/-- What `on_state_change` dispatches, given the external states before and after. -/
def announced (external event : NetmgrState) (new prev : State) : List NetmgrState :=
  if event = external then []
  else
    (if new.index < prev.index then
        (if prev.index ≥ State.s6.index then [.disconnected] else []) ++
          if prev.index ≥ State.s4.index then [.disabled] else []
      else []) ++ [event]

theorem onStateChange_entry (new prev : State) (c : Ctx ρ) :
    (onStateChange api new prev c).entry =
      { c.entry with
        tsStateChanged := c.entry.ts
        externalState := getEventFromState api c.entry new prev } := by
  simp only [onStateChange]
  split
  · rfl
  next hsame =>
    have heq : getEventFromState api c.entry new prev = c.entry.externalState := not_not.1 hsame
    rw [heq]

theorem onStateChange_mgr (new prev : State) (c : Ctx ρ) :
    (onStateChange api new prev c).mgr =
      { c.mgr with
        dispatched := c.mgr.dispatched ++
          announced c.entry.externalState (getEventFromState api c.entry new prev) new prev } := by
  simp only [onStateChange, announced]
  split_ifs <;> simp_all [dispatchEvent]

/-! ### The actions -/

section Actions

variable (state : State) (c : Ctx ρ)

/-- What the actions leave alone, the connect apart. -/
def record (c : Ctx ρ) : State × NetifEvent × NetmgrState × List NetmgrState × List (Entry ρ) × List Happening :=
  (c.entry.fsm, c.entry.event, c.entry.externalState, c.mgr.dispatched, c.mgr.netifList, c.mgr.history)

theorem record_doDisconnect : record (doDisconnect env c) = record c := by
  unfold doDisconnect
  split <;> rfl

theorem record_doDisable : record (doDisable env state c) = record c := by
  unfold doDisable
  split
  · exact record_doDisconnect c
  · rfl

theorem record_doOff : record (doOff env state c) = record c := by
  have hoff : record (doOff env state c) =
      record (if state.index ≥ State.s3.index then doDisable env state c else c) := rfl
  rw [hoff]
  split
  · exact record_doDisable state c
  · rfl

theorem record_doOn : record (doOn env c) = record c := by
  simp only [doOn]
  split <;> rfl

theorem record_doEnable : record (doEnable env c) = record c := by
  unfold doEnable
  split <;> rfl

theorem record_doReset : record (doReset c) = record c := by
  unfold doReset
  split <;> rfl

theorem record_doPing : record (doPing env c) = record c := by
  simp only [doPing]
  split <;> rfl

theorem record_doConnect :
    record (doConnect api env c) =
      (c.entry.fsm, c.entry.event, c.entry.externalState, c.mgr.dispatched, c.mgr.netifList,
        c.mgr.history ++ [.doConnect]) := by
  simp only [doConnect]
  split <;> rfl

/-- What a row's action does, read off the row's two states. -/
theorem record_perform {row : Row State (Ctx ρ)} (hrow : row ∈ transitions api env) :
    record (row.perform c) =
      (c.entry.fsm, c.entry.event, c.entry.externalState, c.mgr.dispatched, c.mgr.netifList,
        c.mgr.history ++ if row.present = .s4 ∧ row.next = .s5 then [.doConnect] else []) := by
  have hsame : record c =
      (c.entry.fsm, c.entry.event, c.entry.externalState, c.mgr.dispatched, c.mgr.netifList, c.mgr.history ++ []) := by
    rw [List.append_nil]
    rfl
  simp only [transitions, List.mem_cons, List.not_mem_nil, or_false] at hrow
  obtain rfl | rfl | rfl | rfl | rfl | rfl | rfl | rfl | rfl | rfl | rfl | rfl | rfl | rfl | rfl | rfl | rfl | rfl |
    rfl | rfl | rfl := hrow
  · exact (record_doOn c).trans hsame
  · exact (record_doReset c).trans hsame
  · exact (record_doOff .s1 c).trans hsame
  · exact hsame
  · exact (record_doOff .s2 c).trans hsame
  · exact (record_doEnable c).trans hsame
  · exact (record_doOff .s3 c).trans hsame
  · exact (record_doDisable .s3 c).trans hsame
  · exact hsame
  · exact (record_doOff .s4 c).trans hsame
  · exact (record_doDisable .s4 c).trans hsame
  · exact record_doConnect c
  · exact (record_doOff .s5 c).trans hsame
  · exact (record_doDisable .s5 c).trans hsame
  · exact (record_doDisconnect c).trans hsame
  · exact hsame
  · exact (record_doOff .s6 c).trans hsame
  · exact (record_doDisable .s6 c).trans hsame
  · exact (record_doDisconnect c).trans hsame
  · exact (record_doPing c).trans hsame
  · exact hsame

end Actions

/-! ### The step -/

theorem fsm_perform {row : Row State (Ctx ρ)} (hrow : row ∈ transitions api env) (c : Ctx ρ) :
    (row.perform c).entry.fsm = c.entry.fsm :=
  congrArg Prod.fst (record_perform c hrow)

theorem fsm_step (c : Ctx ρ) : ((machine api env).step c).entry.fsm = target api c := by
  have hstate : ∀ row ∈ (machine api env).rows, ∀ c : Ctx ρ,
      (machine api env).state (row.perform ((machine api env).setState row.next c)) = row.next :=
    fun row hrow c => fsm_perform hrow _
  have hchanged : ∀ new prev (c : Ctx ρ),
      (machine api env).state ((machine api env).stateChanged new prev c) = (machine api env).state c := by
    intro new prev c
    show (onStateChange api new prev c).entry.fsm = c.entry.fsm
    rw [onStateChange_entry]
  have hstep := (machine api env).state_step hstate hchanged c
  refine hstep.trans ?_
  show Machine.leadsTo c.entry.fsm c (transitions api env) = target api c
  cases hfsm : c.entry.fsm <;>
    simp [Machine.leadsTo, transitions, fsmItem, target, hfsm, isStateS2, isStateS4]

/-- What is known of one step: where it leads, and what it leaves in the records. -/
structure Stepped (api : RetryApi ρ) (c c' : Ctx ρ) : Prop where
  fsm : c'.entry.fsm = target api c
  event : c'.entry.event = c.entry.event
  netifList : c'.mgr.netifList = c.mgr.netifList
  history : c'.mgr.history =
    c.mgr.history ++ if c.entry.fsm = .s4 ∧ target api c = .s5 then [.doConnect] else []
  announces : ∃ entry : Entry ρ,
    c'.entry.externalState =
        (if target api c = c.entry.fsm then c.entry.externalState
          else getEventFromState api entry (target api c) c.entry.fsm) ∧
      c'.mgr.dispatched = c.mgr.dispatched ++
        if target api c = c.entry.fsm then []
        else announced c.entry.externalState (getEventFromState api entry (target api c) c.entry.fsm)
          (target api c) c.entry.fsm

theorem stepped_of_none {c : Ctx ρ} (hnone : target api c = c.entry.fsm) : Stepped api c c := by
  refine ⟨hnone.symm, rfl, rfl, ?_, c.entry, by rw [if_pos hnone], by rw [if_pos hnone, List.append_nil]⟩
  rw [if_neg, List.append_nil]
  rintro ⟨h4, h5⟩
  have habsurd : State.s4 = State.s5 := h4.symm.trans (hnone.symm.trans h5)
  exact absurd habsurd (by decide)

section Fired

variable {row : Row State (Ctx ρ)} (hrow : row ∈ transitions api env) {c : Ctx ρ} (hpresent : row.present = c.entry.fsm)
  (hnext : target api c = row.next)
include hrow hpresent hnext

/-- A row that stays runs its action and no callback. -/
theorem stepped_of_stays (hstays : row.next = row.present) :
    Stepped api c (row.perform ((machine api env).setState row.next c)) := by
  have hrecord := record_perform ((machine api env).setState row.next c) hrow
  simp only [record, Prod.mk.injEq] at hrecord
  obtain ⟨hstate, hevent, hexternal, hdispatched, hlist, hhistory⟩ := hrecord
  have htarget : target api c = c.entry.fsm := hnext.trans (hstays.trans hpresent)
  refine ⟨hstate.trans hnext.symm, hevent, hlist, ?_, c.entry, ?_, ?_⟩
  · rw [hhistory, hpresent, hnext]
    rfl
  · rw [if_pos htarget]
    exact hexternal
  · rw [if_pos htarget, List.append_nil]
    exact hdispatched

/-- A row that moves runs its action and then `on_state_change`. -/
theorem stepped_of_moves (hmoves : row.next ≠ row.present) :
    Stepped api c
      (onStateChange api row.next row.present (row.perform ((machine api env).setState row.next c))) := by
  have hrecord := record_perform ((machine api env).setState row.next c) hrow
  simp only [record, Prod.mk.injEq] at hrecord
  obtain ⟨hstate, hevent, hexternal, hdispatched, hlist, hhistory⟩ := hrecord
  have htarget : ¬ target api c = c.entry.fsm := by
    rw [hnext, ← hpresent]
    exact hmoves
  refine ⟨?_, ?_, ?_, ?_, (row.perform ((machine api env).setState row.next c)).entry, ?_, ?_⟩
  · rw [onStateChange_entry, hnext]
    exact hstate
  · rw [onStateChange_entry]
    exact hevent
  · rw [onStateChange_mgr]
    exact hlist
  · rw [onStateChange_mgr, ← hpresent, hnext]
    exact hhistory
  · rw [onStateChange_entry, if_neg htarget, hnext, hpresent]
  · rw [onStateChange_mgr, if_neg htarget, hnext, hpresent]
    dsimp only
    rw [hdispatched, hexternal]
    rfl

end Fired

theorem stepped (c : Ctx ρ) : Stepped api c ((machine api env).step c) := by
  have hfsm : ((machine api env).step c).entry.fsm = target api c := fsm_step c
  obtain hnone | ⟨row, hrow, hpresent, -, hfire⟩ := (machine api env).step_cases c
  · rw [hnone] at hfsm ⊢
    exact stepped_of_none hfsm.symm
  · have hpresent : row.present = c.entry.fsm := hpresent
    have hstate : (row.perform ((machine api env).setState row.next c)).entry.fsm = row.next := fsm_perform hrow _
    rw [Machine.fire] at hfire
    split at hfire
    next hstays =>
      rw [hfire] at hfsm ⊢
      exact stepped_of_stays hrow hpresent (hfsm.symm.trans hstate) hstays
    next hmoves =>
      have hcallback : (machine api env).step c =
          onStateChange api row.next row.present (row.perform ((machine api env).setState row.next c)) := hfire
      have hnext : target api c = row.next := by
        rw [← hfsm, hcallback, onStateChange_entry]
        exact hstate
      rw [hcallback]
      exact stepped_of_moves hrow hpresent hnext hmoves

end Evse.Net
