import Evse.Ocpp.Transactions

/-!
# Each session is stopped once

A charging session ends in Finishing and nowhere else, with one request to stop its transaction and one event for it. The requests are counted on the ledger; the events need the state change callback, which the comparison of worlds in `process_moves` leaves out, so the machine's step is taken apart once more here.
-/

namespace Evse.Ocpp

open RowTable StepRun

section Stops

variable (env : Env) (w : World)

/-- The step leaves the charging states. -/
def isExit (e : Event) : Bool := inSession w.base.fsm && !inSession (step w e).base.fsm

/-- The step leaves Booting with a transaction in the checkpoint. -/
def isRecovery (e : Event) : Bool :=
  w.base.fsm = .booting && (step w e).base.fsm ≠ .booting && w.checkpoint.transactionId ≠ 0

/-- Outside Booting and the charging states the machine keeps the ledger or clears it. -/
theorem processOp_stops_elsewhere (hbooting : w.base.fsm ≠ .booting) (hsession : inSession w.base.fsm = false) :
    (processOp env w).stops = false := by
  unfold processOp
  cases h : w.base.fsm with
  | booting => exact absurd h hbooting
  | charging => exact absurd (h ▸ hsession) (by decide)
  | suspendedEV => exact absurd (h ▸ hsession) (by decide)
  | suspendedEVSE => rfl
  | available | preparing | finishing | reserved | unavailable | faulted =>
      dsimp only
      split_ifs <;> rfl

/-- The machine stops a transaction where it leaves the charging states, and recovers one where it leaves Booting. -/
theorem processOp_stops :
    (processOp env w).stops =
      (inSession w.base.fsm && !inSession ((machine env).move w.base.fsm w (transitions env)).base.fsm ||
        (w.base.fsm = .booting && ((machine env).move w.base.fsm w (transitions env)).base.fsm ≠ .booting &&
          w.checkpoint.transactionId ≠ 0)) := by
  by_cases hbooting : w.base.fsm = .booting
  · rw [hbooting, move_booting]
    simp only [processOp, hbooting]
    split_ifs <;> simp_all [hasMissingTransaction, Ledger.Op.stops, inSession]
  by_cases hcharging : w.base.fsm = .charging
  · rw [hcharging, move_charging]
    simp only [processOp, hcharging]
    split_ifs <;> simp [Ledger.Op.stops, inSession, hcharging]
  by_cases hsuspended : w.base.fsm = .suspendedEV
  · rw [hsuspended, move_suspendedEV]
    simp only [processOp, hsuspended]
    split_ifs <;> simp [Ledger.Op.stops, inSession, hsuspended]
  have hsession : inSession w.base.fsm = false := by simp [inSession, hcharging, hsuspended]
  rw [processOp_stops_elsewhere env w hbooting hsession, hsession, decide_eq_false hbooting]
  rfl

theorem process_fsm :
    (process env w).base.fsm = ((machine env).move w.base.fsm (stampNow env w) (transitions env)).base.fsm :=
  process_eq_move (f := fun v => v.base.fsm) (fun _ => rfl) env w

theorem txOp_stops_of_not_process {e : Event} (h : ∀ env, e ≠ .process env) : (txOp w e).stops = false := by
  cases e with
  | process env => exact absurd rfl (h env)
  | tryRelease env id =>
      simp only [txOp]
      split <;> rfl
  | release env remote =>
      simp only [txOp]
      split <;> rfl
  | receive env id response =>
      simp only [txOp, receiveOp]
      split
      · rfl
      · split
        · split <;> rfl
        · split <;> rfl
        · rfl
  | mqRecv env =>
      simp only [txOp]
      split <;> rfl
  | _ => rfl

theorem step_fsm_of_not_process {e : Event} (h : ∀ env, e ≠ .process env) : (step w e).base.fsm = w.base.fsm := by
  cases e with
  | process env => exact absurd rfl (h env)
  | enable env => exact w.base.enable_fsm env.toReadings
  | disable => rfl
  | setReserved reserved => rfl
  | _ => rw [step_base rfl]

theorem txOp_stops (e : Event) : (txOp w e).stops = (isExit w e || isRecovery w e) := by
  by_cases hprocess : ∃ env, e = .process env
  · obtain ⟨env, rfl⟩ := hprocess
    by_cases henabled : w.base.enabled = true
    · simp only [txOp, isExit, isRecovery, step, henabled, if_true, process_fsm]
      exact processOp_stops env (stampNow env w)
    · simp [txOp, isExit, isRecovery, step, henabled, Ledger.Op.stops]
  · have hother : ∀ env, e ≠ .process env := fun env he => hprocess ⟨env, he⟩
    rw [txOp_stops_of_not_process w hother, isExit, isRecovery, step_fsm_of_not_process w hother]
    simp

theorem length_stops_step (e : Event) :
    (stops (step w e)).length = (stops w).length + (isExit w e).toNat + (isRecovery w e).toNat := by
  have hlength : (stops (step w e)).length = (stops w).length + (txOp w e).stops.toNat := by
    have h := Ledger.length_stopped_apply (ledger w) (txOp w e)
    rw [← ledger_step] at h
    exact h
  have hdisjoint : isExit w e = true → isRecovery w e = false := by
    intro hexit
    simp only [isExit, inSession, Bool.and_eq_true, Bool.or_eq_true, decide_eq_true_eq] at hexit
    rcases hexit.1 with h | h <;> simp [isRecovery, h]
  rw [hlength, txOp_stops]
  cases hexit : isExit w e with
  | false => simp
  | true => simp [hdisjoint hexit]

end Stops

/-! ### Where sessions end -/

section Exits

variable {env : Env} {w w' : World}

theorem moves_of_inSession (h : inSession w.base.fsm = true) (hmove : Moves env w w') :
    inSession w'.base.fsm = true ∨ w'.base.fsm = .finishing := by
  have hin : w.base.fsm = .charging ∨ w.base.fsm = .suspendedEV := by simpa [inSession] using h
  cases hmove with
  | stay => exact .inl h
  | boot hfsm => simp [hfsm] at hin
  | unavailable hidle => exact absurd hin (by simp [hidle])
  | available hidle => exact absurd hin (by simp [hidle])
  | preparing hidle => exact absurd hin (by simp [hidle])
  | faulted hidle => exact absurd hin (by simp [hidle])
  | reserved hfsm => simp [hfsm] at hin
  | requestTid hfsm => simp [hfsm] at hin
  | startCharging hfsm => simp [hfsm] at hin
  | suspend => exact .inl rfl
  | finish => exact .inr (by simp)
  | keepCharging => exact .inl (by simp [inSession])
  | resume => exact .inl (by simp [inSession])
  | keepSuspended => exact .inl (by simp [inSession])

theorem moves_of_not_booting (h : w.base.fsm ≠ .booting) (hmove : Moves env w w') : w'.base.fsm ≠ .booting := by
  cases hmove with
  | stay => exact h
  | boot hfsm => exact absurd hfsm h
  | _ => simp

theorem exit_finishing (w : World) (e : Event) (h : isExit w e = true) : (step w e).base.fsm = .finishing := by
  simp only [isExit, Bool.and_eq_true, Bool.not_eq_true'] at h
  by_cases hprocess : ∃ env, e = .process env
  · obtain ⟨env, rfl⟩ := hprocess
    by_cases henabled : w.base.enabled = true
    · simp only [step, henabled, if_true, process_fsm] at h ⊢
      rcases moves_of_inSession (w := stampNow env w) h.1 (moves env _) with hin | hfinishing
      · exact absurd (hin.symm.trans h.2) (by decide)
      · exact hfinishing
    · simp [step, henabled] at h
  · rw [step_fsm_of_not_process w fun env he => hprocess ⟨env, he⟩] at h
    exact absurd (h.1.symm.trans h.2) (by decide)

theorem not_booting_step (w : World) (e : Event) (h : w.base.fsm ≠ .booting) : (step w e).base.fsm ≠ .booting := by
  by_cases hprocess : ∃ env, e = .process env
  · obtain ⟨env, rfl⟩ := hprocess
    simp only [step]
    split
    · rw [process_fsm]
      exact moves_of_not_booting (w := stampNow env w) h (moves env _)
    · exact h
  · rw [step_fsm_of_not_process w fun env he => hprocess ⟨env, he⟩]
    exact h

end Exits

/-! ### The events dispatched -/

section Events

variable {env : Env} {w w' : World}

/-- An event callback is registered, and the queue of raised events has no end of charging. -/
def QueueInv (w : World) : Prop :=
  w.base.eventCb = true ∧ ∀ event ∈ w.evtq, ConnectorEvent.has event .chargingEnded = false

theorem has_foldl (events : List ConnectorEvent) (event : ConnectorEvent)
    (h : ∀ raised ∈ events, ConnectorEvent.has raised .chargingEnded = false) :
    ConnectorEvent.has (events.foldl (· ||| ·) event) .chargingEnded = ConnectorEvent.has event .chargingEnded := by
  induction events generalizing event with
  | nil => rfl
  | cons raised events ih =>
      rw [List.foldl_cons, ih _ fun e he => h e (List.mem_cons_of_mem _ he), ConnectorEvent.has_or,
        h raised List.mem_cons_self, Bool.or_false]

/-- What `dispatch_event` appends to the events dispatched has the end of charging exactly when the event given has it. -/
theorem dispatched_dispatchEvent (h : QueueInv w) (event : ConnectorEvent) :
    ∃ sent, (dispatchEvent event w).base.dispatched = w.base.dispatched ++ sent ∧
      ((∃ events ∈ sent, ConnectorEvent.has events .chargingEnded = true) ↔
        ConnectorEvent.has event .chargingEnded = true) := by
  have hhas := has_foldl w.evtq event h.2
  simp only [dispatchEvent, Connector.callback, h.1, if_true]
  generalize w.evtq.foldl (· ||| ·) event = events at hhas
  by_cases hzero : events = 0
  · subst hzero
    refine ⟨[], by simp, ?_⟩
    rw [← hhas]
    simp [ConnectorEvent.has]
  · refine ⟨[events], by rw [if_pos hzero], ?_⟩
    rw [← hhas]
    simp

theorem queueInv_dispatchEvent (h : QueueInv w) (event : ConnectorEvent) :
    QueueInv (dispatchEvent event w) ∧ (dispatchEvent event w).evtq = [] := by
  have hevtq : (dispatchEvent event w).evtq = [] := by
    simp only [dispatchEvent]
    split <;> rfl
  have hcb : (dispatchEvent event w).base.eventCb = w.base.eventCb := by
    simp only [dispatchEvent, Connector.callback]
    split_ifs <;> rfl
  refine ⟨⟨hcb.trans h.1, ?_⟩, hevtq⟩
  rw [hevtq]
  exact fun _ he => absurd he List.not_mem_nil

theorem doCharging_evtq (env : Env) (state : OcppState) (w : World) : (doCharging env state w).evtq = w.evtq :=
  doCharging_frame (f := (·.evtq)) env state w (fun _ _ => rfl) (fun _ _ => rfl) fun _ _ _ => rfl

theorem doCharging_dispatched (env : Env) (state : OcppState) (w : World) :
    (doCharging env state w).base.dispatched = w.base.dispatched :=
  doCharging_frame (f := (·.base.dispatched)) env state w (fun _ _ => rfl) (fun _ _ => rfl) fun _ _ _ => rfl

/-- The actions of the machine dispatch nothing; one of them raises an event. -/
theorem queueInv_moves (h : QueueInv w) (hmove : Moves env w w') :
    QueueInv w' ∧ w'.base.dispatched = w.base.dispatched := by
  have hcb : w'.base.eventCb = true := (congrArg Prod.snd (wiring_moves hmove)).trans h.1
  have hsame : w'.evtq = w.evtq → ∀ event ∈ w'.evtq, ConnectorEvent.has event .chargingEnded = false := by
    intro hevtq
    rw [hevtq]
    exact h.2
  cases hmove with
  | stay => exact ⟨h, rfl⟩
  | boot => exact ⟨⟨hcb, h.2⟩, rfl⟩
  | unavailable =>
      refine ⟨⟨hcb, hsame ?_⟩, by simp [enter]⟩
      rw [doUnavailable, doMissingTransaction_evtq]
      rfl
  | available =>
      refine ⟨⟨hcb, ?_⟩, by simp [enter]⟩
      have hraised : ∀ event ∈ w.evtq ++ [.unplugged], ConnectorEvent.has event .chargingEnded = false := by
        intro event hevent
        rcases List.mem_append.mp hevent with hevent | hevent
        · exact h.2 event hevent
        · rw [List.mem_singleton.mp hevent]
          decide
      simp only [doAvailable, doMissingTransaction_evtq, raiseEvent_eq]
      split_ifs
      · exact hraised
      · exact h.2
      · exact h.2
  | preparing =>
      refine ⟨⟨hcb, hsame ?_⟩, by simp [enter]⟩
      simp only [doPreparing, doMissingTransaction_evtq]
      split <;> rfl
  | faulted => exact ⟨⟨hcb, h.2⟩, rfl⟩
  | reserved => exact ⟨⟨hcb, h.2⟩, rfl⟩
  | requestTid =>
      refine ⟨⟨hcb, hsame ?_⟩, by simp [enter]⟩
      simp only [doRequestTid, setSessionCurrentExpiry_eq]
      rfl
  | startCharging => exact ⟨⟨hcb, h.2⟩, rfl⟩
  | suspend => exact ⟨⟨hcb, h.2⟩, rfl⟩
  | finish hfsm =>
      refine ⟨⟨hcb, hsame ?_⟩, ?_⟩
      · simp only [doFinishing]
        split_ifs <;> rfl
      · simp only [doFinishing]
        split_ifs <;> rfl
  | keepCharging => exact ⟨⟨hcb, hsame (doCharging_evtq env _ _)⟩, doCharging_dispatched env _ _⟩
  | resume => exact ⟨⟨hcb, hsame (doCharging_evtq env _ _)⟩, doCharging_dispatched env _ _⟩
  | keepSuspended => exact ⟨⟨hcb, hsame (doCharging_evtq env _ _)⟩, doCharging_dispatched env _ _⟩

theorem machine_keeps_state (env : Env) : ∀ row ∈ (machine env).rows, ∀ w,
    (machine env).state (row.perform ((machine env).setState row.next w)) = row.next := by
  simp only [machine, transitions, item, Row.perform, List.forall_mem_cons]
  simp

/-- The end of charging is in the table for every way out of the charging states that there is, and for no other change. -/
theorem ended_iff_exit (newState prevState : OcppState) (plugged : Bool) :
    ConnectorEvent.has (getEventFromStateChange newState prevState plugged) .chargingEnded = true ↔
      inSession prevState = true ∧ newState = .finishing := by
  cases newState <;> cases prevState <;> cases plugged <;> decide

theorem queueInv_onStateChange (h : QueueInv w) (env : Env) (newState prevState : OcppState) :
    QueueInv (onStateChange env newState prevState w) ∧
      ∃ sent, (onStateChange env newState prevState w).base.dispatched = w.base.dispatched ++ sent ∧
        ((∃ events ∈ sent, ConnectorEvent.has events .chargingEnded = true) ↔
          inSession prevState = true ∧ newState = .finishing) := by
  have hstamped : QueueInv { w with base.timeLastStateChange := env.changeTime } := h
  simp only [onStateChange]
  generalize Connector.isOccupiedState (w.base.state env.toReadings) = plugged
  refine ⟨(queueInv_dispatchEvent hstamped _).1, ?_⟩
  simpa only [ended_iff_exit] using
    dispatched_dispatchEvent hstamped (getEventFromStateChange newState prevState plugged)

/-- A step of `connector_process` with the callback it makes. -/
theorem process_eq (env : Env) (w : World) :
    ∃ w₁, Moves env (stampNow env w) w₁ ∧ (process env w).base.fsm = w₁.base.fsm ∧
      process env w = dispatchEvent .none
        (if w₁.base.fsm = w.base.fsm then w₁ else onStateChange env w₁.base.fsm w.base.fsm w₁) := by
  refine ⟨_, moves env (stampNow env w), process_fsm env w, ?_⟩
  rw [process, (machine env).step_eq (machine_keeps_state env) (stampNow env w)]
  rfl

theorem dispatched_process (env : Env) (h : QueueInv w) :
    QueueInv (process env w) ∧ ∃ sent, (process env w).base.dispatched = w.base.dispatched ++ sent ∧
      ((∃ events ∈ sent, ConnectorEvent.has events .chargingEnded = true) ↔
        inSession w.base.fsm = true ∧ inSession (process env w).base.fsm = false) := by
  obtain ⟨w₁, hmove, hfsm, heq⟩ := process_eq env w
  have hmoved := queueInv_moves (show QueueInv (stampNow env w) from h) hmove
  have hnone : ¬ ConnectorEvent.has .none .chargingEnded = true := by decide
  rw [hfsm, heq]
  split
  · rename_i hsame
    obtain ⟨sent, hsent, hended⟩ := dispatched_dispatchEvent hmoved.1 .none
    refine ⟨(queueInv_dispatchEvent hmoved.1 .none).1, sent, hsent.trans (by rw [hmoved.2]; rfl), ?_⟩
    rw [hended, hsame]
    exact iff_of_false hnone fun hexit => absurd (hexit.1.symm.trans hexit.2) (by decide)
  · obtain ⟨hchanged, sent, hsent, hended⟩ := queueInv_onStateChange hmoved.1 env w₁.base.fsm w.base.fsm
    obtain ⟨sent', hsent', hended'⟩ := dispatched_dispatchEvent hchanged .none
    refine ⟨(queueInv_dispatchEvent hchanged .none).1, sent ++ sent', ?_, ?_⟩
    · rw [hsent', hsent, hmoved.2, List.append_assoc]
      rfl
    · have hlate : ¬ ∃ events ∈ sent', ConnectorEvent.has events .chargingEnded = true := fun hlate =>
        hnone (hended'.mp hlate)
      constructor
      · rintro ⟨events, hmem, hhas⟩
        rcases List.mem_append.mp hmem with hmem | hmem
        · obtain ⟨hin, hfinishing⟩ := hended.mp ⟨events, hmem, hhas⟩
          exact ⟨hin, by rw [hfinishing]; rfl⟩
        · exact absurd ⟨events, hmem, hhas⟩ hlate
      · rintro ⟨hin, hout⟩
        rcases moves_of_inSession (w := stampNow env w) hin hmove with hstill | hfinishing
        · exact absurd (hstill.symm.trans hout) (by decide)
        · obtain ⟨events, hmem, hhas⟩ := hended.mpr ⟨hin, hfinishing⟩
          exact ⟨events, List.mem_append_left _ hmem, hhas⟩

theorem queueInv_of_eq (h : QueueInv w) (hbase : w'.base = w.base) (hevtq : w'.evtq = w.evtq) : QueueInv w' := by
  refine ⟨by rw [hbase]; exact h.1, ?_⟩
  rw [hevtq]
  exact h.2

theorem queueInv_of_authFrame (h : QueueInv w) (hframe : AuthFrame w w') : QueueInv w' :=
  queueInv_of_eq h hframe.base hframe.evtq

theorem queueInv_raiseEvent (h : QueueInv w) {event : ConnectorEvent}
    (hevent : ConnectorEvent.has event .chargingEnded = false) : QueueInv (raiseEvent env w event) := by
  rw [raiseEvent_eq]
  refine ⟨h.1, fun raised hmem => ?_⟩
  dsimp only at hmem
  split at hmem
  · rcases List.mem_append.mp hmem with hmem | hmem
    · exact h.2 raised hmem
    · rw [List.mem_singleton.mp hmem]
      exact hevent
  · exact h.2 raised hmem

theorem mqSend_evtq (env : Env) (w : World) (msg : ChargerMsg) : (mqSend env w msg).evtq = w.evtq := by
  unfold mqSend
  split <;> rfl

theorem doStartTransaction_evtq (env : Env) (w : World) (req : Request) (info : IdTagInfo) (transactionId : Int) :
    (doStartTransaction env w req info transactionId).evtq = w.evtq := by
  by_cases h : info.status = .accepted
  · rw [doStartTransaction_accepted env w req h]
  · rw [doStartTransaction_rejected env w req h]
    rfl

theorem queueInv_receive (h : QueueInv w) (id : Nat) (response : Response) : QueueInv (receive env w id response) := by
  have hevtq : (receive env w id response).evtq = w.evtq := by
    unfold receive
    split
    · rfl
    · unfold handlerProcess
      split
      · exact (authFrame_doAuth env _ _).evtq
      · exact doStartTransaction_evtq env _ _ _ _
      · exact mqSend_evtq env _ _
      · rfl
  exact queueInv_of_eq h (receive_base env w id response) hevtq

theorem queueInv_mqRecv (h : QueueInv w) : QueueInv (mqRecv env w) := by
  unfold mqRecv
  split
  · exact h
  · unfold msgHandler
    split
    · exact h
    · exact h
    · refine queueInv_raiseEvent (queueInv_of_eq h ?_ ?_) (by decide) <;> rfl
    · refine queueInv_raiseEvent (queueInv_of_eq h ?_ ?_) (by decide) <;> rfl
    · exact h
    · exact h

/-- What one event makes of the queue and of the events dispatched. -/
theorem dispatched_step (h : QueueInv w) (e : Event) :
    QueueInv (step w e) ∧ ∃ sent, (step w e).base.dispatched = w.base.dispatched ++ sent ∧
      ((∃ events ∈ sent, ConnectorEvent.has events .chargingEnded = true) ↔ isExit w e = true) := by
  -- an event of no connector call leaves the connector, and with it the events dispatched, alone
  have hother : e.ofConnector = false → QueueInv (step w e) → QueueInv (step w e) ∧
      ∃ sent, (step w e).base.dispatched = w.base.dispatched ++ sent ∧
        ((∃ events ∈ sent, ConnectorEvent.has events .chargingEnded = true) ↔ isExit w e = true) := by
    intro hofConnector hinv
    refine ⟨hinv, [], by rw [step_base hofConnector, List.append_nil], ?_⟩
    rw [isExit, step_base hofConnector]
    simp
  cases e with
  | process env =>
      by_cases henabled : w.base.enabled = true
      · simp only [isExit, step, henabled, if_true, Bool.and_eq_true, Bool.not_eq_true']
        exact dispatched_process env h
      · refine ⟨by simpa [step, henabled] using h, [], by simp [step, henabled], ?_⟩
        simp [isExit, step, henabled]
  | enable env =>
      have hcallback : w.base.callback .enabled = { w.base with dispatched := w.base.dispatched ++ [.enabled] } :=
        if_pos h.1
      refine ⟨⟨?_, h.2⟩, [.enabled], ?_, ?_⟩
      · simp only [step, Connector.enable, hcallback]
        exact h.1
      · simp only [step, Connector.enable, hcallback]
      · have hno : ConnectorEvent.has .enabled .chargingEnded = false := by decide
        simp [isExit, step, hno]
  | disable => exact ⟨h, [], by simp [step, Connector.disable], by simp [isExit, step, Connector.disable]⟩
  | setReserved reserved => exact ⟨h, [], by simp [step], by simp [isExit, step]⟩
  | tryOccupy env id remote => exact hother rfl (queueInv_of_authFrame h (authFrame_tryOccupy env w id remote _))
  | tryRelease env id => exact hother rfl (queueInv_of_authFrame h (authFrame_tryRelease env w id _))
  | occupy env => exact hother rfl (queueInv_of_authFrame h (authFrame_occupy env w))
  | release env remote => exact hother rfl (queueInv_of_authFrame h (authFrame_release env w remote))
  | receive env id response => exact hother rfl (queueInv_receive h id response)
  | drop id => exact hother rfl h
  | mqRecv env => exact hother rfl (queueInv_mqRecv h)
  | bootAccepted env => exact hother rfl (queueInv_of_eq h (mqSend_base env w _) (mqSend_evtq env w _))
  | changeAvailability env available => exact hother rfl (queueInv_of_eq h (mqSend_base env _ _) (mqSend_evtq env _ _))
  | changeConfiguration env => exact hother rfl (queueInv_of_eq h (mqSend_base env w _) (mqSend_evtq env w _))
  | clearCache => exact hother rfl h
  | reset env forced => exact hother rfl (queueInv_of_eq h (mqSend_base env w _) (mqSend_evtq env w _))

end Events

/-- Every exit from the charging states is to Finishing, comes with one request to stop the transaction and dispatches one end of charging; no other step dispatches one, and the only other request to stop a transaction is made on leaving Booting with one in the checkpoint. -/
theorem each_session_stopped_once (boot : Boot) (evs : List Event) :
    EveryStep step (fun w e => isExit w e = true → (step w e).base.fsm = .finishing) boot.start evs ∧
      (stops (run step boot.start evs)).length =
        countSteps step isExit boot.start evs + countSteps step isRecovery boot.start evs ∧
      countSteps step isRecovery boot.start evs ≤ 1 ∧
      EveryStep step (fun w e =>
        ∃ sent, (step w e).base.dispatched = w.base.dispatched ++ sent ∧
          ((∃ events ∈ sent, ConnectorEvent.has events .chargingEnded = true) ↔ isExit w e = true))
        boot.start evs := by
  refine ⟨?_, ?_, ?_, ?_⟩
  · exact everyStep_of_invariant (I := fun _ => True) (fun _ _ _ => trivial) (fun w e _ => exit_finishing w e)
      trivial evs
  · have hcount := counter_eq_countSteps (f := fun w => (stops w).length) length_stops_step boot.start evs
    rw [hcount]
    have hnone : (stops boot.start).length = 0 := rfl
    omega
  · refine countSteps_le_one (I := fun _ => True) (J := fun w => w.base.fsm ≠ .booting) (Q := fun _ => True)
      (fun _ _ _ _ => trivial) ?_ (fun w e _ _ => not_booting_step w e) ?_ trivial fun _ _ => trivial
    · intro w e _ _ hrecovery
      simp only [isRecovery, Bool.and_eq_true, decide_eq_true_eq] at hrecovery
      exact hrecovery.1.2
    · intro w e _ _ hleft
      simp [isRecovery, hleft]
  · exact everyStep_of_invariant (fun w e h => (dispatched_step h e).1) (fun w e h => (dispatched_step h e).2)
      ⟨rfl, fun _ hmem => absurd hmem List.not_mem_nil⟩ evs

end Evse.Ocpp
