import Evse.Net.Stream

/-!
# Connected with an address

The guards of S5 and S6 and `netmgr_connected` all read the last event taken from the queue, which nothing ever clears. It says that there is an address for this connection as long as an address only arrives while the interface connects or is connected, and nothing takes the machine down while it is the last event.
-/

namespace Evse.Net

open RowTable StepRun

variable {ρ : Type} (api : RetryApi ρ)

/-- An address was acquired after the last `do_connect`. -/
def addressed (history : List Happening) : Bool :=
  history.foldl
    (fun known happening =>
      match happening with
      | .doConnect => false
      | .processed .ipAcquired => true
      | .processed _ => known)
    false

/-- The machine enters S6, and subscribers are told, only with an address acquired since the last `do_connect`. -/
def EntersWithAddress (m : Netmgr ρ) (op : Op) : Prop :=
  (fsmOf m ≠ .s6 ∧ fsmOf (step api m op) = .s6 ∨
      ∃ new, (step api m op).dispatched = m.dispatched ++ new ∧ .connected ∈ new) →
    addressed m.history = true

/-- The next step of the machine, if the run has one, enters S6. -/
def EntersNext : Netmgr ρ → List Op → Prop
  | _, [] => True
  | m, op :: ops =>
      match op, m.phase with
      | .process env, .popped => fsmOf (step api m (.process env)) = .s6
      | op, _ => EntersNext (step api m op) ops

/-- Whenever `netmgr_connected` answers yes, the machine is in S6 or about to enter it. -/
def ConnectedMeansUp (m : Netmgr ρ) (ops : List Op) : Prop :=
  ∀ pre post, ops = pre ++ post → netmgrConnected (run (step api) m pre) = true →
    fsmOf (run (step api) m pre) = .s6 ∨ EntersNext api (run (step api) m pre) post

/-- An address becomes the last event only in S5 or S6, and while it is the last event the machine finds no guard of a row down true. -/
def Undisturbed (m : Netmgr ρ) : Op → Prop
  | .processEvent =>
      m.phase = .waiting → m.msgq.getLast? = some .ipAcquired → fsmOf m = .s5 ∨ fsmOf m = .s6
  | .process env =>
      m.phase = .popped → ∀ entry ∈ m.current, entry.event = .ipAcquired →
        isStateS0 api entry.fsm ⟨m, { entry with ts := env.now }⟩ = false ∧
          isStateS2 entry.fsm ⟨m, { entry with ts := env.now }⟩ = false ∧
            isStateS4 entry.fsm ⟨m, { entry with ts := env.now }⟩ = false
  | _ => True

instance (m : Netmgr ρ) : ∀ op, Decidable (Undisturbed api m op)
  | .processEvent => inferInstanceAs (Decidable (m.phase = .waiting → m.msgq.getLast? = some .ipAcquired → _))
  | .process _ =>
      inferInstanceAs (Decidable (m.phase = .popped → ∀ entry ∈ m.current, entry.event = .ipAcquired → _ ∧ _ ∧ _))
  | .registerIface _ | .registerTask _ | .registerUnrecoverableCb | .enable | .disable | .netifEvent _ | .timer =>
      isTrue trivial

/-- An address as the last event belongs to this connection. -/
structure Current (m : Netmgr ρ) : Prop where
  addressed : ∀ entry, m.current = some entry → entry.event = .ipAcquired →
    addressed m.history = true ∧ (entry.fsm = .s6 ∨ entry.fsm = .s5 ∧ m.phase = .popped)
  registered : ∀ entry ∈ m.netifList, entry.event = .unknown

/-! ### The queue -/

theorem processNetifEvent_event (entry : Entry ρ) (event : NetifEvent) :
    (processNetifEvent entry event).event = event := by
  cases event <;> rfl

theorem foldl_processNetifEvent_event (events : List NetifEvent) (entry : Entry ρ) :
    (events.foldl processNetifEvent entry).event = events.getLast?.getD entry.event := by
  induction events generalizing entry with
  | nil => rfl
  | cons event events ih =>
      rw [List.foldl_cons, ih, processNetifEvent_event, List.getLast?_cons]
      rfl

theorem addressed_of_getLast {events : List NetifEvent} (h : events.getLast? = some .ipAcquired)
    (history : List Happening) : addressed (history ++ events.map .processed) = true := by
  obtain ⟨rest, rfl⟩ := List.getLast?_eq_some_iff.1 h
  simp [addressed, List.foldl_append]

theorem current_processEvent {m : Netmgr ρ} (h : Current m) (hphase : m.phase = .waiting)
    (hC : m.msgq.getLast? = some .ipAcquired → fsmOf m = .s5 ∨ fsmOf m = .s6) :
    Current { processEvent m with phase := .popped } := by
  cases hcurrent : m.current with
  | none =>
      simp only [processEvent, hcurrent]
      exact ⟨fun entry hentry => absurd hentry (by simp), h.registered⟩
  | some entry =>
      simp only [processEvent, hcurrent]
      refine ⟨?_, h.registered⟩
      rintro _ ⟨⟩ hevent
      have hfsm : (m.msgq.foldl processNetifEvent entry).fsm = entry.fsm :=
        congrArg Prod.fst (face_foldl m.msgq entry)
      have hfsmOf : fsmOf m = entry.fsm := by rw [fsmOf, hcurrent]
      rw [foldl_processNetifEvent_event] at hevent
      rw [hfsm]
      cases hlast : m.msgq.getLast? with
      | none =>
          -- Nothing was queued: the address is the one the entry had.
          rw [hlast] at hevent
          obtain ⟨hknown, hplace⟩ := h.addressed entry hcurrent hevent
          rw [List.getLast?_eq_none_iff.1 hlast]
          refine ⟨by simpa using hknown, .inl (hplace.resolve_right ?_)⟩
          rintro ⟨-, hpopped⟩
          exact absurd (hphase.symm.trans hpopped) (by decide)
      | some event =>
          rw [hlast] at hevent
          have hacquired : event = .ipAcquired := hevent
          subst hacquired
          refine ⟨addressed_of_getLast hlast m.history, ?_⟩
          rw [hfsmOf] at hC
          exact (hC hlast).symm.imp_right fun hs5 => ⟨hs5, rfl⟩

/-! ### The step of the machine -/

variable {api}

theorem target_of_undisturbed {c : Ctx ρ} (hevent : c.entry.event = .ipAcquired)
    (hplace : c.entry.fsm = .s6 ∨ c.entry.fsm = .s5) (h0 : isStateS0 api c.entry.fsm c = false)
    (h2 : isStateS2 c.entry.fsm c = false) (h4 : isStateS4 c.entry.fsm c = false) : target api c = .s6 := by
  obtain hfsm | hfsm := hplace
  · rw [hfsm] at h0 h2 h4
    simp only [target, hfsm, h0, h2, h4, Bool.false_eq_true, if_false]
  · rw [hfsm] at h0 h2 h4
    have h6 : isStateS6 c = true := decide_eq_true hevent
    simp only [target, hfsm, h0, h2, h4, h6, Bool.false_eq_true, if_false, if_true]

/-- S6 is entered from S5 alone, with an address as the last event. -/
theorem acquired_of_target {c : Ctx ρ} (hfsm : c.entry.fsm ≠ .s6) (htarget : target api c = .s6) :
    c.entry.event = .ipAcquired := by
  unfold target at htarget
  cases hs : c.entry.fsm <;> simp only [hs] at htarget hfsm <;> split_ifs at htarget <;> try exact absurd rfl hfsm
  next h6 => exact of_decide_eq_true h6

theorem current_of_pick {m : Netmgr ρ} (h : Current m) {entry : Entry ρ} (hpick : pickNetif m = some entry)
    (hevent : entry.event = .ipAcquired) : m.current = some entry := by
  unfold pickNetif at hpick
  cases hcurrent : m.current with
  | none =>
      rw [hcurrent] at hpick
      have hfresh := h.registered entry (List.mem_of_mem_head? hpick)
      exact absurd (hfresh.symm.trans hevent) (by decide)
  | some current =>
      rw [hcurrent] at hpick
      exact hpick

theorem current_process {m : Netmgr ρ} (h : Current m) (env : Surroundings) (hphase : m.phase = .popped)
    (hC : Undisturbed api m (.process env)) : Current (step api m (.process env)) := by
  have hstep : step api m (.process env) = { process api env m with phase := .waiting } := by
    simp only [step, hphase]
  rw [hstep]
  cases hpick : pickNetif m with
  | none =>
      have hcurrent : m.current = none := by
        unfold pickNetif at hpick
        cases hcurrent : m.current with
        | none => rfl
        | some entry => simp [hcurrent] at hpick
      simp only [process, hpick]
      exact ⟨fun entry hentry => absurd hentry (by simp [hcurrent]), h.registered⟩
  | some entry =>
      have hstepped : Stepped api _ ((machine api env).step ⟨m, { entry with ts := env.now }⟩) := stepped _
      simp only [process, hpick]
      refine ⟨?_, hstepped.netifList.symm ▸ h.registered⟩
      rintro _ ⟨⟩ hevent
      have hacquired : entry.event = .ipAcquired := hstepped.event.symm.trans hevent
      have hcurrent := current_of_pick h hpick hacquired
      obtain ⟨hknown, hplace⟩ := h.addressed entry hcurrent hacquired
      obtain ⟨h0, h2, h4⟩ := hC hphase entry hcurrent hacquired
      have htarget : target api ⟨m, { entry with ts := env.now }⟩ = .s6 :=
        target_of_undisturbed hacquired (hplace.imp_right And.left) h0 h2 h4
      refine ⟨?_, .inl (hstepped.fsm.trans htarget)⟩
      show addressed ((machine api env).step _).mgr.history = true
      rw [hstepped.history, htarget, if_neg (by simp), List.append_nil]
      exact hknown

/-- A call that is none of the thread's leaves the last event, the state, the phase and the history alone. -/
theorem current_of_same {m m' : Netmgr ρ} (h : Current m)
    (hcurrent : ∀ entry', m'.current = some entry' →
      ∃ entry, m.current = some entry ∧ entry'.event = entry.event ∧ entry'.fsm = entry.fsm)
    (hhistory : m'.history = m.history) (hphase : m'.phase = m.phase)
    (hlist : ∀ entry ∈ m'.netifList, entry.event = .unknown) : Current m' := by
  refine ⟨?_, hlist⟩
  intro entry' hentry' hevent'
  obtain ⟨entry, hentry, hevent, hfsm⟩ := hcurrent entry' hentry'
  rw [hhistory, hphase, hfsm]
  exact h.addressed entry hentry (hevent ▸ hevent')

theorem current_step {m : Netmgr ρ} (h : Current m) (op : Op) (hC : Undisturbed api m op) :
    Current (step api m op) := by
  have hsame : ∀ entry', m.current = some entry' →
      ∃ entry, m.current = some entry ∧ entry'.event = entry.event ∧ entry'.fsm = entry.fsm :=
    fun entry' hentry' => ⟨entry', hentry', rfl, rfl⟩
  cases op with
  | registerIface priority =>
      refine current_of_same h hsame rfl rfl ?_
      intro entry hmem
      cases mem_addNetif hmem with
      | inl heq => exact heq ▸ rfl
      | inr hmem => exact h.registered entry hmem
  | registerTask task => exact current_of_same h hsame rfl rfl h.registered
  | registerUnrecoverableCb => exact current_of_same h hsame rfl rfl h.registered
  | enable =>
      refine current_of_same h ?_ rfl rfl h.registered
      intro entry' hentry'
      obtain ⟨entry, hentry, rfl⟩ := Option.map_eq_some_iff.1 hentry'
      exact ⟨entry, hentry, rfl, rfl⟩
  | disable => exact current_of_same h hsame rfl rfl h.registered
  | netifEvent event =>
      simp only [step, onNetifEvent]
      split
      · split <;> exact current_of_same h hsame rfl rfl h.registered
      · exact h
  | timer =>
      simp only [step, onPeriodicTimer]
      split <;> exact current_of_same h hsame rfl rfl h.registered
  | processEvent =>
      simp only [step]
      split
      next hphase => exact current_processEvent h hphase (hC hphase)
      next => exact h
  | process env =>
      cases hphase : m.phase with
      | waiting =>
          simp only [step, hphase]
          exact h
      | popped => exact current_process h env hphase hC

/-! ### Runs -/

/-- A step into S6 is one of the machine, with an address as the last event. -/
theorem addressed_of_entering {m : Netmgr ρ} (hshows : Shows m) (h : Current m) {op : Op} (hprev : fsmOf m ≠ .s6)
    (hnext : fsmOf (step api m op) = .s6) : addressed m.history = true := by
  have hmoves : fsmOf (step api m op) ≠ fsmOf m := fun heq => hprev (heq ▸ hnext)
  by_cases hop : ∀ env, op ≠ .process env
  · refine absurd ?_ hmoves
    rw [fsmOf_eq, fsmOf_eq, (step_of_not_process api m hop).2]
  · obtain ⟨env, rfl⟩ := not_forall_not.1 hop
    cases hphase : m.phase with
    | waiting =>
        have hstep : step api m (.process env) = m := by simp only [step, hphase]
        exact absurd (congrArg fsmOf hstep) hmoves
    | popped =>
        have hstep : step api m (.process env) = { process api env m with phase := .waiting } := by
          simp only [step, hphase]
        cases hpick : pickNetif m with
        | none =>
            refine absurd ?_ hmoves
            rw [hstep, process, hpick]
            rfl
        | some entry =>
            obtain ⟨-, hfsm⟩ := hshows.pick hpick
            obtain ⟨-, entry', hcurrent', htarget, -⟩ := process_spec api hpick env
            have hfsm' : fsmOf (step api m (.process env)) = entry'.fsm := by
              rw [hstep, fsmOf]
              simp only [hcurrent']
            have hacquired : entry.event = .ipAcquired :=
              acquired_of_target (c := ⟨m, { entry with ts := env.now }⟩) (hfsm ▸ hprev)
                (htarget.symm.trans (hfsm'.symm.trans hnext))
            exact (h.addressed entry (current_of_pick h hpick hacquired) hacquired).1

theorem entersWithAddress_of_current {m : Netmgr ρ} (hshows : Shows m) (h : Current m) (op : Op) :
    EntersWithAddress api m op := by
  rintro (⟨hprev, hnext⟩ | ⟨new, hnew, hconnected⟩)
  · exact addressed_of_entering hshows h hprev hnext
  · -- CONNECTED is dispatched on entering S6 only.
    obtain ⟨-, hmoves, ⟨external, hexternal, exhausted, hnews⟩, -⟩ := tells_step api hshows op
    have hcount := count_connected_news hmoves hexternal exhausted
    rw [← List.append_cancel_left (hnew.symm.trans hnews)] at hcount
    have hpos : 0 < new.count .connected := List.count_pos_iff.2 hconnected
    by_cases henters : fsmOf (step api m op) = .s6 ∧ fsmOf m ≠ .s6
    · exact addressed_of_entering hshows h henters.2 henters.1
    · rw [if_neg henters] at hcount
      omega

/-- Connecting, with an address taken from the queue and the step of the machine to come. -/
def AboutToConnect (m : Netmgr ρ) : Prop :=
  ∃ entry, m.current = some entry ∧ entry.event = .ipAcquired ∧ entry.fsm = .s5 ∧ m.phase = .popped

theorem aboutToConnect_step {m : Netmgr ρ} (h : AboutToConnect m) {op : Op} (hop : ∀ env, op ≠ .process env) :
    AboutToConnect (step api m op) := by
  obtain ⟨entry, hcurrent, hevent, hfsm, hphase⟩ := h
  cases op with
  | registerIface priority => exact ⟨entry, hcurrent, hevent, hfsm, hphase⟩
  | registerTask task => exact ⟨entry, hcurrent, hevent, hfsm, hphase⟩
  | registerUnrecoverableCb => exact ⟨entry, hcurrent, hevent, hfsm, hphase⟩
  | enable => exact ⟨_, congrArg (Option.map _) hcurrent, hevent, hfsm, hphase⟩
  | disable => exact ⟨entry, hcurrent, hevent, hfsm, hphase⟩
  | netifEvent event =>
      simp only [step, onNetifEvent]
      split
      · split <;> exact ⟨entry, hcurrent, hevent, hfsm, hphase⟩
      · exact ⟨entry, hcurrent, hevent, hfsm, hphase⟩
  | timer =>
      simp only [step, onPeriodicTimer]
      split <;> exact ⟨entry, hcurrent, hevent, hfsm, hphase⟩
  | processEvent =>
      simp only [step, hphase]
      exact ⟨entry, hcurrent, hevent, hfsm, hphase⟩
  | process env => exact absurd rfl (hop env)

theorem entersNext_of_aboutToConnect {m : Netmgr ρ} (h : AboutToConnect m) {ops : List Op}
    (hC : EveryStep (step api) (Undisturbed api) m ops) : EntersNext api m ops := by
  induction ops generalizing m with
  | nil => trivial
  | cons op ops ih =>
      by_cases hop : ∀ env, op ≠ .process env
      · have hrest := ih (aboutToConnect_step h hop) hC.2
        cases op with
        | process env => exact absurd rfl (hop env)
        | _ => exact hrest
      · obtain ⟨env, rfl⟩ := not_forall_not.1 hop
        obtain ⟨entry, hcurrent, hevent, hfsm, hphase⟩ := h
        obtain ⟨h0, h2, h4⟩ := hC.1 hphase entry hcurrent hevent
        have hpick : pickNetif m = some entry := by rw [pickNetif, hcurrent]
        obtain ⟨-, entry', hcurrent', htarget, -⟩ := process_spec api hpick env
        simp only [EntersNext, hphase]
        simp only [step, hphase, fsmOf, hcurrent', htarget]
        exact target_of_undisturbed hevent (.inr hfsm) h0 h2 h4

theorem current_init (healthchkIntervalMs : Nat) : Current (netmgrInit healthchkIntervalMs : Netmgr ρ) where
  addressed := fun _ hcurrent => absurd hcurrent (by simp [netmgrInit])
  registered := fun _ hmem => absurd hmem List.not_mem_nil

/-- In every undisturbed run the machine enters S6 only with an address for this connection, and `netmgr_connected` says so only in S6 or right before it. -/
theorem connected_with_address_of_undisturbed (api : RetryApi ρ) (healthchkIntervalMs : Nat) {ops : List Op}
    (hC : EveryStep (step api) (Undisturbed api) (netmgrInit healthchkIntervalMs) ops) :
    EveryStep (step api) (EntersWithAddress api) (netmgrInit healthchkIntervalMs) ops ∧
      ConnectedMeansUp api (netmgrInit healthchkIntervalMs) ops := by
  have hstep : ∀ (m : Netmgr ρ) op, Shows m ∧ Current m → Undisturbed api m op →
      Shows (step api m op) ∧ Current (step api m op) :=
    fun m op h hop => ⟨(tells_step api h.1 op).shows, current_step h.2 op hop⟩
  have hinit : Shows (netmgrInit healthchkIntervalMs : Netmgr ρ) ∧ Current (netmgrInit healthchkIntervalMs : Netmgr ρ) :=
    ⟨shows_init healthchkIntervalMs, current_init healthchkIntervalMs⟩
  constructor
  · exact everyStep_of_conditional_invariant hstep (fun m op h _ => entersWithAddress_of_current h.1 h.2 op) hinit hC
  · rintro pre post rfl hconnected
    obtain ⟨hpre, hpost⟩ := everyStep_append.1 hC
    have hcurrent := (run_conditional_invariant hstep hinit hpre).2
    unfold netmgrConnected at hconnected
    split at hconnected
    · exact absurd hconnected (by decide)
    next entry hentry =>
      have hevent : entry.event = .ipAcquired := of_decide_eq_true hconnected
      obtain ⟨-, hs6 | ⟨hs5, hphase⟩⟩ := hcurrent.addressed entry hentry hevent
      · left
        rw [fsmOf, hentry]
        exact hs6
      · right
        exact entersNext_of_aboutToConnect ⟨entry, hentry, hevent, hs5, hphase⟩ hpost

/-- The first connection of an interface is undisturbed. -/
theorem connected_with_address_bringUp :
    fsmOf (run (step countingRetry) (netmgrInit 0) bringUp) = .s6 ∧
      EveryStep (step countingRetry) (EntersWithAddress countingRetry) (netmgrInit 0) bringUp :=
  ⟨by decide +kernel, (connected_with_address_of_undisturbed countingRetry 0 (by decide +kernel)).1⟩

/-- A connected interface is turned off. -/
def turnedOff : List Op := bringUp ++ [.disable] ++ turn 2000

/-- It is turned on again and asked to connect; the address is still the one from before. -/
def reconnecting : List Op := turnedOff ++ turnOn 3000 ++ [.processEvent]

/-- Off, the manager answers that it is connected and the next step stays off; after the next `do_connect` the machine enters S6 without an address. -/
theorem connected_without_address :
    (netmgrConnected (run (step countingRetry) (netmgrInit 0) turnedOff) = true ∧
        fsmOf (run (step countingRetry) (netmgrInit 0) turnedOff) = .s0 ∧
        fsmOf (run (step countingRetry) (netmgrInit 0) (turnedOff ++ turn 2500)) = .s0) ∧
      ¬ EveryStep (step countingRetry) (EntersWithAddress countingRetry) (netmgrInit 0)
        (reconnecting ++ [.process { now := 4500 }]) := by
  refine ⟨by decide +kernel, ?_⟩
  intro hevery
  have haddressed := hevery.last (.inl (by decide +kernel))
  exact absurd haddressed (by decide +kernel)

end Evse.Net
