import Evse.Net.Steps

/-!
# The events subscribers see

A step down dispatches up to three events. Straight down to S0, and from S3 to S2, they are one event for the lost connection, one for the interface that is disabled, and the new state. On every other step down one of them is a repetition, or the interface is said to be disabled or disconnected when it is neither.
-/

namespace Evse.Net

open RowTable StepRun

/-- The state of the interface in use; before one is picked none has left S0. -/
def fsmOf {ρ : Type} (m : Netmgr ρ) : State :=
  match m.current with
  | none => .s0
  | some entry => entry.fsm

/-- What a subscriber may be told on the way from one state to the next. -/
structure ExactNews (news : List NetmgrState) (prev next : State) : Prop where
  disconnected : news.count .disconnected = if prev = .s6 ∧ next ≠ .s6 then 1 else 0
  disabledOnce : news.count .disabled ≤ 1
  disabled : .disabled ∈ news → State.s3.index ≤ prev.index ∧ (next = .s2 ∨ next = .s0)

/-- The step tells a subscriber to all events what it may be told. -/
def TellsExactly {ρ : Type} (api : RetryApi ρ) (m : Netmgr ρ) (op : Op) : Prop :=
  ∃ new, (step api m op).dispatched = m.dispatched ++ new ∧
    ExactNews (delivered maskAllEvents new) (fsmOf m) (fsmOf (step api m op))

/-- From S4 on the machine does not step down except to S0: unless the guard of the row to S0 holds, the guards of the rows to S2 and to S4 do not. -/
def StepsStraightDown {ρ : Type} (api : RetryApi ρ) (m : Netmgr ρ) : Op → Prop
  | .process env =>
      m.phase = .popped → ∀ entry, pickNetif m = some entry → State.s4.index ≤ entry.fsm.index →
        isStateS0 api entry.fsm ⟨m, { entry with ts := env.now }⟩ = true ∨
          isStateS2 entry.fsm ⟨m, { entry with ts := env.now }⟩ = false ∧
            isStateS4 entry.fsm ⟨m, { entry with ts := env.now }⟩ = false
  | _ => True

theorem delivered_all (dispatched : List NetmgrState) : delivered maskAllEvents dispatched = dispatched := by
  unfold delivered
  rw [List.filter_eq_self]
  intro event _
  cases event <;> decide

/-! ### One move of the machine -/

/-- The states the rows of a state lead to, and the state itself. -/
def successors : State → List State
  | .s0 => [.s0, .s1]
  | .s1 => [.s1, .s0, .s2]
  | .s2 => [.s2, .s0, .s3]
  | .s3 => [.s3, .s0, .s2, .s4]
  | .s4 => [.s4, .s0, .s2, .s5]
  | .s5 => [.s5, .s0, .s2, .s4, .s6]
  | .s6 => [.s6, .s0, .s2, .s4]

/-- The external states of a machine in a state. -/
def shown : State → List NetmgrState
  | .s0 => [.off, .exhausted]
  | .s1 => [.off]
  | .s2 => [.initialized, .disabled]
  | .s3 => [.initialized]
  | .s4 => [.enabled, .disconnected]
  | .s5 => [.enabled]
  | .s6 => [.connected]

/-- `get_event_from_state`, given whether the retries are exhausted. -/
def eventOf (exhausted : Bool) (next prev : State) : NetmgrState :=
  if next = .s0 ∧ exhausted = true then .exhausted
  else if next = .s2 ∧ prev.index > State.s2.index then .disabled
  else if next = .s4 ∧ prev.index > State.s4.index then .disconnected
  else stateEvent next

/-- The news of a move. -/
def news (external : NetmgrState) (exhausted : Bool) (next prev : State) : List NetmgrState :=
  if next = prev then [] else announced external (eventOf exhausted next prev) next prev

instance (news : List NetmgrState) (prev next : State) : Decidable (ExactNews news prev next) :=
  decidable_of_iff
    (news.count .disconnected = (if prev = .s6 ∧ next ≠ .s6 then 1 else 0) ∧ news.count .disabled ≤ 1 ∧
      (.disabled ∈ news → State.s3.index ≤ prev.index ∧ (next = .s2 ∨ next = .s0)))
    ⟨fun ⟨h, h', h''⟩ => ⟨h, h', h''⟩, fun ⟨h, h', h''⟩ => ⟨h, h', h''⟩⟩

section Moves

variable {prev next : State} {external : NetmgrState}

theorem exactNews_iff (hnext : next ∈ successors prev) (hexternal : external ∈ shown prev) (exhausted : Bool) :
    ExactNews (news external exhausted next prev) prev next ↔
      (State.s4.index ≤ prev.index → next = .s0 ∨ prev.index ≤ next.index) := by
  have hmoves : ∀ next ∈ successors prev, ∀ external ∈ shown prev,
      (ExactNews (news external exhausted next prev) prev next ↔
        (State.s4.index ≤ prev.index → next = .s0 ∨ prev.index ≤ next.index)) := by
    cases prev <;> cases exhausted <;> decide
  exact hmoves next hnext external hexternal

theorem count_connected_news (hnext : next ∈ successors prev) (hexternal : external ∈ shown prev)
    (exhausted : Bool) :
    (news external exhausted next prev).count .connected = if next = .s6 ∧ prev ≠ .s6 then 1 else 0 := by
  have hmoves : ∀ next ∈ successors prev, ∀ external ∈ shown prev,
      (news external exhausted next prev).count .connected = if next = .s6 ∧ prev ≠ .s6 then 1 else 0 := by
    cases prev <;> cases exhausted <;> decide
  exact hmoves next hnext external hexternal

/-- The external state after a move. -/
theorem eventOf_shown (hnext : next ∈ successors prev) (hmoves : next ≠ prev) (exhausted : Bool) :
    eventOf exhausted next prev ∈ shown next := by
  have hall : ∀ next ∈ successors prev, next ≠ prev → eventOf exhausted next prev ∈ shown next := by
    cases prev <;> cases exhausted <;> decide
  exact hall next hnext hmoves

end Moves

variable {ρ : Type} {api : RetryApi ρ}

theorem target_mem_successors (c : Ctx ρ) : target api c ∈ successors c.entry.fsm := by
  unfold target
  cases c.entry.fsm <;> dsimp only <;> split_ifs <;> decide

/-- The guards of `StepsStraightDown` are those that decide the target. -/
theorem target_straight_iff (c : Ctx ρ) :
    (State.s4.index ≤ c.entry.fsm.index →
        isStateS0 api c.entry.fsm c = true ∨ isStateS2 c.entry.fsm c = false ∧ isStateS4 c.entry.fsm c = false) ↔
      (State.s4.index ≤ c.entry.fsm.index → target api c = .s0 ∨ c.entry.fsm.index ≤ (target api c).index) := by
  have hs4 : isStateS4 .s4 c = false := rfl
  unfold target
  cases hfsm : c.entry.fsm <;> dsimp only <;> split_ifs <;> simp_all [State.index]

/-! ### One step of the manager -/

/-- What is kept of the entries: an entry shows its state, and those not yet picked are as they were registered. -/
structure Shows (m : Netmgr ρ) : Prop where
  current : ∀ entry, m.current = some entry → entry.externalState ∈ shown entry.fsm
  registered : ∀ entry ∈ m.netifList, entry.fsm = .s0 ∧ entry.externalState = .off

theorem Shows.pick {m : Netmgr ρ} (h : Shows m) {entry : Entry ρ} (hpick : pickNetif m = some entry) :
    entry.externalState ∈ shown entry.fsm ∧ fsmOf m = entry.fsm := by
  unfold pickNetif at hpick
  cases hcurrent : m.current with
  | none =>
      rw [hcurrent] at hpick
      obtain ⟨hfsm, hexternal⟩ := h.registered entry (List.mem_of_mem_head? hpick)
      rw [fsmOf, hcurrent, hfsm, hexternal]
      exact ⟨List.mem_cons_self, rfl⟩
  | some current =>
      rw [hcurrent] at hpick
      cases hpick
      exact ⟨h.current _ hcurrent, by rw [fsmOf, hcurrent]⟩

/-- One step of the machine in the terms of this module. -/
theorem process_spec (api : RetryApi ρ) {m : Netmgr ρ} {entry : Entry ρ} (hpick : pickNetif m = some entry) (env : Surroundings) :
    ∃ exhausted, ∃ entry' : Entry ρ,
      (process api env m).current = some entry' ∧ entry'.fsm = target api ⟨m, { entry with ts := env.now }⟩ ∧
        entry'.externalState =
          (if entry'.fsm = entry.fsm then entry.externalState else eventOf exhausted entry'.fsm entry.fsm) ∧
        (process api env m).dispatched = m.dispatched ++ news entry.externalState exhausted entry'.fsm entry.fsm ∧
        (process api env m).netifList = m.netifList := by
  have hstepped : Stepped api _ ((machine api env).step ⟨m, { entry with ts := env.now }⟩) := stepped _
  obtain ⟨by', hexternal, hdispatched⟩ := hstepped.announces
  refine ⟨api.exhausted by'.retry, ((machine api env).step ⟨m, { entry with ts := env.now }⟩).entry, ?_⟩
  have hprocess : process api env m =
      { ((machine api env).step ⟨m, { entry with ts := env.now }⟩).mgr with
        current := some ((machine api env).step ⟨m, { entry with ts := env.now }⟩).entry } := by
    simp only [process, hpick]
  rw [hprocess, hstepped.fsm]
  exact ⟨rfl, rfl, hexternal, hdispatched, hstepped.netifList⟩

/-- The two states of an entry. -/
def face (entry : Entry ρ) : State × NetmgrState := (entry.fsm, entry.externalState)

theorem mem_addNetif {entry x : Entry ρ} {list : List (Entry ρ)} (h : x ∈ addNetif entry list) :
    x = entry ∨ x ∈ list := by
  induction list with
  | nil => exact .inl (List.mem_singleton.1 h)
  | cons t rest ih =>
      rw [addNetif] at h
      split at h
      · exact List.mem_cons.1 h
      · cases List.mem_cons.1 h with
        | inl heq => exact .inr (heq ▸ List.mem_cons_self)
        | inr hmem => exact (ih hmem).imp_right (List.mem_cons_of_mem t)

theorem face_foldl (events : List NetifEvent) (entry : Entry ρ) :
    face (events.foldl processNetifEvent entry) = face entry := by
  induction events generalizing entry with
  | nil => rfl
  | cons event events ih =>
      rw [List.foldl_cons, ih]
      cases event <;> rfl

/-- Every call but the thread's step leaves the dispatched events and the states of the interface in use alone. -/
theorem step_of_not_process (api : RetryApi ρ) (m : Netmgr ρ) {op : Op} (hop : ∀ env, op ≠ .process env) :
    (step api m op).dispatched = m.dispatched ∧ (step api m op).current.map face = m.current.map face := by
  cases op with
  | registerIface priority => exact ⟨rfl, rfl⟩
  | registerTask task => exact ⟨rfl, rfl⟩
  | registerUnrecoverableCb => exact ⟨rfl, rfl⟩
  | enable =>
      refine ⟨rfl, ?_⟩
      show (m.current.map _).map face = m.current.map face
      rw [Option.map_map]
      rfl
  | disable => exact ⟨rfl, rfl⟩
  | netifEvent event =>
      simp only [step, onNetifEvent]
      split
      · split <;> exact ⟨rfl, rfl⟩
      · exact ⟨rfl, rfl⟩
  | timer =>
      simp only [step, onPeriodicTimer]
      split <;> exact ⟨rfl, rfl⟩
  | processEvent =>
      simp only [step, processEvent]
      split
      · cases hcurrent : m.current with
        | none => exact ⟨rfl, congrArg (Option.map face) hcurrent⟩
        | some entry => exact ⟨rfl, congrArg some (face_foldl m.msgq entry)⟩
      · exact ⟨rfl, rfl⟩
  | process env => exact absurd rfl (hop env)

/-- Only a registration changes the list, by one fresh entry. -/
theorem registered_step {m : Netmgr ρ} (h : Shows m) (op : Op) :
    ∀ entry ∈ (step api m op).netifList, entry.fsm = .s0 ∧ entry.externalState = .off := by
  cases op with
  | registerIface priority =>
      intro entry hmem
      cases mem_addNetif hmem with
      | inl heq => exact heq ▸ ⟨rfl, rfl⟩
      | inr hmem => exact h.registered entry hmem
  | registerTask task => exact h.registered
  | registerUnrecoverableCb => exact h.registered
  | enable => exact h.registered
  | disable => exact h.registered
  | netifEvent event =>
      simp only [step, onNetifEvent]
      split
      · split <;> exact h.registered
      · exact h.registered
  | timer =>
      simp only [step, onPeriodicTimer]
      split <;> exact h.registered
  | processEvent =>
      simp only [step, processEvent]
      split
      · split <;> exact h.registered
      · exact h.registered
  | process env =>
      simp only [step]
      split
      · exact h.registered
      · cases hpick : pickNetif m with
        | none =>
            simp only [process, hpick]
            exact h.registered
        | some entry =>
            obtain ⟨-, -, -, -, -, -, hlist⟩ := process_spec api hpick env
            exact hlist ▸ h.registered

theorem fsmOf_eq (m : Netmgr ρ) : fsmOf m = ((m.current.map face).map Prod.fst).getD .s0 := by
  unfold fsmOf
  cases m.current <;> rfl

theorem mem_successors_self (s : State) : s ∈ successors s := by
  cases s <;> exact List.mem_cons_self

/-- What a step of the manager tells, whatever the call. -/
structure Tells (api : RetryApi ρ) (m : Netmgr ρ) (op : Op) : Prop where
  shows : Shows (step api m op)
  moves : fsmOf (step api m op) ∈ successors (fsmOf m)
  news : ∃ external ∈ shown (fsmOf m), ∃ exhausted,
    (step api m op).dispatched = m.dispatched ++ news external exhausted (fsmOf (step api m op)) (fsmOf m)
  straight : StepsStraightDown api m op ↔
    (State.s4.index ≤ (fsmOf m).index →
      fsmOf (step api m op) = .s0 ∨ (fsmOf m).index ≤ (fsmOf (step api m op)).index)

theorem shown_ne_nil (s : State) : ∃ external, external ∈ shown s := by
  cases s <;> exact ⟨_, List.mem_cons_self⟩

/-- A call that leaves both states and the dispatched events alone. -/
theorem tells_of_same {m : Netmgr ρ} (h : Shows m) {op : Op} (hstraight : StepsStraightDown api m op)
    (hdispatched : (step api m op).dispatched = m.dispatched)
    (hface : (step api m op).current.map face = m.current.map face) : Tells api m op := by
  have hfsm : fsmOf (step api m op) = fsmOf m := by
    rw [fsmOf_eq, fsmOf_eq, hface]
  obtain ⟨external, hexternal⟩ := shown_ne_nil (fsmOf m)
  refine ⟨⟨?_, registered_step h op⟩, ?_, ⟨external, hexternal, false, ?_⟩, ?_⟩
  · intro entry hcurrent
    rw [hcurrent] at hface
    obtain ⟨entry', hcurrent', hsame⟩ := Option.map_eq_some_iff.1 hface.symm
    have hshows := h.current entry' hcurrent'
    simp only [face, Prod.mk.injEq] at hsame
    rwa [← hsame.1, ← hsame.2]
  · rw [hfsm]
    exact mem_successors_self _
  · rw [hfsm, news, if_pos rfl, List.append_nil, hdispatched]
  · rw [hfsm]
    exact iff_of_true hstraight fun _ => .inr (Nat.le_refl _)

theorem tells_process {m : Netmgr ρ} (h : Shows m) (env : Surroundings) (hphase : m.phase = .popped)
    {entry : Entry ρ} (hpick : pickNetif m = some entry) : Tells api m (.process env) := by
  obtain ⟨exhausted, entry', hcurrent, htarget, hexternal, hdispatched, -⟩ := process_spec api hpick env
  obtain ⟨hshown, hfsm⟩ := h.pick hpick
  have hstep : step api m (.process env) = { process api env m with phase := .waiting } := by
    simp only [step, hphase]
  have hcurrent' : (step api m (.process env)).current = some entry' := by rw [hstep, ← hcurrent]
  have hfsm' : fsmOf (step api m (.process env)) = entry'.fsm := by rw [fsmOf, hcurrent']
  have hmoves : entry'.fsm ∈ successors entry.fsm := by
    rw [htarget]
    exact target_mem_successors _
  refine ⟨⟨?_, registered_step h _⟩, ?_, ⟨entry.externalState, ?_, exhausted, ?_⟩, ?_⟩
  · intro x hx
    rw [hcurrent', Option.some.injEq] at hx
    subst hx
    rw [hexternal]
    split
    next hstays => rwa [hstays]
    next hmoved => exact eventOf_shown hmoves hmoved exhausted
  · rwa [hfsm', hfsm]
  · rwa [hfsm]
  · rw [hfsm', hfsm, hstep]
    exact hdispatched
  · rw [hfsm', hfsm, htarget]
    refine Iff.trans ?_ (target_straight_iff ⟨m, { entry with ts := env.now }⟩)
    constructor
    · exact fun hguards => hguards hphase entry hpick
    · intro hguards _ entry'' hpick''
      rw [hpick, Option.some.injEq] at hpick''
      exact hpick'' ▸ hguards

theorem tells_step (api : RetryApi ρ) {m : Netmgr ρ} (h : Shows m) (op : Op) : Tells api m op := by
  by_cases hop : ∀ env, op ≠ .process env
  · obtain ⟨hdispatched, hface⟩ := step_of_not_process api m hop
    refine tells_of_same h ?_ hdispatched hface
    cases op with
    | process env => exact absurd rfl (hop env)
    | _ => trivial
  · obtain ⟨env, rfl⟩ := not_forall_not.1 hop
    cases hphase : m.phase with
    | waiting =>
        have hstep : step api m (.process env) = m := by simp only [step, hphase]
        refine tells_of_same h ?_ (by rw [hstep]) (by rw [hstep])
        intro hpopped
        exact absurd (hphase.symm.trans hpopped) (by decide)
    | popped =>
        cases hpick : pickNetif m with
        | none =>
            have hstep : step api m (.process env) = { m with phase := .waiting } := by
              simp only [step, hphase, process, hpick]
            refine tells_of_same h ?_ (by rw [hstep]) (by rw [hstep])
            intro _ entry hentry
            exact absurd (hpick.symm.trans hentry) (by simp)
        | some entry => exact tells_process h env hphase hpick

theorem tellsExactly_iff (api : RetryApi ρ) {m : Netmgr ρ} (h : Shows m) (op : Op) :
    TellsExactly api m op ↔ StepsStraightDown api m op := by
  obtain ⟨-, hmoves, ⟨external, hexternal, exhausted, hnews⟩, hstraight⟩ := tells_step api h op
  rw [hstraight, ← exactNews_iff hmoves hexternal exhausted]
  constructor
  · rintro ⟨new, hnew, hexact⟩
    rw [hnews] at hnew
    rwa [← List.append_cancel_left hnew, delivered_all] at hexact
  · intro hexact
    exact ⟨_, hnews, by rwa [delivered_all]⟩

/-! ### Runs -/

/-- Each connection that was announced is lost at most once. -/
def Balanced (m : Netmgr ρ) : Prop :=
  m.dispatched.count .connected = m.dispatched.count .disconnected + if fsmOf m = .s6 then 1 else 0

theorem balanced_step {m : Netmgr ρ} (h : Shows m) (hbalanced : Balanced m) {op : Op}
    (hstraight : StepsStraightDown api m op) : Balanced (step api m op) := by
  obtain ⟨new, hnew, hexact⟩ := (tellsExactly_iff api h op).2 hstraight
  obtain ⟨-, hmoves, ⟨external, hexternal, exhausted, hnews⟩, -⟩ := tells_step api h op
  have hconnected := count_connected_news hmoves hexternal exhausted
  rw [← List.append_cancel_left (hnew.symm.trans hnews)] at hconnected
  have hdisconnected := hexact.disconnected
  rw [delivered_all] at hdisconnected
  unfold Balanced at hbalanced ⊢
  rw [hnew, List.count_append, List.count_append, hconnected, hdisconnected, hbalanced]
  by_cases hprev : fsmOf m = .s6 <;> by_cases hnext : fsmOf (step api m op) = .s6 <;> simp [hprev, hnext] 

theorem shows_init (healthchkIntervalMs : Nat) : Shows (netmgrInit healthchkIntervalMs : Netmgr ρ) where
  current := fun _ hcurrent => absurd hcurrent (by simp [netmgrInit])
  registered := fun _ hmem => absurd hmem List.not_mem_nil

/-- In a run a subscriber to all events is told what it may be told, and of no more lost connections than connections, exactly when no step from S4 on leads down to S2 or S4. -/
theorem events_exact_iff (api : RetryApi ρ) (healthchkIntervalMs : Nat) (ops : List Op) :
    (EveryStep (step api) (TellsExactly api) (netmgrInit healthchkIntervalMs) ops ∧
        EveryState (step api) (fun m => (delivered maskAllEvents m.dispatched).count .disconnected ≤
          (delivered maskAllEvents m.dispatched).count .connected) (netmgrInit healthchkIntervalMs) ops) ↔
      EveryStep (step api) (StepsStraightDown api) (netmgrInit healthchkIntervalMs) ops := by
  have hiff := everyStep_congr (I := Shows) (fun m op h => (tells_step api h op).shows)
    (fun m op h => tellsExactly_iff api h op) (shows_init healthchkIntervalMs) ops
  rw [hiff]
  refine and_iff_left_of_imp ?_
  intro hstraight
  refine everyState_of_conditional_invariant (I := fun m => Shows m ∧ Balanced m) ?_ ?_ ⟨shows_init _, rfl⟩ hstraight
  · intro m op ⟨hshows, hbalanced⟩ hop
    exact ⟨(tells_step api hshows op).shows, balanced_step hshows hbalanced hop⟩
  · intro m ⟨_, hbalanced⟩
    rw [delivered_all, hbalanced]
    omega

/-- A connected interface reports a lost link. -/
def lostLink : List Op := bringUp ++ [.netifEvent .disconnected, .processEvent]

/-- One lost connection is told twice, and the interface is called disabled while it goes on trying. -/
theorem lost_link_told_twice :
    fsmOf (run (step countingRetry) (netmgrInit 0) lostLink) = .s6 ∧
      fsmOf (step countingRetry (run (step countingRetry) (netmgrInit 0) lostLink) (.process { now := 2000 })) = .s4 ∧
      (step countingRetry (run (step countingRetry) (netmgrInit 0) lostLink) (.process { now := 2000 })).dispatched =
        (run (step countingRetry) (netmgrInit 0) lostLink).dispatched ++ [.disconnected, .disabled, .disconnected] ∧
      ¬ EveryStep (step countingRetry) (TellsExactly countingRetry) (netmgrInit 0)
        (lostLink ++ [.process { now := 2000 }]) := by
  have hnews : (step countingRetry (run (step countingRetry) (netmgrInit 0) lostLink)
        (.process { now := 2000 })).dispatched =
      (run (step countingRetry) (netmgrInit 0) lostLink).dispatched ++ [.disconnected, .disabled, .disconnected] := by
    decide +kernel
  refine ⟨by decide +kernel, by decide +kernel, hnews, ?_⟩
  intro hevery
  obtain ⟨new, hnew, hexact⟩ := hevery.last
  rw [← List.append_cancel_left (hnews.symm.trans hnew)] at hexact
  exact absurd hexact.disconnected (by decide +kernel)

end Evse.Net
