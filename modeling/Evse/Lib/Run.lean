import Mathlib.Data.List.Basic

/-!
# Runs of a step function

A deterministic system is a step function `step : σ → ε → σ` from a state and an input to the next state. This module says what it means for a property to hold along a run, either of every state or of every step taken, and gives the induction rules: an invariant is checked on one step, and a claim about runs follows.
-/

namespace StepRun

variable {σ ε : Type*} (step : σ → ε → σ)

/-- The state a list of inputs leads to. -/
def run (s : σ) (evs : List ε) : σ := evs.foldl step s

/-- `P` holds of every step of the run: of the state the step starts from and of its input. -/
def EveryStep (P : σ → ε → Prop) : σ → List ε → Prop
  | _, [] => True
  | s, e :: evs => P s e ∧ EveryStep P (step s e) evs

/-- `P` holds of every state of the run, the first and the last included. -/
def EveryState (P : σ → Prop) : σ → List ε → Prop
  | s, [] => P s
  | s, e :: evs => P s ∧ EveryState P (step s e) evs

/-- What the steps of the run put out, each from its state and its input. -/
def outputs {ρ : Type*} (out : σ → ε → ρ) : σ → List ε → List ρ
  | _, [] => []
  | s, e :: evs => out s e :: outputs out (step s e) evs

/-- How many steps of the run have the property `P`. -/
def countSteps (P : σ → ε → Bool) : σ → List ε → Nat
  | _, [] => 0
  | s, e :: evs => (P s e).toNat + countSteps P (step s e) evs

instance instDecidableEveryStep (P : σ → ε → Prop) [hP : ∀ s e, Decidable (P s e)] :
    ∀ (s : σ) (evs : List ε), Decidable (EveryStep step P s evs)
  | _, [] => isTrue trivial
  | s, e :: evs =>
      have := instDecidableEveryStep P (step s e) evs
      inferInstanceAs (Decidable (P s e ∧ EveryStep step P (step s e) evs))

instance instDecidableEveryState (P : σ → Prop) [hP : ∀ s, Decidable (P s)] :
    ∀ (s : σ) (evs : List ε), Decidable (EveryState step P s evs)
  | s, [] => hP s
  | s, e :: evs =>
      have := instDecidableEveryState P (step s e) evs
      inferInstanceAs (Decidable (P s ∧ EveryState step P (step s e) evs))

@[simp] theorem run_nil (s : σ) : run step s [] = s := rfl

@[simp] theorem run_cons (s : σ) (e : ε) (evs : List ε) :
    run step s (e :: evs) = run step (step s e) evs := rfl

theorem run_append (s : σ) (evs evs' : List ε) : run step s (evs ++ evs') = run step (run step s evs) evs' :=
  List.foldl_append

variable {step}

/-! ### Invariants -/

theorem run_invariant {I : σ → Prop} (hstep : ∀ s e, I s → I (step s e)) {s : σ} (hs : I s)
    (evs : List ε) : I (run step s evs) := by
  induction evs generalizing s with
  | nil => exact hs
  | cons e evs ih => exact ih (hstep s e hs)

/-- The same for an invariant that survives only steps that meet the condition `C`. -/
theorem run_conditional_invariant {I : σ → Prop} {C : σ → ε → Prop} (hstep : ∀ s e, I s → C s e → I (step s e))
    {s : σ} (hs : I s) {evs : List ε} (hC : EveryStep step C s evs) : I (run step s evs) := by
  induction evs generalizing s with
  | nil => exact hs
  | cons e evs ih => exact ih (hstep s e hs hC.1) hC.2

/-- A property of steps that each step has under an invariant. -/
theorem everyStep_of_invariant {I : σ → Prop} {P : σ → ε → Prop} (hstep : ∀ s e, I s → I (step s e))
    (hP : ∀ s e, I s → P s e) {s : σ} (hs : I s) (evs : List ε) : EveryStep step P s evs := by
  induction evs generalizing s with
  | nil => trivial
  | cons e evs ih => exact ⟨hP s e hs, ih (hstep s e hs)⟩

/-- The same where the invariant itself survives only steps that meet the condition `C`. -/
theorem everyStep_of_conditional_invariant {I : σ → Prop} {C P : σ → ε → Prop}
    (hstep : ∀ s e, I s → C s e → I (step s e)) (hP : ∀ s e, I s → C s e → P s e) {s : σ} (hs : I s)
    {evs : List ε} (hC : EveryStep step C s evs) : EveryStep step P s evs := by
  induction evs generalizing s with
  | nil => trivial
  | cons e evs ih => exact ⟨hP s e hs hC.1, ih (hstep s e hs hC.1) hC.2⟩

/-- A property of states that each state has under such an invariant. -/
theorem everyState_of_conditional_invariant {I P : σ → Prop} {C : σ → ε → Prop}
    (hstep : ∀ s e, I s → C s e → I (step s e)) (hP : ∀ s, I s → P s) {s : σ} (hs : I s) {evs : List ε}
    (hC : EveryStep step C s evs) : EveryState step P s evs := by
  induction evs generalizing s with
  | nil => exact hP s hs
  | cons e evs ih => exact ⟨hP s hs, ih (hstep s e hs hC.1) hC.2⟩

theorem length_outputs {ρ : Type*} (out : σ → ε → ρ) (s : σ) (evs : List ε) :
    (outputs step out s evs).length = evs.length := by
  induction evs generalizing s with
  | nil => rfl
  | cons e evs ih => exact congrArg Nat.succ (ih (step s e))

/-- An output is that of the state which the inputs before it lead to. -/
theorem getElem?_outputs {ρ : Type*} (out : σ → ε → ρ) (s : σ) (evs : List ε) (i : Nat) :
    (outputs step out s evs)[i]? = evs[i]?.map (out (run step s (evs.take i))) := by
  induction evs generalizing s i with
  | nil => rfl
  | cons e evs ih =>
      cases i with
      | zero => rfl
      | succ i => exact ih (step s e) i

/-- A condition on the inputs alone. -/
theorem everyStep_of_forall_mem {Q : ε → Prop} (s : σ) {evs : List ε} (hevs : ∀ e ∈ evs, Q e) :
    EveryStep step (fun _ e => Q e) s evs := by
  induction evs generalizing s with
  | nil => trivial
  | cons e evs ih =>
      obtain ⟨he, hevs⟩ := List.forall_mem_cons.1 hevs
      exact ⟨he, ih (step s e) hevs⟩

/-! ### Counting steps -/

/-- A counter that grows by one for each step that has `P` and for each that has `Q` counts both. -/
theorem counter_eq_countSteps {f : σ → Nat} {P Q : σ → ε → Bool}
    (hf : ∀ s e, f (step s e) = f s + (P s e).toNat + (Q s e).toNat) (s : σ) (evs : List ε) :
    f (run step s evs) = f s + countSteps step P s evs + countSteps step Q s evs := by
  induction evs generalizing s with
  | nil => rfl
  | cons e evs ih =>
      have hstep := hf s e
      have hrest := ih (step s e)
      rw [run_cons, hrest, hstep, countSteps, countSteps]
      omega

/-- A rank that no step raises and each step with `P` lowers is down by as many as there were of these, or at 0. -/
theorem rank_run_le {I : σ → Prop} {C : σ → ε → Prop} {P : σ → ε → Bool} {rank : σ → Nat}
    (hstep : ∀ s e, I s → C s e → I (step s e)) (hrank : ∀ s e, I s → C s e → rank (step s e) ≤ rank s - (P s e).toNat)
    {s : σ} (hs : I s) {evs : List ε} (h : EveryStep step C s evs) :
    rank (run step s evs) ≤ rank s - countSteps step P s evs := by
  induction evs generalizing s with
  | nil => exact Nat.le_refl _
  | cons e evs ih =>
      have hfirst := hrank s e hs h.1
      have hrest := ih (hstep s e hs h.1) h.2
      rw [run_cons, countSteps]
      omega

/-- Under the invariant `I` and on inputs with `Q`, a step that has `P` leads to a state without a further such step. -/
theorem countSteps_le_one {P : σ → ε → Bool} {I J : σ → Prop} {Q : ε → Prop}
    (hstep : ∀ s e, Q e → I s → I (step s e)) (henter : ∀ s e, Q e → I s → P s e = true → J (step s e))
    (hstay : ∀ s e, Q e → I s → J s → J (step s e)) (hnone : ∀ s e, Q e → I s → J s → P s e = false) {s : σ}
    (hs : I s) {evs : List ε} (hevs : ∀ e ∈ evs, Q e) : countSteps step P s evs ≤ 1 := by
  have hzero : ∀ (evs : List ε) (s : σ), (∀ e ∈ evs, Q e) → I s → J s → countSteps step P s evs = 0 := by
    intro evs
    induction evs with
    | nil => exact fun _ _ _ _ => rfl
    | cons e evs ih =>
        intro s hevs hs hJ
        obtain ⟨he, hevs⟩ := List.forall_mem_cons.1 hevs
        rw [countSteps, hnone s e he hs hJ, ih (step s e) hevs (hstep s e he hs) (hstay s e he hs hJ)]
        rfl
  induction evs generalizing s with
  | nil => exact Nat.zero_le 1
  | cons e evs ih =>
      obtain ⟨he, hevs⟩ := List.forall_mem_cons.1 hevs
      rw [countSteps]
      cases hP : P s e with
      | false =>
          rw [Bool.toNat_false, Nat.zero_add]
          exact ih (hstep s e he hs) hevs
      | true =>
          rw [hzero evs (step s e) hevs (hstep s e he hs) (henter s e he hs hP)]
          exact Nat.le_refl 1

/-- The last step of a run. -/
theorem EveryStep.last {P : σ → ε → Prop} {s : σ} {evs : List ε} {e : ε}
    (h : EveryStep step P s (evs ++ [e])) : P (run step s evs) e := by
  induction evs generalizing s with
  | nil => exact h.1
  | cons e' evs ih => exact ih h.2

theorem EveryState.first {P : σ → Prop} {s : σ} {evs : List ε} (h : EveryState step P s evs) : P s := by
  cases evs with
  | nil => exact h
  | cons => exact h.1

theorem EveryState.last {P : σ → Prop} {s : σ} {evs : List ε} (h : EveryState step P s evs) :
    P (run step s evs) := by
  induction evs generalizing s with
  | nil => exact h
  | cons e evs ih => exact ih h.2

/-- A run in two parts. -/
theorem everyStep_append {P : σ → ε → Prop} {s : σ} {evs evs' : List ε} :
    EveryStep step P s (evs ++ evs') ↔ EveryStep step P s evs ∧ EveryStep step P (run step s evs) evs' := by
  induction evs generalizing s with
  | nil => exact (and_iff_right trivial).symm
  | cons e evs ih =>
      rw [List.cons_append, EveryStep, EveryStep, ih, and_assoc]
      exact Iff.rfl

theorem EveryStep.and {P Q : σ → ε → Prop} {s : σ} {evs : List ε} (hP : EveryStep step P s evs)
    (hQ : EveryStep step Q s evs) : EveryStep step (fun s e => P s e ∧ Q s e) s evs := by
  induction evs generalizing s with
  | nil => trivial
  | cons e evs ih => exact ⟨⟨hP.1, hQ.1⟩, ih hP.2 hQ.2⟩

/-! ### Two runs side by side -/

/-- A change `f` of the state that each step commutes with, under an invariant and on inputs with `Q`, changes the last state of a run in the same way and leaves the outputs as they are. -/
theorem run_commute {ρ : Type*} {out : σ → ε → ρ} {f : σ → σ} {I : σ → Prop} {Q : ε → Prop}
    (hstep : ∀ s e, Q e → I s → I (step s e))
    (hf : ∀ s e, Q e → I s → step (f s) e = f (step s e) ∧ out (f s) e = out s e) {s : σ} (hs : I s) {evs : List ε}
    (hevs : ∀ e ∈ evs, Q e) :
    run step (f s) evs = f (run step s evs) ∧ outputs step out (f s) evs = outputs step out s evs := by
  induction evs generalizing s with
  | nil => exact ⟨rfl, rfl⟩
  | cons e evs ih =>
      obtain ⟨he, hevs⟩ := List.forall_mem_cons.1 hevs
      obtain ⟨hnext, hout⟩ := hf s e he hs
      obtain ⟨hrun, houtputs⟩ := ih (hstep s e he hs) hevs
      rw [run_cons, run_cons, outputs, outputs, hnext, hout, houtputs]
      exact ⟨hrun, rfl⟩

/-- An input with `Q` makes the outputs of two runs differ if it does so in every two states of theirs. -/
theorem outputs_ne_of_mem {ρ : Type*} {out : σ → ε → ρ} {I J : σ → Prop} {Q : ε → Prop}
    (hI : ∀ s e, I s → I (step s e)) (hJ : ∀ s e, J s → J (step s e))
    (hne : ∀ s s' e, I s → J s' → Q e → out s e ≠ out s' e) {s s' : σ} (hs : I s) (hs' : J s') {evs : List ε} {e : ε}
    (he : e ∈ evs) (hQ : Q e) : outputs step out s evs ≠ outputs step out s' evs := by
  induction evs generalizing s s' with
  | nil => exact absurd he List.not_mem_nil
  | cons e' evs ih =>
      intro hsame
      rw [outputs, outputs, List.cons.injEq] at hsame
      cases List.mem_cons.1 he with
      | inl heq => exact hne s s' e' hs hs' (heq ▸ hQ) hsame.1
      | inr hmem => exact ih (hI s e' hs) (hJ s' e' hs') hmem hsame.2

/-! ### Exchanging a property of a run for a condition on its steps -/

theorem everyStep_congr {I : σ → Prop} (hstep : ∀ s e, I s → I (step s e)) {P Q : σ → ε → Prop}
    (hiff : ∀ s e, I s → (P s e ↔ Q s e)) {s : σ} (hs : I s) (evs : List ε) :
    EveryStep step P s evs ↔ EveryStep step Q s evs := by
  induction evs generalizing s with
  | nil => exact Iff.rfl
  | cons e evs ih => exact and_congr (hiff s e hs) (ih (hstep s e hs))

/-- If from a state with `P` a step keeps `P` exactly when it meets the condition `C`, then `P` holds along a run exactly when every step of the run meets `C`. The invariant `I` may be used for both, and a condition `Q` on the inputs. -/
theorem everyState_iff_everyStep_of_mem {I P : σ → Prop} {C : σ → ε → Prop} {Q : ε → Prop}
    (hstep : ∀ s e, Q e → I s → I (step s e)) (hiff : ∀ s e, Q e → I s → P s → (P (step s e) ↔ C s e)) {evs : List ε}
    (hevs : ∀ e ∈ evs, Q e) {s : σ} (hI : I s) (hs : P s) :
    EveryState step P s evs ↔ EveryStep step C s evs := by
  induction evs generalizing s with
  | nil => exact iff_of_true hs trivial
  | cons e evs ih =>
      obtain ⟨he, hevs⟩ := List.forall_mem_cons.1 hevs
      constructor
      · intro h
        have hC := (hiff s e he hI hs).1 h.2.first
        exact ⟨hC, (ih hevs (hstep s e he hI) h.2.first).1 h.2⟩
      · intro h
        have hP := (hiff s e he hI hs).2 h.1
        exact ⟨hs, (ih hevs (hstep s e he hI) hP).2 h.2⟩

theorem everyState_iff_everyStep {I P : σ → Prop} {C : σ → ε → Prop}
    (hstep : ∀ s e, I s → I (step s e)) (hiff : ∀ s e, I s → P s → (P (step s e) ↔ C s e)) {s : σ}
    (hI : I s) (hs : P s) (evs : List ε) :
    EveryState step P s evs ↔ EveryStep step C s evs :=
  everyState_iff_everyStep_of_mem (Q := fun _ => True) (fun s e _ => hstep s e) (fun s e _ => hiff s e)
    (fun _ _ => trivial) hI hs

end StepRun
