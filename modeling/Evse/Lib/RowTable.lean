import Mathlib.Data.List.Basic

/-!
# Table-driven state machines

A machine is a list of rows. A row names the state it applies in, a guard, an action and the state it leads to. One step takes the first row whose state is the present one and whose guard holds, at most one row a step; the action already sees the new state, and a callback runs afterwards when the state changed.

`move` is the step as the chain of the guards of one state, which is how the order of the rows of a concrete table enters a proof.
-/

namespace RowTable

structure Row (σ γ : Type*) where
  present : σ
  guard : σ → σ → γ → Bool
  action : Option (σ → σ → γ → γ)
  next : σ

structure Machine (σ γ : Type*) where
  rows : List (Row σ γ)
  state : γ → σ
  setState : σ → γ → γ
  /-- Called with the new and the previous state. -/
  stateChanged : σ → σ → γ → γ

variable {σ γ : Type*} [DecidableEq σ]

def select (s : σ) (c : γ) : List (Row σ γ) → Option (Row σ γ)
  | [] => none
  | row :: rows =>
      if row.present = s ∧ row.guard row.present row.next c = true then some row else select s c rows

/-- Run the action of a row; a row may have none. -/
def Row.perform (row : Row σ γ) (c : γ) : γ :=
  match row.action with
  | none => c
  | some action => action row.present row.next c

namespace Machine

variable (m : Machine σ γ)

def fire (row : Row σ γ) (c : γ) : γ :=
  let moved := row.perform (m.setState row.next c)
  if row.next = row.present then moved else m.stateChanged row.next row.present moved

def step (c : γ) : γ :=
  match select (m.state c) c m.rows with
  | none => c
  | some row => m.fire row c

theorem select_eq_some {s : σ} {c : γ} {row : Row σ γ} {rows : List (Row σ γ)} (h : select s c rows = some row) :
    row ∈ rows ∧ row.present = s ∧ row.guard row.present row.next c = true := by
  induction rows with
  | nil => exact absurd h (by simp [select])
  | cons head rows ih =>
      by_cases hhead : head.present = s ∧ head.guard head.present head.next c = true
      · rw [select, if_pos hhead, Option.some.injEq] at h
        subst h
        exact ⟨List.mem_cons_self, hhead⟩
      · rw [select, if_neg hhead] at h
        exact ⟨List.mem_cons_of_mem _ (ih h).1, (ih h).2⟩

/-- A step does nothing or fires a row of the present state whose guard holds. -/
theorem step_cases (c : γ) :
    m.step c = c ∨
      ∃ row ∈ m.rows, row.present = m.state c ∧ row.guard row.present row.next c = true ∧ m.step c = m.fire row c := by
  unfold step
  cases hselect : select (m.state c) c m.rows with
  | none => exact .inl rfl
  | some row =>
      obtain ⟨hmem, hpresent, hguard⟩ := select_eq_some hselect
      exact .inr ⟨row, hmem, hpresent, hguard, rfl⟩

/-- The step without its callback, as a chain of the guards of the state `s`. -/
def move (s : σ) (c : γ) : List (Row σ γ) → γ
  | [] => c
  | row :: rows =>
      if row.present = s ∧ row.guard row.present row.next c = true then row.perform (m.setState row.next c)
      else move s c rows

/-- What the callback does not touch can be read off the chain of guards. -/
theorem step_eq_move {α : Type*} (p : γ → α)
    (hchanged : ∀ new prev c, p (m.stateChanged new prev c) = p c) (c : γ) :
    p (m.step c) = p (m.move (m.state c) c m.rows) := by
  have hfire : ∀ row, p (m.fire row c) = p (row.perform (m.setState row.next c)) := by
    intro row
    simp only [fire]
    split
    · rfl
    · exact hchanged _ _ _
  unfold step
  generalize m.state c = s
  induction m.rows with
  | nil => rfl
  | cons row rows ih =>
      by_cases h : row.present = s ∧ row.guard row.present row.next c = true
      · simp only [select, move, if_pos h, hfire]
      · simp only [select, move, if_neg h, ih]

/-- With actions that leave the state alone, the callback runs exactly when the chain of guards leads to another state. -/
theorem step_eq (hstate : ∀ row ∈ m.rows, ∀ c, m.state (row.perform (m.setState row.next c)) = row.next) (c : γ) :
    m.step c =
      if m.state (m.move (m.state c) c m.rows) = m.state c then m.move (m.state c) c m.rows
      else m.stateChanged (m.state (m.move (m.state c) c m.rows)) (m.state c) (m.move (m.state c) c m.rows) := by
  unfold step
  generalize hs : m.state c = s
  generalize m.rows = rows at hstate
  induction rows with
  | nil => simp only [select, move, hs, if_true]
  | cons row rows ih =>
      by_cases h : row.present = s ∧ row.guard row.present row.next c = true
      · have hnext := hstate row List.mem_cons_self c
        obtain ⟨rfl, hguard⟩ := h
        simp only [select, move, hguard, and_self, if_true, fire, hnext]
      · simp only [select, move, if_neg h]
        exact ih fun row hrow => hstate row (List.mem_cons_of_mem _ hrow)

/-- The state the first row leads to whose state is `s` and whose guard holds. -/
def leadsTo (s : σ) (c : γ) : List (Row σ γ) → σ
  | [] => s
  | row :: rows =>
      if row.present = s ∧ row.guard row.present row.next c = true then row.next else leadsTo s c rows

/-- With actions and a callback that leave the state alone, the guards alone decide where a step leads. -/
theorem state_step (hstate : ∀ row ∈ m.rows, ∀ c, m.state (row.perform (m.setState row.next c)) = row.next)
    (hchanged : ∀ new prev c, m.state (m.stateChanged new prev c) = m.state c) (c : γ) :
    m.state (m.step c) = leadsTo (m.state c) c m.rows := by
  rw [m.step_eq_move m.state hchanged]
  generalize hs : m.state c = s
  generalize m.rows = rows at hstate
  induction rows with
  | nil => exact hs
  | cons row rows ih =>
      simp only [move, leadsTo]
      split
      · exact hstate row List.mem_cons_self c
      · exact ih fun row hrow => hstate row (List.mem_cons_of_mem _ hrow)

/-- What no action touches, and neither the callback nor the change of state, a step leaves alone. -/
theorem step_frame {α : Type*} (p : γ → α) (hset : ∀ s c, p (m.setState s c) = p c)
    (hchanged : ∀ new prev c, p (m.stateChanged new prev c) = p c)
    (hrows : ∀ row ∈ m.rows, ∀ c, p (row.perform c) = p c) (c : γ) : p (m.step c) = p c := by
  rw [m.step_eq_move p hchanged]
  generalize m.state c = s
  generalize m.rows = rows at hrows
  induction rows with
  | nil => rfl
  | cons row rows ih =>
      rw [move]
      split
      · rw [hrows row List.mem_cons_self, hset]
      · exact ih fun row hrow => hrows row (List.mem_cons_of_mem _ hrow)

end Machine

end RowTable
