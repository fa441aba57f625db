import Mathlib.Logic.Basic
import Mathlib.Data.List.Basic

/-!
# Functions that may fail

A C function that reports an error returns; one that reads through a null pointer does not. `Safely` is the weakest precondition for not reading through one: it asks for nothing if an error is returned, and for `post` if the function comes to its end.
-/

namespace Fallible

/-- How a function ends early. -/
inductive Fault (ε : Type)
  | errno (e : ε)
  | nullDereference
  deriving DecidableEq, Repr

variable {ε α β : Type}

abbrev Result (ε α : Type) := Except (Fault ε) α

/-- Return with an error unless the condition holds. -/
def require (cond : Prop) [Decidable cond] (e : ε) : Result ε Unit := if cond then .ok () else .error (.errno e)

/-- Read what a pointer points to. -/
def deref (p : Option α) : Result ε α :=
  match p with
  | none => .error .nullDereference
  | some a => .ok a

/-- Do something with what a pointer points to unless it is null. -/
def unlessNull (p : Option α) (f : α → Result ε β) : Result ε (Option β) :=
  match p with
  | none => .ok none
  | some a => (f a).map some

def Safely (x : Result ε α) (post : α → Prop) : Prop :=
  match x with
  | .ok a => post a
  | .error (.errno _) => True
  | .error .nullDereference => False

variable {x : Result ε α} {post : α → Prop}

@[simp] theorem safely_pure {a : α} : Safely (pure a : Result ε α) post ↔ post a := Iff.rfl

@[simp] theorem safely_bind {f : α → Result ε β} {post : β → Prop} :
    Safely (x >>= f) post ↔ Safely x fun a => Safely (f a) post := by
  cases x with
  | ok a => exact Iff.rfl
  | error fault => cases fault <;> exact Iff.rfl

@[simp] theorem safely_map {f : α → β} {post : β → Prop} : Safely (x.map f) post ↔ Safely x fun a => post (f a) := by
  cases x with
  | ok a => exact Iff.rfl
  | error fault => cases fault <;> exact Iff.rfl

@[simp] theorem safely_require {cond : Prop} [Decidable cond] {e : ε} {post : Unit → Prop} :
    Safely (require cond e) post ↔ (cond → post ()) := by
  by_cases h : cond
  · simp [require, Safely, h]
  · simp [require, Safely, h]

@[simp] theorem safely_errno {e : ε} : Safely (.error (.errno e) : Result ε α) post := trivial

@[simp] theorem safely_deref {p : Option α} : Safely (deref p : Result ε α) post ↔ ∃ a, p = some a ∧ post a := by
  cases p with
  | none => simp [deref, Safely]
  | some a => simp [deref, Safely]

@[simp] theorem safely_unlessNull {p : Option α} {f : α → Result ε β} {post : Option β → Prop} :
    Safely (unlessNull p f) post ↔
      (p = none → post none) ∧ ∀ a, p = some a → Safely (f a) fun b => post (some b) := by
  cases p with
  | none => simp [unlessNull, Safely]
  | some a => simp [unlessNull]

/-- Reading through each of a list of pointers. -/
@[simp] theorem safely_mapM_deref {ps : List (Option α)} {post : List α → Prop} :
    Safely (ps.mapM deref : Result ε (List α)) post ↔ ∃ as, ps = as.map some ∧ post as := by
  induction ps generalizing post with
  | nil =>
    rw [List.mapM_nil, safely_pure]
    constructor
    · intro h
      exact ⟨[], rfl, h⟩
    · rintro ⟨as, has, h⟩
      rwa [List.map_eq_nil_iff.1 has.symm] at h
  | cons p ps ih =>
    simp only [List.mapM_cons, safely_bind, safely_deref, safely_pure, ih]
    constructor
    · rintro ⟨a, rfl, as, rfl, h⟩
      exact ⟨a :: as, rfl, h⟩
    · rintro ⟨as, has, h⟩
      cases as with
      | nil => simp at has
      | cons a as =>
        obtain ⟨rfl, rfl⟩ := List.cons.inj has
        exact ⟨a, rfl, as, rfl, h⟩

end Fallible
