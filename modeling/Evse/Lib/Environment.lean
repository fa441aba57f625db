import Mathlib.Data.Finset.Basic
import Mathlib.Data.List.Basic

/-!
# A program and its environment

A program calls functions of an environment that answers as it likes: an answer may depend on every call so far. The log has the calls with their answers, oldest first. Two things are said of logs: which calls a program makes that goes through a list and stops at the first answer it does not like, and which resources have been taken and not returned.
-/

namespace Environment

variable {C R : Type*}

abbrev Log (C R : Type*) := List (C × R)

/-- One call. -/
def ask (env : Log C R → C → R) (c : C) (log : Log C R) : R × Log C R := (env log c, log ++ [(c, env log c)])

variable (env : Log C R → C → R)

@[simp] theorem ask_snd (c : C) (log : Log C R) : (ask env c log).2 = log ++ [(c, (ask env c log).1)] := rfl

theorem prefix_ask (c : C) (log : Log C R) : log <+: (ask env c log).2 := List.prefix_append _ _

/-! ### Calls in order -/

section InOrder

/-- Make the calls of a list until an answer stops it. -/
def askUntil (stops : R → Bool) : List C → Log C R → Option R × Log C R
  | [], log => (none, log)
  | c :: cs, log =>
      if stops (ask env c log).1 then (some (ask env c log).1, (ask env c log).2)
      else askUntil stops cs (ask env c log).2

/-- The first calls of the list have been made, in order: all of them if none was stopped by its answer, else those up to the first that was. -/
def InOrder (stops : R → Bool) (cs : List C) (log : Log C R) (result : Option R × Log C R) : Prop :=
  ∃ answered : Log C R, result.2 = log ++ answered ∧
    match result.1 with
    | none => answered.map Prod.fst = cs ∧ ∀ entry ∈ answered, stops entry.2 = false
    | some r => ∃ before c, answered = before ++ [(c, r)] ∧ answered.map Prod.fst <+: cs ∧ stops r = true ∧
        ∀ entry ∈ before, stops entry.2 = false

variable {stops : R → Bool}

theorem inOrder_askUntil (cs : List C) (log : Log C R) : InOrder stops cs log (askUntil env stops cs log) := by
  induction cs generalizing log with
  | nil => exact ⟨[], (List.append_nil log).symm, rfl, fun _ hentry => absurd hentry List.not_mem_nil⟩
  | cons c cs ih =>
      rw [askUntil]
      split
      · rename_i hstop
        exact ⟨[(c, (ask env c log).1)], rfl, [], c, rfl, List.prefix_append [c] cs, hstop,
          fun _ hentry => absurd hentry List.not_mem_nil⟩
      · rename_i hgo
        rw [Bool.not_eq_true] at hgo
        obtain ⟨answered, hlog, hrest⟩ := ih (ask env c log).2
        refine ⟨(c, (ask env c log).1) :: answered, by rw [hlog, ask_snd, List.append_assoc]; rfl, ?_⟩
        cases hresult : (askUntil env stops cs (ask env c log).2).1 with
        | none =>
            rw [hresult] at hrest
            exact ⟨congrArg (c :: ·) hrest.1, List.forall_mem_cons.2 ⟨hgo, hrest.2⟩⟩
        | some r =>
            rw [hresult] at hrest
            obtain ⟨before, last, rfl, hfirst, hstop, hbefore⟩ := hrest
            exact ⟨(c, (ask env c log).1) :: before, last, rfl, List.cons_prefix_cons.2 ⟨rfl, hfirst⟩, hstop,
              List.forall_mem_cons.2 ⟨hgo, hbefore⟩⟩

end InOrder

/-! ### Resources -/

section Resources

/-- What an answered call does to a resource. -/
inductive Use where
  | takes (id : Nat)
  | returns (id : Nat)
  | neither

def Use.apply (held : Finset Nat) : Use → Finset Nat
  | .takes id => insert id held
  | .returns id => held.erase id
  | .neither => held

/-- What has been taken and not been returned. -/
def held (use : C × R → Use) (log : Log C R) : Finset Nat := log.foldl (fun held entry => (use entry).apply held) ∅

variable {use : C × R → Use}

theorem held_ask (c : C) (log : Log C R) :
    held use (ask env c log).2 = (use (c, (ask env c log).1)).apply (held use log) := by
  rw [ask_snd, held, List.foldl_append, ← held]
  rfl

end Resources

end Environment
