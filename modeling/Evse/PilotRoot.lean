import Evse.PilotMeasure

/-!
# The integer root, turn by turn

The loop of `sqrt_u32` ends when its divisor is no longer above the quotient. The divisor is never below the root and comes down in every turn, so the loop ends with the root, unless the sum that is halved wraps. Only the sum of the first turn can, and only for the largest value: it wraps to 0, which is then divided by.
-/

namespace Evse.ControlPilot

open Deviation

/-- Where the loop of `sqrt_u32` is. A division by zero has no outcome. -/
inductive RootState where
  | looping (x y : Nat)
  | returned (root : Nat)
  | dividedByZero
  deriving DecidableEq

/-- The check of the loop, and its body if the loop goes on. -/
def rootTurn (val : Nat) : RootState → RootState
  | .looping x y =>
      if x > y then
        let x := (x + y) % 2 ^ 32 / 2
        if x = 0 then .dividedByZero else .looping x (val / x)
      else .returned x
  | s => s

/-- `sqrt_u32` after so many turns. -/
def rootAfter (val : Nat) : Nat → RootState
  | 0 => if val = 0 then .returned 0 else .looping val 1
  | turns + 1 => rootTurn val (rootAfter val turns)

/-! ### The invariant -/

/-- Where the loop may be after so many turns. The divisor is positive, not below the root, and has come down in every turn. -/
def RootInvariant (val turns : Nat) : RootState → Prop
  | .looping x y => 0 < x ∧ y = val / x ∧ Nat.sqrt val ≤ x ∧ x + turns ≤ val
  | .returned root => root = Nat.sqrt val
  | .dividedByZero => False

variable {val turns : Nat}

theorem rootInvariant_turn (hval : val < 2 ^ 32 - 1) {s : RootState} (h : RootInvariant val turns s) :
    RootInvariant val (turns + 1) (rootTurn val s) := by
  cases s with
  | looping x y =>
      obtain ⟨hx, rfl, hroot, hturns⟩ := h
      rw [rootTurn]
      split_ifs with hgoes
      · have hsum := add_div_le hx (Nat.le_of_add_right_le hturns)
        have hquotient : 0 < val / x := Nat.div_pos (Nat.le_of_add_right_le hturns) hx
        have hnext : (x + val / x) % 2 ^ 32 / 2 = (x + val / x) / 2 := by
          rw [Nat.mod_eq_of_lt (by omega)]
        have hpos : (x + val / x) / 2 ≠ 0 := by omega
        dsimp only
        rw [hnext, if_neg hpos]
        exact ⟨Nat.pos_of_ne_zero hpos, rfl, sqrt_le_newton hx, by omega⟩
      · exact eq_sqrt_of_newton hx hroot (Nat.le_of_not_gt hgoes)
  | returned root => exact h
  | dividedByZero => exact h

theorem rootInvariant_after (hval : val < 2 ^ 32 - 1) (turns : Nat) : RootInvariant val turns (rootAfter val turns) := by
  induction turns with
  | zero =>
      rw [rootAfter]
      split_ifs with hzero
      · rw [hzero]
        exact Nat.sqrt_zero.symm
      · have hpos := Nat.pos_of_ne_zero hzero
        exact ⟨hpos, (Nat.div_self hpos).symm, Nat.sqrt_le_self val, Nat.le_refl val⟩
  | succ turns ih => exact rootInvariant_turn hval ih

/-- There are no more turns than the divisor can come down. -/
theorem exists_returned (hval : val < 2 ^ 32 - 1) : ∃ turns, rootAfter val turns = .returned (Nat.sqrt val) := by
  refine ⟨val + 1, ?_⟩
  have hinvariant := rootInvariant_after hval (val + 1)
  cases hstate : rootAfter val (val + 1) with
  | looping x y =>
      rw [hstate] at hinvariant
      obtain ⟨hx, -, -, hturns⟩ := hinvariant
      omega
  | returned root =>
      rw [hstate] at hinvariant
      exact congrArg RootState.returned hinvariant
  | dividedByZero =>
      rw [hstate] at hinvariant
      exact hinvariant.elim

theorem not_dividedByZero (hval : val < 2 ^ 32 - 1) (turns : Nat) : rootAfter val turns ≠ .dividedByZero := by
  intro hstate
  have hinvariant := rootInvariant_after hval turns
  rw [hstate] at hinvariant
  exact hinvariant

/-! ### What the loop returns -/

/-- The loop returns the root and never divides by zero, for every value but the largest. -/
theorem sqrt_u32_iff (val : UInt32) :
    ((∃ turns, rootAfter val.toNat turns = .returned (Nat.sqrt val.toNat)) ∧
        ∀ turns, rootAfter val.toNat turns ≠ .dividedByZero) ↔
      val ≠ 4294967295 := by
  constructor
  · rintro ⟨-, hsafe⟩ rfl
    exact hsafe 1 (by decide)
  · intro hne
    have hlt : val.toNat < 2 ^ 32 - 1 := by
      have hbound := val.toNat_lt
      have hdiffers : val.toNat ≠ 4294967295 := fun heq => hne (UInt32.toNat_inj.1 heq)
      omega
    exact ⟨exists_returned hlt, not_dividedByZero hlt⟩

/-- For the largest value, whose root is 65535, the first turn divides by zero. -/
theorem sqrt_u32_divides_by_zero :
    rootAfter (4294967295 : UInt32).toNat 1 = .dividedByZero ∧
      ∀ turns, rootAfter (4294967295 : UInt32).toNat turns ≠ .returned 65535 := by
  have hstuck : ∀ turns, rootAfter (4294967295 : UInt32).toNat (turns + 1) = .dividedByZero := by
    intro turns
    induction turns with
    | zero => decide
    | succ turns ih =>
        rw [rootAfter, ih]
        rfl
  refine ⟨hstuck 0, fun turns => ?_⟩
  cases turns with
  | zero => decide
  | succ turns =>
      rw [hstuck turns]
      exact RootState.noConfusion

/-! ### The only caller -/

/-- What is left to do computes what the loop as a function does. -/
def RootState.Computes (val : Nat) : RootState → Prop
  | .looping x y => sqrtU32 val = sqrtLoop val x y
  | .returned root => sqrtU32 val = root
  | .dividedByZero => True

theorem RootState.Computes.turn {s : RootState} (h : s.Computes val) : (rootTurn val s).Computes val := by
  cases s with
  | looping x y =>
      have hloop : sqrtU32 val = sqrtLoop val x y := h
      rw [sqrtLoop] at hloop
      rw [rootTurn]
      split_ifs at hloop ⊢ with hgoes
      · dsimp only
        split_ifs
        · trivial
        · exact hloop
      · exact hloop
  | returned root => exact h
  | dividedByZero => trivial

theorem sqrtU32_of_returned {root : Nat} (h : rootAfter val turns = .returned root) : sqrtU32 val = root := by
  have hcomputes : (rootAfter val turns).Computes val := by
    clear h
    induction turns with
    | zero =>
        rw [rootAfter]
        split_ifs with hzero
        · exact if_pos hzero
        · exact if_neg hzero
    | succ turns ih => exact ih.turn
  rw [h] at hcomputes
  exact hcomputes

theorem addSquare_zero_le {avg sample : Nat} (havg : avg < 2 ^ 16) (hsample : sample < 2 ^ 16) :
    addSquare avg 0 sample ≤ 65535 * 65535 := by
  have hdist : (((sample : Int) - avg) * ((sample : Int) - avg)).toNat ≤ 65535 * 65535 := by
    have hlow : 0 ≤ 65535 + ((sample : Int) - avg) := by omega
    have hhigh : 0 ≤ 65535 - ((sample : Int) - avg) := by omega
    rw [Int.toNat_le]
    push_cast
    nlinarith [mul_nonneg hlow hhigh]
  rw [addSquare, Nat.zero_add]
  exact (Nat.mod_le _ _).trans hdist

/-- A sum of squares of 16-bit distances, divided by their number, is never the largest value: one square is below it, and the sum of several ones is halved at least. -/
theorem variance_lt {data : List Nat} {avg : Nat} (hdata : ∀ x ∈ data, x < 2 ^ 16) (havg : avg < 2 ^ 16)
    (hne : data ≠ []) : data.foldl (addSquare avg) 0 / data.length < 2 ^ 32 - 1 := by
  cases data using List.reverseRecOn with
  | nil => exact absurd rfl hne
  | append_singleton front last =>
      rw [List.foldl_append, List.foldl_cons, List.foldl_nil, List.length_append, List.length_singleton]
      cases front with
      | nil =>
          have hlast := hdata last (List.mem_append_right _ List.mem_cons_self)
          rw [List.foldl_nil, List.length_nil, Nat.div_one]
          exact Nat.lt_of_le_of_lt (addSquare_zero_le havg hlast) (by decide)
      | cons first front =>
          have hsum : addSquare avg ((first :: front).foldl (addSquare avg) 0) last < 2 ^ 32 :=
            Nat.mod_lt _ (by decide)
          rw [Nat.div_lt_iff_lt_mul (Nat.succ_pos _), List.length_cons]
          omega

/-- For `calculate_standard_deviation` the loop returns. -/
theorem calculateStandardDeviation_returns {data : List Nat} {avg : Nat} (hdata : ∀ x ∈ data, x < 2 ^ 16)
    (havg : avg < 2 ^ 16) (hne : data ≠ []) (hpos : avg ≠ 0) :
    ∃ turns root, rootAfter (data.foldl (addSquare avg) 0 / data.length) turns = .returned root ∧
      calculateStandardDeviation data avg = root % 2 ^ 16 := by
  obtain ⟨turns, hreturned⟩ := exists_returned (variance_lt hdata havg hne)
  have hdeviates : ¬ (data.length = 0 ∨ avg = 0) := not_or.2 ⟨mt List.length_eq_zero_iff.1 hne, hpos⟩
  refine ⟨turns, _, hreturned, ?_⟩
  rw [calculateStandardDeviation, if_neg hdeviates, sqrtU32_of_returned hreturned]

end Evse.ControlPilot
