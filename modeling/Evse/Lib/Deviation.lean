import Mathlib.Data.List.TakeWhile
import Mathlib.Data.Nat.Dist
import Mathlib.Data.Nat.Sqrt
import Mathlib.Algebra.Order.BigOperators.Group.List
import Mathlib.Tactic.Linarith
import Mathlib.Tactic.Ring

/-!
# Average and deviation in integers

The average and the standard deviation of a list of natural numbers, both rounded down at every step as integer code does. Some element always lies within the deviation of the average, and the sum of the squares is a quarter of what the range alone would allow.
-/

namespace Deviation

def average (l : List Nat) : Nat := l.sum / l.length

/-- The sum of the squared distances from a number. -/
def squares (l : List Nat) (a : Nat) : Nat := (l.map fun x => Nat.dist x a * Nat.dist x a).sum

def variance (l : List Nat) : Nat := squares l (average l) / l.length

def deviation (l : List Nat) : Nat := Nat.sqrt (variance l)

variable {l l' : List Nat}

/-! ### Average -/

theorem average_bounds (h : l ≠ []) : average l * l.length ≤ l.sum ∧ l.sum < (average l + 1) * l.length := by
  have hlength : 0 < l.length := List.length_pos_of_ne_nil h
  exact ⟨Nat.div_mul_le_self _ _, Nat.lt_mul_of_div_lt (Nat.lt_succ_self _) hlength⟩

theorem sum_le {bound : Nat} (h : ∀ x ∈ l, x ≤ bound) : l.sum ≤ l.length * bound := by
  simpa using List.sum_le_card_nsmul l bound h

theorem le_sum {bound : Nat} (h : ∀ x ∈ l, bound ≤ x) : l.length * bound ≤ l.sum := by
  simpa using List.card_nsmul_le_sum l bound h

theorem average_le {bound : Nat} (h : ∀ x ∈ l, x ≤ bound) : average l ≤ bound :=
  Nat.div_le_of_le_mul (sum_le h)

theorem average_pos (hne : l ≠ []) (h : ∀ x ∈ l, 0 < x) : 0 < average l := by
  have hsum := le_sum h
  rw [Nat.mul_one] at hsum
  exact Nat.div_pos hsum (List.length_pos_of_ne_nil hne)

/-- An average of zero comes from at least one zero. -/
theorem zero_mem_of_average (hne : l ≠ []) (h : average l = 0) : 0 ∈ l := by
  by_contra hzero
  have hpos := average_pos hne fun x hx => Nat.pos_of_ne_zero fun hx0 => hzero (hx0 ▸ hx)
  omega

/-! ### Deviation -/

theorem exists_dist_le_deviation (h : l ≠ []) : ∃ x ∈ l, Nat.dist x (average l) ≤ deviation l := by
  by_contra hfar
  simp only [not_exists, not_and, not_le] at hfar
  have hsquares : l.length * ((deviation l + 1) * (deviation l + 1)) ≤ squares l (average l) := by
    have hmap : ∀ y ∈ l.map fun x => Nat.dist x (average l) * Nat.dist x (average l),
        (deviation l + 1) * (deviation l + 1) ≤ y := by
      intro y hy
      obtain ⟨x, hx, rfl⟩ := List.mem_map.1 hy
      exact Nat.mul_le_mul (hfar x hx) (hfar x hx)
    simpa [squares] using le_sum hmap
  have hvariance : (deviation l + 1) * (deviation l + 1) ≤ variance l := by
    rw [variance, Nat.le_div_iff_mul_le (List.length_pos_of_ne_nil h), Nat.mul_comm]
    exact hsquares
  exact absurd (Nat.le_sqrt.2 hvariance) (Nat.not_succ_le_self _)

theorem dist_mul_self_add (x a : Nat) : Nat.dist x a * Nat.dist x a + 2 * a * x = x * x + a * a := by
  rcases Nat.le_total x a with h | h
  · obtain ⟨d, rfl⟩ := Nat.exists_eq_add_of_le h
    rw [Nat.dist_eq_sub_of_le h, Nat.add_sub_cancel_left]
    ring
  · obtain ⟨d, rfl⟩ := Nat.exists_eq_add_of_le h
    rw [Nat.dist_eq_sub_of_le_right h, Nat.add_sub_cancel_left]
    ring

theorem squares_add_le {bound : Nat} (h : ∀ x ∈ l, x ≤ bound) (a : Nat) :
    squares l a + 2 * a * l.sum ≤ bound * l.sum + l.length * (a * a) := by
  induction l with
  | nil => simp [squares]
  | cons x l ih =>
    have hx := Nat.mul_le_mul_right x (h x (by simp))
    have hrest := ih fun y hy => h y (by simp [hy])
    have hsplit := dist_mul_self_add x a
    simp only [squares, List.map_cons, List.sum_cons, List.length_cons] at hrest ⊢
    nlinarith

/-- The squares of numbers in a range add up to what a quarter of its square allows, but for the rounding of the average. -/
theorem squares_average_le {bound : Nat} (hne : l ≠ []) (h : ∀ x ∈ l, x ≤ bound) :
    squares l (average l) ≤ l.length * (bound * bound / 4 + bound) := by
  obtain ⟨hlow, hhigh⟩ := average_bounds hne
  have hsquares := squares_add_le h (average l)
  obtain ⟨d, rfl⟩ := Nat.exists_eq_add_of_le (average_le h)
  generalize average l = a at hlow hhigh hsquares ⊢
  generalize squares l a = total at hsquares ⊢
  generalize l.sum = sum at hlow hhigh hsquares
  generalize l.length = n at hlow hhigh hsquares ⊢
  have hquarter : a * d ≤ (a + d) * (a + d) / 4 := by
    rw [Nat.le_div_iff_mul_le (by decide)]
    nlinarith [sq_nonneg ((a : Int) - d)]
  have htotal : total ≤ n * (a * d + (a + d)) := by
    -- The average lies in the lower or in the upper half of the range, and the sum is taken at its bound there.
    rcases Nat.le_total a d with hle | hle
    · obtain ⟨e, rfl⟩ := Nat.exists_eq_add_of_le hle
      nlinarith [Nat.mul_le_mul_left e (Nat.le_of_lt hhigh)]
    · obtain ⟨e, rfl⟩ := Nat.exists_eq_add_of_le hle
      nlinarith [Nat.mul_le_mul_left e hlow]
  exact htotal.trans (Nat.mul_le_mul_left n (Nat.add_le_add_right hquarter _))

/-! ### Rounding to the nearest -/

/-- A number is at most the rounded quotient if it is at most half above the quotient. -/
theorem le_rounded_iff {lo sum n : Nat} (hn : 0 < n) : lo ≤ (sum * 10 / n + 5) / 10 ↔ 2 * lo * n ≤ 2 * sum + n := by
  have htenths : lo ≤ (sum * 10 / n + 5) / 10 ↔ lo * 10 - 5 ≤ sum * 10 / n := by
    generalize sum * 10 / n = tenths
    omega
  rw [htenths, Nat.le_div_iff_mul_le hn, Nat.sub_mul]
  have hassoc : 2 * lo * n = 2 * (lo * n) := Nat.mul_assoc _ _ _
  have hassoc' : lo * 10 * n = 10 * (lo * n) := by ring
  rw [hassoc, hassoc']
  omega

/-- The quotient by one more than there are does not round up above their bound. -/
theorem rounded_le {hi sum n : Nat} (hsum : sum ≤ n * hi) : (sum * 10 / (n + 1) + 5) / 10 ≤ hi := by
  rcases Nat.eq_zero_or_pos hi with hzero | hpos
  · have hnone : sum = 0 := by
      rw [hzero] at hsum
      omega
    rw [hnone, hzero]
    simp
  · have hlt : sum * 10 / (n + 1) < hi * 10 := by
      rw [Nat.div_lt_iff_lt_mul (Nat.succ_pos n)]
      nlinarith
    omega

/-! ### Extremes -/

theorem min?_eq_zero (h : 0 ∈ l) : l.min? = some 0 := List.min?_eq_some_iff.2 ⟨h, fun _ _ => Nat.zero_le _⟩

/-- Leading zeros do not matter for the maximum. -/
theorem max?_dropWhile (hne : l ≠ []) : l.max? = some ((l.dropWhile (· = 0)).max?.getD 0) := by
  induction l with
  | nil => exact absurd rfl hne
  | cons x l ih =>
      by_cases hx : x = 0
      · cases l with
        | nil => simp [hx]
        | cons y l =>
            have hrest := ih (List.cons_ne_nil y l)
            rw [List.max?_cons, hrest]
            simp [hx]
      · simp [hx, List.max?_cons]

/-- For the minimum they do, unless a zero comes again or nothing else comes. -/
theorem min?_dropWhile_iff (hne : l ≠ []) :
    l.min? = some ((l.dropWhile (· = 0)).min?.getD 0) ↔
      (0 ∈ l → 0 ∈ l.dropWhile (· = 0) ∨ ∀ x ∈ l, x = 0) := by
  by_cases hzero : 0 ∈ l
  · rw [min?_eq_zero hzero]
    constructor
    · intro hmin _
      cases hrest : (l.dropWhile (· = 0)).min? with
      | none =>
          have hnone := List.dropWhile_eq_nil_iff.1 (List.min?_eq_none_iff.1 hrest)
          exact .inr fun x hx => of_decide_eq_true (hnone x hx)
      | some lo =>
          rw [hrest, Option.getD_some] at hmin
          have hlo := List.min?_mem hrest
          exact .inl (Option.some.inj hmin ▸ hlo)
    · intro hagain
      obtain hmem | hall := hagain hzero
      · rw [min?_eq_zero hmem, Option.getD_some]
      · have hnone : l.dropWhile (· = 0) = [] := List.dropWhile_eq_nil_iff.2 fun x hx => decide_eq_true (hall x hx)
        rw [hnone]
        rfl
  · have hself : l.dropWhile (· = 0) = l := by
      cases l with
      | nil => rfl
      | cons x l =>
          have hx : x ≠ 0 := fun hx => hzero (hx ▸ List.mem_cons_self)
          simp [hx]
    obtain ⟨lo, hlo⟩ := Option.ne_none_iff_exists'.1 (mt List.min?_eq_none_iff.1 hne)
    rw [hself, hlo]
    exact ⟨fun _ hmem => absurd hmem hzero, fun _ => rfl⟩

/-! ### Order -/

theorem average_perm (h : l.Perm l') : average l = average l' := by
  rw [average, average, h.sum_eq, h.length_eq]

theorem deviation_perm (h : l.Perm l') : deviation l = deviation l' := by
  rw [deviation, deviation, variance, variance, squares, squares, average_perm h, h.length_eq,
    (h.map fun x => Nat.dist x (average l') * Nat.dist x (average l')).sum_eq]

/-! ### Newton's iteration for the root -/

/-- A step of the iteration does not fall below the root. -/
theorem sqrt_le_newton {val x : Nat} (hx : 0 < x) : Nat.sqrt val ≤ (x + val / x) / 2 := by
  have hroot := Nat.sqrt_le val
  have hstep : 2 * Nat.sqrt val ≤ x + val / x := by
    rcases Nat.le_total (2 * Nat.sqrt val) x with h | h
    · exact Nat.le_add_right_of_le h
    · obtain ⟨d, hd⟩ := Nat.exists_eq_add_of_le h
      have hd' : d ≤ val / x := by
        rw [Nat.le_div_iff_mul_le hx]
        nlinarith [sq_nonneg ((x : Int) - d)]
      omega
  omega

/-- The sum that is halved is largest at the ends. -/
theorem add_div_le {val x : Nat} (hx : 0 < x) (hle : x ≤ val) : x + val / x ≤ val + 1 := by
  have hproduct := Nat.div_mul_le_self val x
  obtain ⟨a, rfl⟩ := Nat.exists_eq_succ_of_ne_zero (Nat.ne_of_gt hx)
  obtain ⟨b, hb⟩ := Nat.exists_eq_succ_of_ne_zero (Nat.ne_of_gt (Nat.div_pos hle hx))
  rw [hb] at hproduct ⊢
  nlinarith

/-- Where the iteration stops, it has the root. -/
theorem eq_sqrt_of_newton {val x : Nat} (hx : 0 < x) (hroot : Nat.sqrt val ≤ x) (hstop : x ≤ val / x) :
    x = Nat.sqrt val :=
  Nat.le_antisymm (Nat.le_sqrt.2 ((Nat.le_div_iff_mul_le hx).1 hstop)) hroot

end Deviation
