import Mathlib.Data.List.Basic

/-!
# Properties of a trace

A trace is the list of what a system has said, oldest first, and grows at its end. Two properties that look back: that two kinds of entries take turns, and that every entry of one kind comes after one of another kind with none of a third in between.
-/

namespace Trace

variable {α : Type*}

/-! ### Taking turns -/

section Turns

variable (p q : α → Bool)

/-- The entries with `p` and those with `q` take turns, beginning with `p` if `due` says so. No entry has both. -/
def Alternates : Bool → List α → Prop
  | _, [] => True
  | true, x :: xs => q x = false ∧ Alternates (!p x) xs
  | false, x :: xs => p x = false ∧ Alternates (q x) xs

/-- Whether `p` is due after the trace. -/
def turn (due : Bool) (xs : List α) : Bool := xs.foldl (fun due x => if due then !p x else q x) due

instance instDecidableAlternates : ∀ (due : Bool) (xs : List α), Decidable (Alternates p q due xs)
  | true, [] => isTrue trivial
  | false, [] => isTrue trivial
  | true, x :: xs =>
      have := instDecidableAlternates (!p x) xs
      inferInstanceAs (Decidable (q x = false ∧ Alternates p q (!p x) xs))
  | false, x :: xs =>
      have := instDecidableAlternates (q x) xs
      inferInstanceAs (Decidable (p x = false ∧ Alternates p q (q x) xs))

theorem turn_append (due : Bool) (xs ys : List α) : turn p q due (xs ++ ys) = turn p q (turn p q due xs) ys :=
  List.foldl_append

theorem alternates_append (due : Bool) (xs ys : List α) :
    Alternates p q due (xs ++ ys) ↔ Alternates p q due xs ∧ Alternates p q (turn p q due xs) ys := by
  induction xs generalizing due with
  | nil =>
      have hnil : Alternates p q due [] := by cases due <;> trivial
      exact (and_iff_right hnil).symm
  | cons x xs ih =>
      cases due with
      | true =>
          show q x = false ∧ Alternates p q (!p x) (xs ++ ys) ↔ _
          rw [ih, ← and_assoc]
          exact Iff.rfl
      | false =>
          show p x = false ∧ Alternates p q (q x) (xs ++ ys) ↔ _
          rw [ih, ← and_assoc]
          exact Iff.rfl

end Turns

/-! ### Looking back -/

section Since

variable (p q r : α → Bool)

/-- There was an entry with `p`, and none with `q` since. -/
def Since (xs : List α) : Prop :=
  ∃ before x after, xs = before ++ x :: after ∧ p x = true ∧ ∀ y ∈ after, q y = false

/-- Every entry with `r` comes after one with `p` with none with `q` in between. -/
def EachSince (xs : List α) : Prop :=
  ∀ before x after, xs = before ++ x :: after → r x = true → Since p q before

variable {p q r}

theorem since_concat (xs : List α) {x : α} (hx : p x = true) : Since p q (xs ++ [x]) :=
  ⟨xs, x, [], rfl, hx, fun _ hmem => absurd hmem List.not_mem_nil⟩

theorem Since.append {xs ys : List α} (h : Since p q xs) (hys : ∀ y ∈ ys, q y = false) : Since p q (xs ++ ys) := by
  obtain ⟨before, x, after, rfl, hx, hafter⟩ := h
  refine ⟨before, x, after ++ ys, by simp, hx, ?_⟩
  intro y hy
  obtain hold | hnew := List.mem_append.1 hy
  · exact hafter y hold
  · exact hys y hnew

theorem eachSince_nil : EachSince p q r [] := by
  intro before x after h
  exact absurd h (by simp)

theorem EachSince.concat {xs : List α} {x : α} (h : EachSince p q r xs) (hx : r x = true → Since p q xs) :
    EachSince p q r (xs ++ [x]) := by
  intro before y after hsplit hy
  obtain rfl | ⟨after, z, rfl⟩ := List.eq_nil_or_concat after
  · obtain ⟨rfl, hxy⟩ := List.append_inj' hsplit rfl
    rw [List.cons.injEq] at hxy
    exact hx (hxy.1 ▸ hy)
  · rw [List.concat_eq_append, ← List.cons_append, ← List.append_assoc] at hsplit
    obtain ⟨hxs, -⟩ := List.append_inj' hsplit rfl
    exact h before y after hxs hy

end Since

end Trace
