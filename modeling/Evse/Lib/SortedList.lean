import Mathlib.Algebra.BigOperators.Group.List.Basic
import Mathlib.Algebra.Ring.Nat
import Mathlib.Order.Lattice

/-!
# Lists sorted by a key

A list strictly ascending in a key is a finite map. An element is put at its place, over the one with its key if there is one, and taken out by its key. What belongs to the map afterwards, its order, its length and the sum of a weight over it follow from what it was before.
-/

namespace SortedList

variable {α κ : Type*} [LinearOrder κ] (key : α → κ)

/-- Put an element at its place, over the one with the same key. -/
def insert (x : α) : List α → List α
  | [] => [x]
  | y :: rest => if key x = key y then x :: rest else if key x < key y then x :: y :: rest else y :: insert x rest

/-- Take out the first element with the key; whether there was one. -/
def remove (k : κ) : List α → List α × Bool
  | [] => ([], false)
  | y :: rest => if key y = k then (rest, true) else (y :: (remove k rest).1, (remove k rest).2)

/-- Strictly ascending in the key. -/
def Sorted (list : List α) : Prop := list.Pairwise fun x y => key x < key y

variable {key} {x y : α} {k : κ} {list : List α}

theorem sorted_nil : Sorted key ([] : List α) := List.Pairwise.nil

theorem sorted_cons : Sorted key (x :: list) ↔ (∀ y ∈ list, key x < key y) ∧ Sorted key list := List.pairwise_cons

theorem Sorted.drop (h : Sorted key list) (n : Nat) : Sorted key (list.drop n) :=
  List.Pairwise.sublist (List.drop_sublist n list) h

theorem Sorted.nodup (h : Sorted key list) : (list.map key).Nodup :=
  List.Pairwise.map key (fun _ _ hlt => ne_of_lt hlt) h

/-! ### Insertion -/

/-- An insertion leaves what has to stand before the new element as it is. -/
theorem insert_append {before after : List α} (h : ∀ y ∈ before, ¬ (key x = key y ∨ key x < key y)) :
    insert key x (before ++ after) = before ++ insert key x after := by
  induction before with
  | nil => rfl
  | cons z before ih =>
      obtain ⟨hz, hbefore⟩ := List.forall_mem_cons.1 h
      rw [not_or] at hz
      rw [List.cons_append, insert, if_neg hz.1, if_neg hz.2, ih hbefore, List.cons_append]

theorem mem_insert (h : Sorted key list) : y ∈ insert key x list ↔ y = x ∨ y ∈ list ∧ key y ≠ key x := by
  induction list with
  | nil => simp [insert]
  | cons z rest ih =>
      obtain ⟨hz, hrest⟩ := sorted_cons.1 h
      rw [insert]
      split_ifs with heq hlt
      · have hkey : ∀ w ∈ rest, key w ≠ key x := fun w hw => heq ▸ (hz w hw).ne'
        rw [List.mem_cons, List.mem_cons]
        constructor
        · rintro (rfl | hmem)
          · exact .inl rfl
          · exact .inr ⟨.inr hmem, hkey y hmem⟩
        · rintro (rfl | ⟨rfl | hmem, hne⟩)
          · exact .inl rfl
          · exact absurd heq.symm hne
          · exact .inr hmem
      · have hkey : ∀ w ∈ z :: rest, key w ≠ key x := by
          intro w hw
          cases List.mem_cons.1 hw with
          | inl hwz => exact hwz ▸ hlt.ne'
          | inr hmem => exact (hlt.trans (hz w hmem)).ne'
        rw [List.mem_cons]
        constructor
        · exact Or.imp_right fun hmem => ⟨hmem, hkey y hmem⟩
        · exact Or.imp_right And.left
      · rw [List.mem_cons, ih hrest, List.mem_cons]
        constructor
        · rintro (rfl | rfl | ⟨hmem, hne⟩)
          · exact .inr ⟨.inl rfl, Ne.symm heq⟩
          · exact .inl rfl
          · exact .inr ⟨.inr hmem, hne⟩
        · rintro (rfl | ⟨rfl | hmem, hne⟩)
          · exact .inr (.inl rfl)
          · exact .inl rfl
          · exact .inr (.inr ⟨hmem, hne⟩)

theorem sorted_insert (h : Sorted key list) (x : α) : Sorted key (insert key x list) := by
  induction list with
  | nil => exact List.pairwise_singleton _ x
  | cons z rest ih =>
      obtain ⟨hz, hrest⟩ := sorted_cons.1 h
      rw [insert]
      split_ifs with heq hlt
      · exact sorted_cons.2 ⟨fun y hy => heq ▸ hz y hy, hrest⟩
      · refine sorted_cons.2 ⟨?_, h⟩
        intro y hy
        cases List.mem_cons.1 hy with
        | inl hyz => exact hyz ▸ hlt
        | inr hmem => exact hlt.trans (hz y hmem)
      · refine sorted_cons.2 ⟨?_, ih hrest⟩
        intro y hy
        cases (mem_insert hrest).1 hy with
        | inl hyx => exact hyx ▸ lt_of_le_of_ne (not_lt.1 hlt) (Ne.symm heq)
        | inr hmem => exact hz y hmem.1

/-- The length and the sum of a weight after an insertion: the old element with the key, if any, is gone. -/
theorem insert_of_mem (h : Sorted key list) (hy : y ∈ list) (hkey : key y = key x) (weight : α → Nat) :
    (insert key x list).length = list.length ∧
      ((insert key x list).map weight).sum + weight y = (list.map weight).sum + weight x := by
  induction list with
  | nil => exact absurd hy List.not_mem_nil
  | cons z rest ih =>
      obtain ⟨hz, hrest⟩ := sorted_cons.1 h
      rw [insert]
      cases List.mem_cons.1 hy with
      | inl hyz =>
          subst hyz
          rw [if_pos hkey.symm]
          simp only [List.length_cons, List.map_cons, List.sum_cons, true_and]
          omega
      | inr hmem =>
          have hlt : key z < key x := hkey ▸ hz y hmem
          rw [if_neg hlt.ne', if_neg hlt.le.not_gt]
          obtain ⟨hlength, hsum⟩ := ih hrest hmem
          simp only [List.length_cons, List.map_cons, List.sum_cons, hlength, true_and]
          omega

theorem insert_of_not_mem (hnot : ∀ y ∈ list, key y ≠ key x) (weight : α → Nat) :
    (insert key x list).length = list.length + 1 ∧
      ((insert key x list).map weight).sum = (list.map weight).sum + weight x := by
  induction list with
  | nil => simp [insert]
  | cons z rest ih =>
      obtain ⟨hz, hrest⟩ := List.forall_mem_cons.1 hnot
      rw [insert, if_neg (Ne.symm hz)]
      split_ifs
      · simp only [List.length_cons, List.map_cons, List.sum_cons, true_and]
        omega
      · obtain ⟨hlength, hsum⟩ := ih hrest
        simp only [List.length_cons, List.map_cons, List.sum_cons, hlength, true_and]
        omega

/-! ### Removal -/

theorem remove_append {before after : List α} (h : ∀ y ∈ before, key y ≠ k) :
    remove key k (before ++ after) = (before ++ (remove key k after).1, (remove key k after).2) := by
  induction before with
  | nil => rfl
  | cons z before ih =>
      obtain ⟨hz, hbefore⟩ := List.forall_mem_cons.1 h
      rw [List.cons_append, remove, if_neg hz, ih hbefore, List.cons_append]

theorem mem_remove (h : Sorted key list) : y ∈ (remove key k list).1 ↔ y ∈ list ∧ key y ≠ k := by
  induction list with
  | nil => simp [remove]
  | cons z rest ih =>
      obtain ⟨hz, hrest⟩ := sorted_cons.1 h
      rw [remove]
      split_ifs with heq
      · have hkey : ∀ w ∈ rest, key w ≠ k := fun w hw => heq ▸ (hz w hw).ne'
        rw [List.mem_cons]
        constructor
        · exact fun hmem => ⟨.inr hmem, hkey y hmem⟩
        · rintro ⟨rfl | hmem, hne⟩
          · exact absurd heq hne
          · exact hmem
      · rw [List.mem_cons, ih hrest, List.mem_cons]
        constructor
        · rintro (rfl | ⟨hmem, hne⟩)
          · exact ⟨.inl rfl, heq⟩
          · exact ⟨.inr hmem, hne⟩
        · rintro ⟨rfl | hmem, hne⟩
          · exact .inl rfl
          · exact .inr ⟨hmem, hne⟩

theorem remove_sublist (k : κ) (list : List α) : (remove key k list).1.Sublist list := by
  induction list with
  | nil => exact List.Sublist.slnil
  | cons z rest ih =>
      rw [remove]
      split_ifs
      · exact List.sublist_cons_self z rest
      · exact ih.cons_cons z

theorem Sorted.remove (h : Sorted key list) (k : κ) : Sorted key (remove key k list).1 :=
  List.Pairwise.sublist (remove_sublist k list) h

/-! ### Looking up a key -/

theorem find?_insert (k : κ) :
    (insert key x list).find? (key · = k) = if key x = k then some x else list.find? (key · = k) := by
  induction list with
  | nil =>
      rw [insert, List.find?_cons]
      split_ifs with hx <;> simp [hx]
  | cons z rest ih =>
      rw [insert]
      by_cases heq : key x = key z
      · rw [if_pos heq, List.find?_cons, List.find?_cons, heq]
        by_cases hz : key z = k <;> simp [hz]
      · rw [if_neg heq]
        by_cases hlt : key x < key z
        · rw [if_pos hlt, List.find?_cons]
          by_cases hx : key x = k <;> simp [hx]
        · rw [if_neg hlt, List.find?_cons, List.find?_cons, ih]
          by_cases hx : key x = k
          · have hz : key z ≠ k := fun hz => heq (hx.trans hz.symm)
            simp [hx, hz]
          · rw [if_neg hx, if_neg hx]

theorem find?_remove (h : Sorted key list) (k k' : κ) :
    (remove key k' list).1.find? (key · = k) = if k' = k then none else list.find? (key · = k) := by
  split_ifs with hk
  · rw [List.find?_eq_none]
    intro y hy
    have hne := ((mem_remove h).1 hy).2
    simpa [← hk] using hne
  · clear h
    induction list with
    | nil => rfl
    | cons z rest ih =>
        rw [remove]
        split_ifs with hz
        · rw [List.find?_cons, hz]
          simp [hk]
        · rw [List.find?_cons, List.find?_cons, ih]

end SortedList
