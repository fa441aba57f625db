import Mathlib.Data.List.Basic

/-!
# Files of keyed records

A file is a list of records, each with a key. It is searched from the front; a record is written over the one with its key or, if there is none, appended; and one is removed by writing a blank record over it. As long as no key but the blank one occurs twice, the file is a map from keys to records.
-/

namespace RecordFile

variable {κ ρ : Type*} [DecidableEq κ] (key : ρ → κ)

/-- The first record with the key, and its position. -/
def locate (k : κ) : List ρ → Option (Nat × ρ)
  | [] => none
  | r :: file => if key r = k then some (0, r) else (locate k file).map fun found => (found.1 + 1, found.2)

/-- Write a record over the one at its place, or append it. -/
def save (r : ρ) (file : List ρ) : List ρ :=
  match locate key (key r) file with
  | some (i, _) => file.set i r
  | none => file ++ [r]

/-- Write a blank record over the one with the key. -/
def remove (blank : ρ) (k : κ) (file : List ρ) : List ρ :=
  match locate key k file with
  | some (i, _) => file.set i blank
  | none => file

def lookup (k : κ) (file : List ρ) : Option ρ := (locate key k file).map Prod.snd

/-- No key but the blank record's occurs twice. -/
def Distinct (blank : ρ) (file : List ρ) : Prop :=
  file.Pairwise fun r r' => key r = key r' → key r = key blank

variable {key} {blank r : ρ} {k : κ} {file : List ρ}

@[simp] theorem lookup_nil (k : κ) : lookup key k [] = none := rfl

theorem lookup_cons (k : κ) (r : ρ) (file : List ρ) :
    lookup key k (r :: file) = if key r = k then some r else lookup key k file := by
  simp only [lookup, locate]
  split_ifs
  · rfl
  · rw [Option.map_map]
    rfl

theorem save_cons (r r' : ρ) (file : List ρ) :
    save key r (r' :: file) = if key r' = key r then r :: file else r' :: save key r file := by
  simp only [save, locate]
  split_ifs
  · rfl
  · cases locate key (key r) file with
    | none => rfl
    | some found => rfl

theorem remove_cons (k : κ) (r : ρ) (file : List ρ) :
    remove key blank k (r :: file) = if key r = k then blank :: file else r :: remove key blank k file := by
  simp only [remove, locate]
  split_ifs
  · rfl
  · cases locate key k file with
    | none => rfl
    | some found => rfl

theorem locate_getElem {i : Nat} (h : locate key k file = some (i, r)) : file[i]? = some r ∧ key r = k := by
  induction file generalizing i with
  | nil => cases h
  | cons r' file ih =>
      simp only [locate] at h
      split_ifs at h with hkey
      · cases h
        exact ⟨rfl, hkey⟩
      · obtain ⟨⟨j, found⟩, hfound, hfst⟩ := Option.map_eq_some_iff.1 h
        cases hfst
        exact ih hfound

/-- The record at a position, if it has the key. -/
def matchAt (key : ρ → κ) (k : κ) (file : List ρ) (i : Nat) : Option (Nat × ρ) :=
  file[i]?.bind fun r => if key r = k then some (i, r) else none

theorem matchAt_succ (k : κ) (r : ρ) (file : List ρ) (i : Nat) :
    matchAt key k (r :: file) (i + 1) = (matchAt key k file i).map fun found => (found.1 + 1, found.2) := by
  rw [matchAt, matchAt, List.getElem?_cons_succ]
  cases file[i]? with
  | none => rfl
  | some r' =>
      rw [Option.bind_some, Option.bind_some]
      split_ifs <;> rfl

/-- The search goes through the positions in order. -/
theorem locate_eq_findSome? (k : κ) (file : List ρ) :
    locate key k file = (List.range file.length).findSome? (matchAt key k file) := by
  induction file with
  | nil => rfl
  | cons r file ih =>
      have hfirst : matchAt key k (r :: file) 0 = if key r = k then some (0, r) else none := rfl
      have hrest : matchAt key k (r :: file) ∘ Nat.succ =
          Option.map (fun found => (found.1 + 1, found.2)) ∘ matchAt key k file := funext (matchAt_succ k r file)
      rw [List.length_cons, List.range_succ_eq_map, List.findSome?_cons, hfirst, List.findSome?_map, hrest,
        ← List.map_findSome?, ← ih, locate]
      split_ifs <;> rfl

theorem key_of_lookup (h : lookup key k file = some r) : key r = k := by
  induction file with
  | nil => cases h
  | cons r' file ih =>
      rw [lookup_cons] at h
      split_ifs at h with hkey
      · cases h
        exact hkey
      · exact ih h

theorem lookup_eq_none : lookup key k file = none ↔ ∀ r ∈ file, key r ≠ k := by
  induction file with
  | nil => simp
  | cons r file ih =>
      rw [lookup_cons, List.forall_mem_cons]
      split_ifs with hkey
      · simp [hkey]
      · rw [ih]
        exact (and_iff_right hkey).symm

/-! ### Saving and removing -/

theorem lookup_save (k : κ) (r : ρ) (file : List ρ) :
    lookup key k (save key r file) = if k = key r then some r else lookup key k file := by
  induction file with
  | nil =>
      simp only [save, locate, List.nil_append, lookup_cons, lookup_nil, eq_comm]
  | cons r' file ih =>
      rw [save_cons]
      split_ifs with hkey hk hk
      · rw [lookup_cons, if_pos hk.symm]
      · rw [lookup_cons, if_neg (Ne.symm hk), lookup_cons, if_neg fun h => hk (h.symm.trans hkey)]
      · rw [lookup_cons, if_neg fun h => hkey (h.trans hk), ih, if_pos hk]
      · rw [lookup_cons, lookup_cons, ih, if_neg hk]

/-- Saving moves no other record. -/
theorem locate_save_of_ne (hk : k ≠ key r) (file : List ρ) : locate key k (save key r file) = locate key k file := by
  induction file with
  | nil => simp [save, locate, hk.symm]
  | cons r' file ih =>
      rw [save_cons]
      split_ifs with hkey
      · rw [locate, locate, if_neg (Ne.symm hk), if_neg fun h => hk (h.symm.trans hkey)]
      · rw [locate, locate, ih]

theorem mem_save {r' : ρ} (h : r' ∈ save key r file) : r' = r ∨ r' ∈ file := by
  induction file with
  | nil => exact .inl (by simpa [save, locate] using h)
  | cons x file ih =>
      rw [save_cons] at h
      split_ifs at h
      · exact (List.mem_cons.mp h).imp id (List.mem_cons_of_mem x)
      · rcases List.mem_cons.mp h with rfl | h
        · exact .inr List.mem_cons_self
        · exact (ih h).imp id (List.mem_cons_of_mem x)

theorem distinct_save (h : Distinct key blank file) (r : ρ) : Distinct key blank (save key r file) := by
  induction file with
  | nil => exact List.pairwise_singleton _ r
  | cons x file ih =>
      obtain ⟨hx, hfile⟩ := List.pairwise_cons.mp h
      rw [save_cons]
      split_ifs with hkey
      · refine List.pairwise_cons.mpr ⟨fun r' hr' heq => ?_, hfile⟩
        rw [← hkey]
        exact hx r' hr' (hkey.trans heq)
      · refine List.pairwise_cons.mpr ⟨fun r' hr' heq => ?_, ih hfile⟩
        rcases mem_save hr' with rfl | hmem
        · exact absurd heq hkey
        · exact hx r' hmem heq

theorem lookup_remove (h : Distinct key blank file) {k' : κ} (hk : k ≠ key blank) (hk' : k' ≠ key blank) :
    lookup key k' (remove key blank k file) = if k' = k then none else lookup key k' file := by
  induction file with
  | nil => simp [remove, locate]
  | cons r file ih =>
      obtain ⟨hr, hfile⟩ := List.pairwise_cons.mp h
      rw [remove_cons]
      split_ifs with hkey hsame hsame
      · rw [lookup_cons, if_neg (Ne.symm hk')]
        refine lookup_eq_none.mpr fun r' hr' heq => hk ?_
        rw [← hkey]
        exact hr r' hr' (hkey.trans (hsame.symm.trans heq.symm))
      · rw [lookup_cons, if_neg (Ne.symm hk'), lookup_cons, if_neg fun h => hsame (h.symm.trans hkey)]
      · rw [lookup_cons, if_neg fun h => hkey (h.trans hsame), ih hfile, if_pos hsame]
      · rw [lookup_cons, lookup_cons, ih hfile, if_neg hsame]

theorem locate_remove_of_ne {k' : κ} (hk : k' ≠ k) (hblank : k' ≠ key blank) (file : List ρ) :
    locate key k' (remove key blank k file) = locate key k' file := by
  induction file with
  | nil => rfl
  | cons r file ih =>
      rw [remove_cons]
      split_ifs with hkey
      · rw [locate, locate, if_neg (Ne.symm hblank), if_neg fun h => hk (h.symm.trans hkey)]
      · rw [locate, locate, ih]

theorem mem_remove {r' : ρ} (h : r' ∈ remove key blank k file) : r' = blank ∨ r' ∈ file := by
  induction file with
  | nil => simp [remove, locate] at h
  | cons x file ih =>
      rw [remove_cons] at h
      split_ifs at h
      · exact (List.mem_cons.mp h).imp id (List.mem_cons_of_mem x)
      · rcases List.mem_cons.mp h with rfl | h
        · exact .inr List.mem_cons_self
        · exact (ih h).imp id (List.mem_cons_of_mem x)

theorem distinct_remove (h : Distinct key blank file) (k : κ) : Distinct key blank (remove key blank k file) := by
  induction file with
  | nil => exact List.Pairwise.nil
  | cons r file ih =>
      obtain ⟨hr, hfile⟩ := List.pairwise_cons.mp h
      rw [remove_cons]
      split_ifs
      · exact List.pairwise_cons.mpr ⟨fun _ _ _ => rfl, hfile⟩
      · refine List.pairwise_cons.mpr ⟨fun r' hr' heq => ?_, ih hfile⟩
        rcases mem_remove hr' with rfl | hmem
        · exact heq
        · exact hr r' hmem heq

end RecordFile
