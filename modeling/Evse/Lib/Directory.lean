import Mathlib.Data.List.Basic
import Mathlib.Data.List.Nodup

/-!
# Directories

A directory is a list of named files, each name once, in whatever order the medium keeps them. A file is a list of elements that grows at its end; an append to a name that is not there creates the file.
-/

/-- Named files, no name twice. -/
structure Directory (ν β : Type*) where
  files : List (ν × List β)
  nodup : (files.map Prod.fst).Nodup

namespace Directory

variable {ν β : Type*} [DecidableEq ν]

/-- The content of the first file with the name. -/
def lookup (name : ν) : List (ν × List β) → Option (List β)
  | [] => none
  | file :: files => if file.1 = name then some file.2 else lookup name files

def extend (name : ν) (data : List β) : List (ν × List β) → List (ν × List β)
  | [] => [(name, data)]
  | file :: files => if file.1 = name then (name, file.2 ++ data) :: files else file :: extend name data files

theorem mem_names_extend {name x : ν} {data : List β} {files : List (ν × List β)} :
    x ∈ (extend name data files).map Prod.fst ↔ x = name ∨ x ∈ files.map Prod.fst := by
  induction files with
  | nil => simp [extend]
  | cons file files ih =>
      rw [extend]
      split_ifs with hname
      · simp [hname]
      · rw [List.map_cons, List.mem_cons, ih, List.map_cons, List.mem_cons]
        exact or_left_comm

theorem nodup_extend {name : ν} {data : List β} {files : List (ν × List β)} (h : (files.map Prod.fst).Nodup) :
    ((extend name data files).map Prod.fst).Nodup := by
  induction files with
  | nil => simp [extend]
  | cons file files ih =>
      rw [List.map_cons, List.nodup_cons] at h
      rw [extend]
      split_ifs with hname
      · rw [List.map_cons, List.nodup_cons, ← hname]
        exact h
      · rw [List.map_cons, List.nodup_cons, mem_names_extend]
        exact ⟨not_or.2 ⟨hname, h.1⟩, ih h.2⟩

variable (d : Directory ν β)

def empty : Directory ν β := ⟨[], List.nodup_nil⟩

def find (name : ν) : Option (List β) := lookup name d.files

def append (name : ν) (data : List β) : Directory ν β := ⟨extend name data d.files, nodup_extend d.nodup⟩

def delete (name : ν) : Directory ν β :=
  ⟨d.files.filter fun file => file.1 ≠ name, (d.nodup.sublist (List.filter_sublist.map Prod.fst))⟩

/-! ### What is found -/

theorem find_append (name data) (x : ν) :
    (d.append name data).find x = if x = name then some ((d.find name).getD [] ++ data) else d.find x := by
  show lookup x (extend name data d.files) =
    if x = name then some ((lookup name d.files).getD [] ++ data) else lookup x d.files
  induction d.files with
  | nil =>
      simp only [extend, lookup, Option.getD_none, List.nil_append, eq_comm]
  | cons file files ih =>
      rw [extend]
      by_cases hfile : file.1 = name
      · simp only [lookup, if_pos hfile, Option.getD_some]
        by_cases hx : x = name
        · simp [hx]
        · rw [if_neg (Ne.symm hx), if_neg hx, if_neg fun h => hx (h.symm.trans hfile)]
      · simp only [lookup, if_neg hfile, ih]
        by_cases hx : x = name
        · rw [if_pos hx, if_neg fun h => hfile (h.trans hx), if_pos hx]
        · rw [if_neg hx, if_neg hx]

theorem find_delete (name x : ν) : (d.delete name).find x = if x = name then none else d.find x := by
  show lookup x (d.files.filter fun file => file.1 ≠ name) = if x = name then none else lookup x d.files
  induction d.files with
  | nil => simp [lookup]
  | cons file files ih =>
      by_cases hfile : file.1 = name
      · rw [List.filter_cons_of_neg (by simpa using hfile), ih, lookup]
        by_cases hx : x = name
        · rw [if_pos hx, if_pos hx]
        · rw [if_neg hx, if_neg hx, if_neg fun h => hx (h.symm.trans hfile)]
      · rw [List.filter_cons_of_pos (by simpa using hfile), lookup, lookup, ih]
        by_cases hx : x = name
        · rw [if_pos hx, if_pos hx, if_neg fun h => hfile (h.trans hx)]
        · rw [if_neg hx, if_neg hx]

theorem mem_files_iff (name : ν) (content : List β) : (name, content) ∈ d.files ↔ d.find name = some content := by
  show _ ↔ lookup name d.files = some content
  have hnodup := d.nodup
  generalize d.files = files at hnodup
  induction files with
  | nil => simp [lookup]
  | cons file files ih =>
      rw [List.map_cons, List.nodup_cons] at hnodup
      obtain ⟨name', content'⟩ := file
      rw [lookup, List.mem_cons]
      by_cases hname : name' = name
      · subst hname
        have hnot : (name', content) ∉ files := fun hmem => hnodup.1 (List.mem_map.2 ⟨_, hmem, rfl⟩)
        simp [hnot, eq_comm]
      · simp only [if_neg hname, ← ih hnodup.2, Prod.mk.injEq, Ne.symm hname, false_and, false_or]

end Directory
