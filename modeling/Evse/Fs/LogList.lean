import Evse.Fs.Logfs
import Evse.Lib.LinkedList
import Mathlib.Data.List.Induction

/-!
# The list of the logs, link by link

`add_list_sorted` walks the list with the node before at hand and leaves it at three places: where there is a log with the timestamp already, whose size is replaced, before the first later log, and at the end. Each is an insertion into a sorted list, and so the list is the map from timestamps to sizes that its operations have written, as long as there is memory for a node. Where there is none, `add_list` does nothing.
-/

namespace Evse.LogList

open LinkedList StepRun
open Logfs (LogFile Time)

/-- `log_list` and the files that its nodes are in. The head is node 0, and the others are numbered as they are allocated. -/
structure FileList where
  link : Links Nat
  file : Nat → LogFile
  allocated : Nat

/-- `list_init` links the head to itself. -/
def FileList.init : FileList where
  link := id
  file _ := ⟨0, 0⟩
  allocated := 0

section Operations

variable (api : Api Nat) (self : FileList)

/-- The nodes at which `list_for_each` stops, from the first one. -/
def find (stop : LogFile → Bool) : Nat × Nat :=
  scan self.link 0 (fun p => stop (self.file p)) self.allocated (self.link 0) 0

def addListSorted (file : Nat) : FileList :=
  let new := self.file file
  let (p, t) := find self fun entry => new.timestamp = entry.timestamp ∨ new.timestamp < entry.timestamp
  if p = 0 then { self with link := api.addTail self.link 0 file }
  else if new.timestamp = (self.file p).timestamp then
    { self with file := Function.update self.file p { self.file p with size := new.size } }
  else { self with link := api.add self.link t file }

/-- `malloc` may fail. -/
def addList (ts : Time) (logsize : Nat) (memory : Bool) : FileList :=
  if !memory then self
  else
    let file := self.allocated + 1
    addListSorted api
      { self with file := Function.update self.file file ⟨ts, logsize⟩, allocated := file } file

def deleteList (ts : Time) : FileList × Bool :=
  let p := (find self fun file => file.timestamp = ts).1
  if p = 0 then (self, false) else ({ self with link := api.del self.link 0 p }, true)

def findLog (ts : Time) : Option LogFile :=
  let p := (find self fun file => file.timestamp = ts).1
  if p = 0 then none else some (self.file p)

def computeTotalSize : Nat :=
  ((walk self.link 0 self.allocated (self.link 0)).map fun p => (self.file p).size).sum

/-- What is done to the list. -/
inductive Op where
  | add (ts : Time) (logsize : Nat) (memory : Bool)
  | delete (ts : Time)

def step : Op → FileList
  | .add ts logsize memory => addList api self ts logsize memory
  | .delete ts => (deleteList api self ts).1

end Operations

/-! ### The links and the logs -/

/-- The list has these nodes, and these logs are in them. -/
structure Represents (list : FileList) (nodes : List Nat) (logs : List LogFile) : Prop where
  circular : Circular list.link 0 nodes
  allocated : ∀ node ∈ nodes, node ≤ list.allocated
  files : nodes.map list.file = logs

theorem represents_init : Represents .init [] [] where
  circular := ⟨rfl, List.nodup_singleton 0⟩
  allocated := fun _ hnode => absurd hnode List.not_mem_nil
  files := rfl

variable {api : Api Nat} {self : FileList} {nodes : List Nat} {logs : List LogFile}

/-- There are enough rounds for a walk. -/
theorem Represents.length_le (h : Represents self nodes logs) : nodes.length ≤ self.allocated :=
  h.circular.length_le h.allocated

/-- Where a loop stops, the list falls into the nodes it passed and the rest. -/
theorem Represents.find (h : Represents self nodes logs) (stop : LogFile → Bool) :
    ∃ before after, nodes = before ++ after ∧ (∀ log ∈ before.map self.file, stop log = false) ∧
      (∀ x ∈ after.head?, stop (self.file x) = true) ∧ find self stop = (after.headD 0, before.getLastD 0) := by
  obtain ⟨before, after, hnodes, hpassed, hstop, hfind⟩ :=
    h.circular.scan_eq (fun p => stop (self.file p)) h.length_le
  exact ⟨before, after, hnodes, List.forall_mem_map.2 hpassed, hstop, hfind⟩

theorem Represents.computeTotalSize (h : Represents self nodes logs) :
    computeTotalSize self = Logfs.computeTotalSize logs := by
  rw [LogList.computeTotalSize, h.circular.walk_eq h.length_le, Logfs.computeTotalSize, ← h.files, List.map_map]
  rfl

/-! ### What the operations do to the logs -/

section Operations

variable (hlist : api.Lawful)

include hlist

/-- A node that has been allocated is put at its place. -/
theorem represents_addListSorted (h : Represents self nodes logs) {file : Nat} (hnew : file ∉ 0 :: nodes)
    (hallocated : file ≤ self.allocated) :
    ∃ nodes', Represents (addListSorted api self file) nodes'
      (SortedList.insert LogFile.timestamp (self.file file) logs) := by
  obtain ⟨before, after, rfl, hpassed, hstop, hfind⟩ := h.find fun entry =>
    (self.file file).timestamp = entry.timestamp ∨ (self.file file).timestamp < entry.timestamp
  have hbefore : ∀ log ∈ before.map self.file,
      ¬ ((self.file file).timestamp = log.timestamp ∨ (self.file file).timestamp < log.timestamp) :=
    fun log hlog => of_decide_eq_false (hpassed log hlog)
  rw [← h.files, List.map_append, SortedList.insert_append hbefore]
  cases after with
  | nil =>
      -- past the last log
      rw [addListSorted, hfind]
      refine ⟨before ++ [file], ?_, ?_, ?_⟩
      · have hcircular := h.circular
        rw [List.append_nil] at hcircular hnew
        exact hlist.addTail hcircular hnew
      · intro node hnode
        obtain hold | hsame := List.mem_append.1 hnode
        · exact h.allocated node (List.mem_append_left _ hold)
        · exact List.mem_singleton.1 hsame ▸ hallocated
      · exact List.map_append
  | cons p after =>
      have hp := h.circular.ne_head (List.mem_append_right before (List.mem_cons_self (a := p)))
      have hentry := of_decide_eq_true (hstop p rfl)
      rw [List.headD_cons] at hfind
      simp only [addListSorted, hfind, if_neg hp, List.map_cons, SortedList.insert]
      by_cases heq : (self.file file).timestamp = (self.file p).timestamp
      · -- the log is there
        simp only [if_pos heq]
        have hnodup := (List.nodup_cons.1 h.circular.nodup).2
        rw [List.nodup_middle, List.nodup_cons, List.mem_append, not_or] at hnodup
        refine ⟨before ++ p :: after, h.circular, h.allocated, ?_⟩
        have hentryEq : (⟨(self.file p).timestamp, (self.file file).size⟩ : LogFile) = self.file file := by
          rw [← heq]
        have hkeep : ∀ xs : List Nat, p ∉ xs →
            xs.map (Function.update self.file p (self.file file)) = xs.map self.file := by
          intro xs hxs
          apply List.map_congr_left
          intro x hx
          have hne : x ≠ p := fun hxp => hxs (hxp ▸ hx)
          exact Function.update_of_ne hne _ _
        rw [hentryEq, List.map_append, List.map_cons, hkeep _ hnodup.1.1, hkeep _ hnodup.1.2]
        dsimp only
        rw [Function.update_self]
      · -- the first later log
        have hlt : (self.file file).timestamp < (self.file p).timestamp := hentry.resolve_left heq
        simp only [if_neg heq, if_pos hlt]
        refine ⟨before ++ file :: p :: after, hlist.add h.circular hnew, ?_, ?_⟩
        · intro node hnode
          obtain hold | hnode := List.mem_append.1 hnode
          · exact h.allocated node (List.mem_append_left _ hold)
          · obtain hsame | hold := List.mem_cons.1 hnode
            · exact hsame ▸ hallocated
            · exact h.allocated node (List.mem_append_right _ hold)
        · rw [List.map_append, List.map_cons, List.map_cons]

theorem represents_addList (h : Represents self nodes logs) (ts : Time) (logsize : Nat) :
    ∃ nodes', Represents (addList api self ts logsize true) nodes'
      (SortedList.insert LogFile.timestamp ⟨ts, logsize⟩ logs) := by
  have hallocated : Represents
      { self with file := Function.update self.file (self.allocated + 1) ⟨ts, logsize⟩, allocated := self.allocated + 1 }
      nodes logs := by
    refine ⟨h.circular, fun node hnode => (h.allocated node hnode).trans (Nat.le_succ _), ?_⟩
    rw [← h.files]
    exact map_update_succ h.allocated _ _
  have hadd := represents_addListSorted hlist hallocated (succ_not_mem h.allocated) (Nat.le_refl _)
  dsimp only at hadd
  rwa [Function.update_self] at hadd

theorem represents_deleteList (h : Represents self nodes logs) (ts : Time) :
    ∃ nodes', Represents (deleteList api self ts).1 nodes' (SortedList.remove LogFile.timestamp ts logs).1 ∧
      (deleteList api self ts).2 = (SortedList.remove LogFile.timestamp ts logs).2 := by
  obtain ⟨before, after, rfl, hpassed, hstop, hfind⟩ := h.find fun file => file.timestamp = ts
  have hbefore : ∀ log ∈ before.map self.file, log.timestamp ≠ ts :=
    fun log hlog => of_decide_eq_false (hpassed log hlog)
  have hfiles := h.files
  rw [List.map_append] at hfiles
  rw [← hfiles, SortedList.remove_append hbefore]
  cases after with
  | nil =>
      rw [deleteList, hfind]
      exact ⟨before ++ [], ⟨h.circular, h.allocated, List.map_append⟩, rfl⟩
  | cons p after =>
      have hp := h.circular.ne_head (List.mem_append_right before (List.mem_cons_self (a := p)))
      have hentry : (self.file p).timestamp = ts := of_decide_eq_true (hstop p rfl)
      rw [List.headD_cons] at hfind
      simp only [deleteList, hfind, if_neg hp, List.map_cons, SortedList.remove, if_pos hentry]
      refine ⟨before ++ after, ⟨hlist.del h.circular, fun node hnode => ?_, List.map_append⟩, trivial⟩
      obtain hold | hold := List.mem_append.1 hnode
      · exact h.allocated node (List.mem_append_left _ hold)
      · exact h.allocated node (List.mem_append_right _ (List.mem_cons_of_mem p hold))

omit hlist in
/-- The log that is found is the one with the timestamp. -/
theorem Represents.findLog (h : Represents self nodes logs) (ts : Time) :
    findLog self ts = logs.find? (·.timestamp = ts) := by
  rw [← h.files, h.circular.find?_eq self.file (·.timestamp = ts) h.length_le]
  rfl

end Operations

/-- The store's list, without links, is what the links represent, whether the next allocation fails or not. -/
theorem represents_store (hlist : api.Lawful) {store : Logfs.Logfs} (h : Represents self nodes store.logList)
    (ts : Time) (logsize : Nat) :
    (∃ nodes', Represents (addList api self ts logsize (store.memory.fails.head? ≠ some true)) nodes'
        (Logfs.addList store ts logsize).logList) ∧
      ∀ data, store.fs.dir.find ts = some data →
        ∃ nodes', Represents (deleteList api self ts).1 nodes' (Logfs.deleteLog store ts).1.logList := by
  constructor
  · unfold Logfs.addList
    split
    · rename_i hfails
      rw [hfails]
      exact ⟨nodes, h⟩
    · rename_i hmemory
      have hhead : store.memory.fails.head? ≠ some true := by
        intro hhead
        obtain ⟨fails, hfails⟩ := List.head?_eq_some_iff.1 hhead
        exact hmemory fails hfails
      rw [decide_eq_true hhead]
      exact represents_addList hlist h ts logsize
  · intro data hdata
    obtain ⟨nodes', hdeleted, -⟩ := represents_deleteList hlist h ts
    rw [Logfs.deleteLog, hdata]
    exact ⟨nodes', hdeleted⟩

/-! ### Runs -/

/-- What an operation does to the logs. -/
def apply (logs : List LogFile) : Op → List LogFile
  | .add ts logsize memory => if memory then SortedList.insert LogFile.timestamp ⟨ts, logsize⟩ logs else logs
  | .delete ts => (SortedList.remove LogFile.timestamp ts logs).1

/-- The size that the latest addition for the timestamp gave it, if it was not deleted since. Whether an addition counts may depend on whether there was memory. -/
def latest (counts : Bool → Bool) (ts : Time) (ops : List Op) : Option Nat :=
  ops.foldl (fun size op =>
    match op with
    | .add ts' logsize memory => if ts' = ts ∧ counts memory then some logsize else size
    | .delete ts' => if ts' = ts then none else size) none

theorem represents_step (hlist : api.Lawful) (h : Represents self nodes logs) (op : Op) :
    ∃ nodes', Represents (step api self op) nodes' (apply logs op) := by
  cases op with
  | add ts logsize memory =>
      cases memory with
      | false => exact ⟨nodes, h⟩
      | true => exact represents_addList hlist h ts logsize
  | delete ts =>
      obtain ⟨nodes', hdeleted, -⟩ := represents_deleteList hlist h ts
      exact ⟨nodes', hdeleted⟩

theorem represents_run (hlist : api.Lawful) (h : Represents self nodes logs) (ops : List Op) :
    ∃ nodes', Represents (run (step api) self ops) nodes' (run apply logs ops) := by
  induction ops generalizing self nodes logs with
  | nil => exact ⟨nodes, h⟩
  | cons op ops ih =>
      obtain ⟨nodes', hstep⟩ := represents_step hlist h op
      exact ih hstep

theorem sorted_apply (h : SortedList.Sorted LogFile.timestamp logs) (op : Op) :
    SortedList.Sorted LogFile.timestamp (apply logs op) := by
  cases op with
  | add ts logsize memory =>
      cases memory with
      | false => exact h
      | true => exact SortedList.sorted_insert h _
  | delete ts => exact h.remove ts

theorem sorted_run (ops : List Op) : SortedList.Sorted LogFile.timestamp (run apply [] ops) :=
  run_invariant (I := SortedList.Sorted LogFile.timestamp) (fun _ op h => sorted_apply h op) SortedList.sorted_nil ops

/-- The logs are the map that the operations have written. -/
theorem find?_run (ts : Time) (ops : List Op) :
    ((run apply [] ops).find? (·.timestamp = ts)).map LogFile.size = latest id ts ops := by
  induction ops using List.reverseRecOn with
  | nil => rfl
  | append_singleton ops op ih =>
      have hsorted := sorted_run ops
      rw [run_append, run_cons, run_nil, latest, List.foldl_append, ← latest, ← ih, List.foldl_cons, List.foldl_nil]
      generalize run apply [] ops = logs at hsorted
      cases op with
      | add ts' logsize memory =>
          dsimp only [apply]
          cases memory with
          | false =>
              have hlost : ¬ (ts' = ts ∧ id false = true) := fun h => Bool.false_ne_true h.2
              rw [if_neg Bool.false_ne_true, if_neg hlost]
          | true =>
              rw [if_pos rfl, SortedList.find?_insert]
              by_cases hts : ts' = ts
              · rw [if_pos hts, if_pos ⟨hts, rfl⟩, Option.map_some]
              · rw [if_neg hts, if_neg fun h => hts h.1]
      | delete ts' =>
          dsimp only [apply]
          rw [SortedList.find?_remove hsorted]
          split_ifs <;> rfl

/-- After every run the logs are strictly ascending, and a timestamp has the size that the latest addition for it with memory for its node gave it. -/
theorem log_list_is_map (hlist : api.Lawful) (ops : List Op) :
    (∃ nodes logs, Represents (run (step api) .init ops) nodes logs ∧ SortedList.Sorted LogFile.timestamp logs) ∧
      ∀ ts, (findLog (run (step api) .init ops) ts).map LogFile.size = latest id ts ops := by
  obtain ⟨nodes, hrun⟩ := represents_run hlist represents_init ops
  refine ⟨⟨nodes, _, hrun, sorted_run ops⟩, fun ts => ?_⟩
  rw [hrun.findLog, find?_run]

/-- A log that grew, and for whose new size there was no node. -/
def grown : List Op := [.add 1700000000 100 true, .add 1700000000 250 false]

theorem log_list_of_grown :
    (∃ nodes logs, Represents (run (step pointers) .init grown) nodes logs ∧
      SortedList.Sorted LogFile.timestamp logs) ∧
    ∀ ts, (findLog (run (step pointers) .init grown) ts).map LogFile.size = latest id ts grown :=
  log_list_is_map lawful_pointers grown

/-- The list keeps the size it had. -/
theorem log_list_misses_addition :
    (findLog (run (step pointers) .init grown) 1700000000).map LogFile.size = some 100 ∧
      latest (fun _ => true) 1700000000 grown = some 250 := by
  obtain ⟨nodes, hrun⟩ := represents_run lawful_pointers represents_init grown
  refine ⟨?_, by decide⟩
  rw [hrun.findLog, find?_run]
  decide

end Evse.LogList
