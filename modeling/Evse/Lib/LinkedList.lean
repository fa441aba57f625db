import Mathlib.Data.List.Nodup
import Mathlib.Data.List.Perm.Subperm
import Mathlib.Data.List.TakeWhile
import Mathlib.Logic.Function.Basic

/-!
# Circular linked lists

A list whose nodes are linked to the next one, the last to the head, and the head to the first; the head carries nothing. A loop over the list walks from node to node, with the node before at hand, until it is back at the head or its body leaves it. A walk gets as many rounds as there may be nodes.

The operations come from a library and are given by what they do to a list, not by how they do it.
-/

namespace LinkedList

variable {ν : Type*}

abbrev Links (ν : Type*) := ν → ν

/-- From `p` the links lead through the nodes, in order, to `finish`. -/
def Path (links : Links ν) : ν → List ν → ν → Prop
  | p, [], finish => links p = finish
  | p, node :: rest, finish => links p = node ∧ Path links node rest finish

/-- The list with these nodes. -/
structure Circular (links : Links ν) (head : ν) (nodes : List ν) : Prop where
  path : Path links head nodes head
  nodup : (head :: nodes).Nodup

variable {links links' : Links ν} {head p finish : ν} {before after nodes : List ν}

theorem Circular.ne_head (h : Circular links head nodes) (hp : p ∈ nodes) : p ≠ head :=
  fun heq => (List.nodup_cons.1 h.nodup).1 (heq ▸ hp)

theorem Path.first (h : Path links p nodes finish) : links p = nodes.headD finish := by
  cases nodes with
  | nil => exact h
  | cons node rest => exact h.1

theorem Path.from_last (h : Path links p (before ++ after) finish) : Path links (before.getLastD p) after finish := by
  induction before generalizing p with
  | nil => exact h
  | cons node before ih =>
      rw [List.getLastD_cons]
      exact ih h.2

theorem Path.congr (h : Path links p nodes finish) (hsame : ∀ x ∈ p :: nodes, links' x = links x) :
    Path links' p nodes finish := by
  induction nodes generalizing p with
  | nil => exact (hsame p List.mem_cons_self).trans h
  | cons node rest ih =>
      exact ⟨(hsame p List.mem_cons_self).trans h.1, ih h.2 fun x hx => hsame x (List.mem_cons_of_mem p hx)⟩

/-- Only the link of the last node before the change is another one. -/
theorem Path.relink {after' : List ν} (h : Path links p (before ++ after) finish) (hnodup : (p :: before).Nodup)
    (hsame : ∀ x ∈ p :: before, x ≠ before.getLastD p → links' x = links x)
    (hrest : Path links' (before.getLastD p) after' finish) : Path links' p (before ++ after') finish := by
  induction before generalizing p with
  | nil => exact hrest
  | cons node before ih =>
      rw [List.getLastD_cons] at hsame hrest
      obtain ⟨hp, hnodup⟩ := List.nodup_cons.1 hnodup
      have hne : p ≠ before.getLastD node := fun heq => hp (heq ▸ List.getLastD_mem_cons)
      refine ⟨(hsame p List.mem_cons_self hne).trans h.1, ih h.2 hnodup ?_ hrest⟩
      exact fun x hx => hsame x (List.mem_cons_of_mem p hx)

/-! ### Loops -/

section Loops

variable [DecidableEq ν] {stop : ν → Bool} {rounds : Nat} {t : ν}

/-- The loop over a list, from `p` with `t` before it. It ends at a node that `stop`s it or at the head; with the node before. -/
def scan (links : Links ν) (head : ν) (stop : ν → Bool) : Nat → ν → ν → ν × ν
  | 0, p, t => (p, t)
  | rounds + 1, p, t => if p = head ∨ stop p then (p, t) else scan links head stop rounds (links p) p

/-- The nodes a loop without an exit visits. -/
def walk (links : Links ν) (head : ν) : Nat → ν → List ν
  | 0, _ => []
  | rounds + 1, p => if p = head then [] else p :: walk links head rounds (links p)

theorem scan_eq (h : Path links t nodes head) (hhead : head ∉ nodes) (hrounds : nodes.length ≤ rounds) :
    scan links head stop rounds (links t) t =
      ((nodes.dropWhile (!stop ·)).headD head, (nodes.takeWhile (!stop ·)).getLastD t) := by
  induction nodes generalizing t rounds with
  | nil =>
      have hback : links t = head := h
      rw [hback]
      cases rounds with
      | zero => rfl
      | succ rounds => exact if_pos (.inl rfl)
  | cons node rest ih =>
      obtain ⟨rounds, rfl⟩ := Nat.exists_eq_succ_of_ne_zero (Nat.ne_of_gt (Nat.lt_of_lt_of_le (Nat.succ_pos _) hrounds))
      rw [List.mem_cons, not_or] at hhead
      obtain ⟨hne, hrest⟩ := hhead
      rw [h.1, scan, List.dropWhile_cons, List.takeWhile_cons]
      cases hstop : stop node with
      | true =>
          rw [if_pos (.inr rfl)]
          rfl
      | false =>
          have hgo : ¬ (node = head ∨ false = true) := fun hstop => hstop.elim (Ne.symm hne) Bool.false_ne_true
          rw [if_neg hgo, ih h.2 hrest (Nat.le_of_succ_le_succ hrounds), Bool.not_false, if_pos rfl, if_pos rfl,
            List.getLastD_cons]

theorem walk_eq (h : Path links t nodes head) (hhead : head ∉ nodes) (hrounds : nodes.length ≤ rounds) :
    walk links head rounds (links t) = nodes := by
  induction nodes generalizing t rounds with
  | nil =>
      have hback : links t = head := h
      rw [hback]
      cases rounds with
      | zero => rfl
      | succ rounds => exact if_pos rfl
  | cons node rest ih =>
      obtain ⟨rounds, rfl⟩ := Nat.exists_eq_succ_of_ne_zero (Nat.ne_of_gt (Nat.lt_of_lt_of_le (Nat.succ_pos _) hrounds))
      rw [List.mem_cons, not_or] at hhead
      obtain ⟨hne, hrest⟩ := hhead
      rw [h.1, walk, if_neg (Ne.symm hne), ih h.2 hrest (Nat.le_of_succ_le_succ hrounds)]

/-- A loop over the whole list splits it where it ends. -/
theorem Circular.scan_eq (h : Circular links head nodes) (stop : ν → Bool) (hrounds : nodes.length ≤ rounds) :
    ∃ before after, nodes = before ++ after ∧ (∀ x ∈ before, stop x = false) ∧
      (∀ x ∈ after.head?, stop x = true) ∧
      scan links head stop rounds (links head) head = (after.headD head, before.getLastD head) := by
  refine ⟨_, _, List.takeWhile_append_dropWhile.symm, fun x hx => ?_, fun x hx => ?_,
    LinkedList.scan_eq h.path (List.nodup_cons.1 h.nodup).1 hrounds⟩
  · simpa using List.mem_takeWhile_imp hx
  · have hkept := List.head?_dropWhile_not (!stop ·) nodes
    rw [Option.mem_def.1 hx] at hkept
    simpa using hkept

theorem Circular.walk_eq (h : Circular links head nodes) (hrounds : nodes.length ≤ rounds) :
    walk links head rounds (links head) = nodes :=
  LinkedList.walk_eq h.path (List.nodup_cons.1 h.nodup).1 hrounds

/-- A loop that looks for a value finds the first of them in the nodes. -/
theorem Circular.find?_eq {α : Type*} (h : Circular links head nodes) (value : ν → α) (stop : α → Bool)
    (hrounds : nodes.length ≤ rounds) :
    (nodes.map value).find? stop =
      if (scan links head (fun p => stop (value p)) rounds (links head) head).1 = head then none
      else some (value (scan links head (fun p => stop (value p)) rounds (links head) head).1) := by
  obtain ⟨before, after, rfl, hpassed, hstop, hscan⟩ := h.scan_eq (fun p => stop (value p)) hrounds
  have hbefore : (before.map value).find? stop = none := by
    rw [List.find?_eq_none]
    exact List.forall_mem_map.2 fun x hx => ne_true_of_eq_false (hpassed x hx)
  rw [hscan, List.map_append, List.find?_append, hbefore, Option.none_or]
  cases after with
  | nil => exact (if_pos rfl).symm
  | cons p after =>
      have hp := h.ne_head (List.mem_append_right before (List.mem_cons_self (a := p)))
      rw [List.headD_cons, if_neg hp]
      exact List.find?_cons_of_pos (hstop p rfl)

/-- A head and links have one list at most. -/
theorem Circular.unique {nodes' : List ν} (h : Circular links head nodes) (h' : Circular links head nodes') :
    nodes = nodes' := by
  have hwalk := h.walk_eq (Nat.le_max_left nodes.length nodes'.length)
  rwa [h'.walk_eq (Nat.le_max_right nodes.length nodes'.length), eq_comm] at hwalk

end Loops

/-! ### Numbered nodes -/

section Numbered

variable {nodes : List Nat} {numbered : Nat}

/-- Nodes that are numbered from 1 on are not more than there are numbers. -/
theorem Circular.length_le {links : Links Nat} (h : Circular links 0 nodes) (hle : ∀ node ∈ nodes, node ≤ numbered) :
    nodes.length ≤ numbered := by
  have hsub : nodes ⊆ List.range' 1 numbered := by
    intro node hnode
    have hpos := h.ne_head hnode
    have hnumbered := hle node hnode
    rw [List.mem_range'_1]
    omega
  exact (List.subperm_of_subset h.nodup.of_cons hsub).length_le.trans_eq (List.length_range' ..)

/-- The next number is that of a new node. -/
theorem succ_not_mem (hle : ∀ node ∈ nodes, node ≤ numbered) : numbered + 1 ∉ 0 :: nodes := by
  rw [List.mem_cons, not_or]
  exact ⟨Nat.succ_ne_zero _, fun hmem => Nat.not_succ_le_self _ (hle _ hmem)⟩

/-- What is in the new node is not in the others. -/
theorem map_update_succ {α : Type*} (hle : ∀ node ∈ nodes, node ≤ numbered) (value : Nat → α) (a : α) :
    nodes.map (Function.update value (numbered + 1) a) = nodes.map value := by
  apply List.map_congr_left
  intro node hnode
  have hne : node ≠ numbered + 1 := Nat.ne_of_lt (Nat.lt_succ_of_le (hle node hnode))
  exact Function.update_of_ne hne _ _

end Numbered

/-! ### Changing the links -/

section Operations

variable [DecidableEq ν] {node new : ν}

/-- Link a new node in behind another one. -/
def insertAfter (links : Links ν) (node new : ν) : Links ν :=
  Function.update (Function.update links new (links node)) node new

/-- Link past the node behind another one. -/
def unlinkAfter (links : Links ν) (node : ν) : Links ν := Function.update links node (links (links node))

theorem Circular.insertAfter (h : Circular links head (before ++ after)) (hnew : new ∉ head :: (before ++ after)) :
    Circular (insertAfter links (before.getLastD head) new) head (before ++ new :: after) := by
  obtain ⟨hhead, hnodup⟩ := List.nodup_cons.1 h.nodup
  rw [List.mem_cons, not_or, List.mem_append, not_or] at hnew
  obtain ⟨hnewHead, hnewBefore, hnewAfter⟩ := hnew
  have hlast : before.getLastD head ∈ head :: before := List.getLastD_mem_cons
  have hfront : (head :: before).Nodup :=
    List.nodup_cons.2 ⟨fun hmem => hhead (List.mem_append_left _ hmem), hnodup.of_append_left⟩
  have hlastAfter : before.getLastD head ∉ after := by
    intro hmem
    obtain heq | hbefore := List.mem_cons.1 hlast
    · exact hhead (List.mem_append_right _ (heq ▸ hmem))
    · exact List.disjoint_of_nodup_append hnodup hbefore hmem
  have hlastNew : new ≠ before.getLastD head := by
    intro heq
    obtain hmem | hmem := List.mem_cons.1 hlast
    · exact hnewHead (heq.trans hmem)
    · exact hnewBefore (heq ▸ hmem)
  constructor
  · refine h.path.relink hfront (fun x hx hne => ?_) ⟨Function.update_self _ _ _, ?_⟩
    · have hxnew : x ≠ new := by
        rintro rfl
        obtain heq | hmem := List.mem_cons.1 hx
        · exact hnewHead heq
        · exact hnewBefore hmem
      rw [LinkedList.insertAfter, Function.update_of_ne hne, Function.update_of_ne hxnew]
    · have hold := h.path.from_last
      have hother : ∀ x ∈ after, LinkedList.insertAfter links (before.getLastD head) new x = links x := by
        intro x hx
        have hxlast : x ≠ before.getLastD head := fun heq => hlastAfter (heq ▸ hx)
        have hxnew : x ≠ new := fun heq => hnewAfter (heq ▸ hx)
        rw [LinkedList.insertAfter, Function.update_of_ne hxlast, Function.update_of_ne hxnew]
      have hlink : LinkedList.insertAfter links (before.getLastD head) new new = links (before.getLastD head) := by
        rw [LinkedList.insertAfter, Function.update_of_ne hlastNew, Function.update_self]
      cases after with
      | nil => exact hlink.trans hold
      | cons y after => exact ⟨hlink.trans hold.1, hold.2.congr hother⟩
  · rw [List.nodup_cons, List.nodup_middle, List.nodup_cons, List.mem_append, List.mem_append, List.mem_cons]
    rw [List.mem_append] at hhead
    exact ⟨by tauto, by tauto, hnodup⟩

theorem Circular.unlinkAfter (h : Circular links head (before ++ node :: after)) :
    Circular (unlinkAfter links (before.getLastD head)) head (before ++ after) := by
  obtain ⟨hhead, hnodup⟩ := List.nodup_cons.1 h.nodup
  rw [List.nodup_middle, List.nodup_cons] at hnodup
  rw [List.mem_append, List.mem_cons, not_or, not_or] at hhead
  obtain ⟨hheadBefore, -, hheadAfter⟩ := hhead
  have hlast : before.getLastD head ∈ head :: before := List.getLastD_mem_cons
  have hfront : (head :: before).Nodup := List.nodup_cons.2 ⟨hheadBefore, hnodup.2.of_append_left⟩
  have hlastAfter : before.getLastD head ∉ after := by
    intro hmem
    obtain heq | hbefore := List.mem_cons.1 hlast
    · exact hheadAfter (heq ▸ hmem)
    · exact List.disjoint_of_nodup_append hnodup.2 hbefore hmem
  obtain ⟨hnode, hold⟩ := h.path.from_last
  constructor
  · refine h.path.relink hfront (fun x _ hne => Function.update_of_ne hne _ _) ?_
    have hlink : LinkedList.unlinkAfter links (before.getLastD head) (before.getLastD head) = links node := by
      rw [LinkedList.unlinkAfter, Function.update_self, hnode]
    have hother : ∀ x ∈ after, LinkedList.unlinkAfter links (before.getLastD head) x = links x := by
      intro x hx
      have hxlast : x ≠ before.getLastD head := fun heq => hlastAfter (heq ▸ hx)
      exact Function.update_of_ne hxlast _ _
    cases after with
    | nil => exact hlink.trans hold
    | cons y after => exact ⟨hlink.trans hold.1, hold.2.congr hother⟩
  · rw [List.nodup_cons, List.mem_append, not_or]
    exact ⟨⟨hheadBefore, hheadAfter⟩, hnodup.2⟩

end Operations

/-! ### The operations of a library -/

/-- `add` is told the node to insert behind, `addTail` and `del` the head. -/
structure Api (ν : Type*) where
  add (links : Links ν) (node new : ν) : Links ν
  addTail (links : Links ν) (head new : ν) : Links ν
  del (links : Links ν) (head node : ν) : Links ν

/-- What is relied on: a new node is inserted after the given node, or at the end, and the node that is deleted is gone. -/
structure Api.Lawful (api : Api ν) : Prop where
  add : ∀ {links : Links ν} {head new : ν} {before after : List ν}, Circular links head (before ++ after) →
    new ∉ head :: (before ++ after) → Circular (api.add links (before.getLastD head) new) head (before ++ new :: after)
  addTail : ∀ {links : Links ν} {head new : ν} {nodes : List ν}, Circular links head nodes → new ∉ head :: nodes →
    Circular (api.addTail links head new) head (nodes ++ [new])
  del : ∀ {links : Links ν} {head node : ν} {before after : List ν}, Circular links head (before ++ node :: after) →
    Circular (api.del links head node) head (before ++ after)

open Classical in
/-- Such a library: where a node is to be found by walking, it is the one behind which the list goes on as it does. -/
noncomputable def pointers : Api ν where
  add := insertAfter
  addTail links head new :=
    if h : ∃ nodes, Circular links head nodes then insertAfter links (h.choose.getLastD head) new else links
  del links head node :=
    if h : ∃ before after, Circular links head (before ++ node :: after) then
      unlinkAfter links (h.choose.getLastD head)
    else links

theorem lawful_pointers : (pointers : Api ν).Lawful where
  add := by
    classical
    exact Circular.insertAfter
  addTail := by
    classical
    intro links head new nodes h hnew
    have hex : ∃ nodes, Circular links head nodes := ⟨nodes, h⟩
    have hchoose : hex.choose = nodes := hex.choose_spec.unique h
    rw [pointers]
    dsimp only
    rw [dif_pos hex, hchoose]
    rw [← List.append_nil nodes] at h hnew
    exact h.insertAfter hnew
  del := by
    classical
    intro links head node before after h
    have hex : ∃ before after, Circular links head (before ++ node :: after) := ⟨before, after, h⟩
    obtain ⟨after', hspec⟩ := hex.choose_spec
    have hsame := hspec.unique h
    have hnot : ∀ {before after : List ν}, Circular links head (before ++ node :: after) → node ∉ before ∧ node ∉ after := by
      intro before after hcircular
      have hnodup := (List.nodup_middle.1 (List.nodup_cons.1 hcircular.nodup).2)
      rw [List.nodup_cons, List.mem_append, not_or] at hnodup
      exact hnodup.1
    have hbefore : hex.choose = before :=
      ((List.append_cons_inj_of_notMem (hnot hspec).1 (hnot hspec).2).1 hsame).1
    rw [pointers]
    dsimp only
    rw [dif_pos hex, hbefore]
    exact h.unlinkAfter

end LinkedList
