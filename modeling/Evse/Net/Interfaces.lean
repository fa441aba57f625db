import Evse.Lib.LinkedList
import Evse.Net.Manager

/-!
# The list of network interfaces, link by link

`add_netif` goes from link to link, beginning with that of the head, and stops at the first one that leads to an entry of a lower priority or back to the head. There the new entry is linked in, so entries of one priority stay in the order of their registration, and the first entry is the one to pick.
-/

namespace Evse.Net

open LinkedList StepRun

/-- `netif_list` and its entries. The head is node 0, and the entries are numbered as they are registered. -/
structure NetifList (ρ : Type) where
  link : Links Nat
  entry : Nat → Entry ρ
  registered : Nat

/-- A registration, and whether there is memory for its entry. -/
structure Registration (ρ : Type) where
  entry : Entry ρ
  memory : Bool

namespace NetifList

variable {ρ : Type}

/-- `list_init` links the head to itself. What is in the memory of the entries does not matter. -/
def init (memory : Nat → Entry ρ) : NetifList ρ where
  link := id
  entry := memory
  registered := 0

section Operations

variable (m : NetifList ρ)

/-- `p` is the node whose link the new entry goes into; `t` is where it leads to. -/
def addNetif (entry : Nat) : NetifList ρ :=
  let p := (scan m.link 0 (fun t => (m.entry entry).priority > (m.entry t).priority) m.registered (m.link 0) 0).2
  { m with link := insertAfter m.link p entry }

def pickNetif (current : Option Nat) : Option Nat :=
  match current with
  | none => if m.link 0 = 0 then none else some (m.link 0)
  | some current => some current

def registerIface (registration : Registration ρ) : NetifList ρ :=
  if !registration.memory then m
  else
    let entry := m.registered + 1
    addNetif { m with entry := Function.update m.entry entry registration.entry, registered := entry } entry

end Operations

/-! ### The order -/

/-- An entry of a higher priority goes first, and of one priority the one registered first. -/
def Precedes (entry : Nat → Entry ρ) (a b : Nat) : Prop :=
  (entry b).priority < (entry a).priority ∨ (entry a).priority = (entry b).priority ∧ a < b

theorem Precedes.priority_le {entry : Nat → Entry ρ} {a b : Nat} (h : Precedes entry a b) :
    (entry b).priority ≤ (entry a).priority := by
  obtain hlt | ⟨heq, -⟩ := h
  · exact Int.le_of_lt hlt
  · exact Int.le_of_eq heq.symm

/-- The list has every entry once, in order. -/
structure Ordered (m : NetifList ρ) (nodes : List Nat) : Prop where
  circular : Circular m.link 0 nodes
  all : nodes.Perm (List.range' 1 m.registered)
  sorted : nodes.Pairwise (Precedes m.entry)

theorem ordered_init (memory : Nat → Entry ρ) : Ordered (init memory) [] where
  circular := ⟨rfl, List.nodup_singleton 0⟩
  all := List.Perm.refl _
  sorted := List.Pairwise.nil

variable {m : NetifList ρ} {nodes : List Nat}

theorem Ordered.mem_iff (h : Ordered m nodes) (node : Nat) : node ∈ nodes ↔ 1 ≤ node ∧ node ≤ m.registered := by
  rw [h.all.mem_iff, List.mem_range'_1]
  omega

theorem Ordered.length (h : Ordered m nodes) : nodes.length = m.registered := by
  rw [h.all.length_eq, List.length_range']

theorem addNetif_append {entry : Entry ρ} {before after : List (Entry ρ)}
    (h : ∀ t ∈ before, ¬ entry.priority > t.priority) :
    Net.addNetif entry (before ++ after) = before ++ Net.addNetif entry after := by
  induction before with
  | nil => rfl
  | cons t before ih =>
      obtain ⟨ht, hbefore⟩ := List.forall_mem_cons.1 h
      rw [List.cons_append, Net.addNetif, if_neg ht, ih hbefore, List.cons_append]

/-- The new entry goes behind the entries of its priority, as it does in a list without links. -/
theorem Ordered.register (h : Ordered m nodes) (entry : Entry ρ) :
    ∃ nodes', Ordered (registerIface m ⟨entry, true⟩) nodes' ∧
      nodes'.map (registerIface m ⟨entry, true⟩).entry = Net.addNetif entry (nodes.map m.entry) := by
  have hfresh : m.registered + 1 ∉ 0 :: nodes := succ_not_mem fun node hnode => ((h.mem_iff node).1 hnode).2
  have hnew := List.not_mem_of_not_mem_cons hfresh
  obtain ⟨before, after, rfl, hpassed, hstop, hscan⟩ := h.circular.scan_eq
    (fun t => entry.priority > (Function.update m.entry (m.registered + 1) entry t).priority)
    (h.length.le.trans (Nat.le_succ _))
  have hentry : Function.update m.entry (m.registered + 1) entry (m.registered + 1) = entry := Function.update_self ..
  have hold : ∀ t ∈ before ++ after, Function.update m.entry (m.registered + 1) entry t = m.entry t := by
    intro t ht
    have hne : t ≠ m.registered + 1 := fun heq => hnew (heq ▸ ht)
    exact Function.update_of_ne hne _ _
  have hbefore : ∀ t ∈ before, entry.priority ≤ (m.entry t).priority := by
    intro t ht
    have hgo := of_decide_eq_false (hpassed t ht)
    rw [hold t (List.mem_append_left _ ht)] at hgo
    exact Int.not_lt.1 hgo
  have hafter : ∀ t ∈ after, (m.entry t).priority < entry.priority := by
    have hsorted := (List.pairwise_append.1 h.sorted).2.1
    cases after with
    | nil => exact fun t ht => absurd ht List.not_mem_nil
    | cons first after =>
        have hfirst := of_decide_eq_true (hstop first rfl)
        rw [hold first (List.mem_append_right _ List.mem_cons_self)] at hfirst
        refine List.forall_mem_cons.2 ⟨hfirst, fun t ht => ?_⟩
        exact Int.lt_of_le_of_lt ((List.pairwise_cons.1 hsorted).1 t ht).priority_le hfirst
  have hregister : registerIface m ⟨entry, true⟩ =
      { link := insertAfter m.link (before.getLastD 0) (m.registered + 1),
        entry := Function.update m.entry (m.registered + 1) entry, registered := m.registered + 1 } := by
    simp only [registerIface, addNetif, hentry, hscan]
    rfl
  rw [hregister]
  refine ⟨before ++ (m.registered + 1) :: after, ⟨h.circular.insertAfter hfresh, ?_, ?_⟩, ?_⟩
  · have hrange : ((m.registered + 1) :: List.range' 1 m.registered).Perm (List.range' 1 (m.registered + 1)) := by
      rw [List.range'_concat, Nat.one_mul, Nat.add_comm 1]
      exact (List.perm_append_singleton _ _).symm
    exact List.perm_middle.trans ((h.all.cons _).trans hrange)
  · have hsorted : (before ++ after).Pairwise (Precedes (Function.update m.entry (m.registered + 1) entry)) := by
      refine h.sorted.imp_of_mem fun hx hy hxy => ?_
      rwa [Precedes, hold _ hx, hold _ hy]
    obtain ⟨hfront, hback, hcross⟩ := List.pairwise_append.1 hsorted
    refine List.pairwise_append.2 ⟨hfront, List.pairwise_cons.2 ⟨fun t ht => ?_, hback⟩, fun x hx t ht => ?_⟩
    · refine .inl ?_
      dsimp only
      rw [hentry, hold t (List.mem_append_right _ ht)]
      exact hafter t ht
    · obtain rfl | hmem := List.mem_cons.1 ht
      · have hlt : x < m.registered + 1 := Nat.lt_succ_of_le ((h.mem_iff x).1 (List.mem_append_left _ hx)).2
        dsimp only [Precedes]
        rw [hentry, hold x (List.mem_append_left _ hx)]
        exact (Int.lt_or_eq_of_le (hbefore x hx)).imp_right fun heq => ⟨heq.symm, hlt⟩
      · exact hcross x hx t hmem
  · have hmap : ∀ xs ⊆ before ++ after,
        xs.map (Function.update m.entry (m.registered + 1) entry) = xs.map m.entry :=
      fun xs hxs => List.map_congr_left fun t ht => hold t (hxs ht)
    have hpass : ∀ t ∈ before.map m.entry, ¬ entry.priority > t.priority :=
      List.forall_mem_map.2 fun t ht => Int.not_lt.2 (hbefore t ht)
    dsimp only
    rw [List.map_append, List.map_append, List.map_cons, addNetif_append hpass, hentry,
      hmap before (List.subset_append_left _ _), hmap after (List.subset_append_right _ _)]
    cases after with
    | nil => rfl
    | cons first after => rw [List.map_cons, Net.addNetif, if_pos (hafter first List.mem_cons_self)]

/-! ### Runs -/

/-- The entries of the registrations there was memory for. -/
def accepted (registrations : List (Registration ρ)) : List (Entry ρ) :=
  (registrations.filter (·.memory)).map (·.entry)

/-- The entries in the order of their registration. -/
def entries (m : NetifList ρ) : List (Entry ρ) := (List.range' 1 m.registered).map m.entry

theorem entries_register (m : NetifList ρ) (entry : Entry ρ) :
    entries (registerIface m ⟨entry, true⟩) = entries m ++ [entry] := by
  have hold : ∀ t ∈ List.range' 1 m.registered, Function.update m.entry (m.registered + 1) entry t = m.entry t := by
    intro t ht
    have hne : t ≠ m.registered + 1 := by
      rw [List.mem_range'_1] at ht
      omega
    exact Function.update_of_ne hne _ _
  show (List.range' 1 (m.registered + 1)).map (Function.update m.entry (m.registered + 1) entry) = _
  rw [List.range'_concat, List.map_append, List.map_congr_left hold, Nat.one_mul, Nat.add_comm 1, List.map_singleton,
    Function.update_self, entries]

theorem Ordered.run (h : Ordered m nodes) (registrations : List (Registration ρ)) :
    ∃ nodes', Ordered (run registerIface m registrations) nodes' ∧
      nodes'.map (StepRun.run registerIface m registrations).entry =
        (accepted registrations).foldl (fun list entry => Net.addNetif entry list) (nodes.map m.entry) ∧
      entries (StepRun.run registerIface m registrations) = entries m ++ accepted registrations := by
  induction registrations generalizing m nodes with
  | nil => exact ⟨nodes, h, rfl, (List.append_nil _).symm⟩
  | cons registration registrations ih =>
      obtain ⟨entry, memory⟩ := registration
      cases memory with
      | false => exact ih h
      | true =>
          obtain ⟨next, hnext, hmap⟩ := h.register entry
          obtain ⟨nodes', hordered, hlist, hentries⟩ := ih hnext
          refine ⟨nodes', hordered, ?_, ?_⟩
          · rw [hmap] at hlist
            exact hlist
          · rw [entries_register, List.append_assoc] at hentries
            exact hentries

/-! ### The entry to pick -/

/-- The node that was registered first among those of the highest priority. -/
structure IsPick (entry : Nat → Entry ρ) (nodes : List Nat) (node : Nat) : Prop where
  mem : node ∈ nodes
  highest : ∀ other ∈ nodes, (entry other).priority ≤ (entry node).priority
  earliest : ∀ other ∈ nodes, (entry other).priority = (entry node).priority → node ≤ other

theorem Ordered.pickNetif_iff (h : Ordered m nodes) (node : Nat) :
    pickNetif m none = some node ↔ IsPick m.entry nodes node := by
  have hfirst := h.circular.path.first
  rw [pickNetif]
  cases nodes with
  | nil =>
      have hback : m.link 0 = 0 := hfirst
      rw [if_pos hback]
      exact iff_of_false (Option.some_ne_none node).symm fun hpick => absurd hpick.mem List.not_mem_nil
  | cons first rest =>
      have hsorted := (List.pairwise_cons.1 h.sorted).1
      have hne : m.link 0 ≠ 0 := by
        rw [hfirst, List.headD_cons]
        exact h.circular.ne_head List.mem_cons_self
      rw [if_neg hne, hfirst, List.headD_cons, Option.some.injEq]
      constructor
      · rintro rfl
        refine ⟨List.mem_cons_self, fun other hother => ?_, fun other hother heq => ?_⟩
        · obtain rfl | hbehind := List.mem_cons.1 hother
          · exact Int.le_refl _
          · exact (hsorted other hbehind).priority_le
        · obtain rfl | hbehind := List.mem_cons.1 hother
          · exact Nat.le_refl _
          · have hforth := hsorted other hbehind
            simp only [Precedes] at hforth
            omega
      · rintro ⟨hmem, hhighest, hearliest⟩
        by_contra hdiffers
        have hforth := hsorted node ((List.mem_cons.1 hmem).resolve_left (Ne.symm hdiffers))
        have hle := hhighest first List.mem_cons_self
        have hlt := hearliest first List.mem_cons_self
        simp only [Precedes] at hforth
        omega

/-- The entry that is picked is the first one of the list without links. -/
theorem Ordered.pickNetif_entry (h : Ordered m nodes) :
    (pickNetif m none).map m.entry = (nodes.map m.entry).head? := by
  have hfirst := h.circular.path.first
  rw [pickNetif]
  cases nodes with
  | nil =>
      have hback : m.link 0 = 0 := hfirst
      rw [if_pos hback]
      rfl
  | cons first rest =>
      have hlink : m.link 0 = first := hfirst
      have hne : first ≠ 0 := h.circular.ne_head List.mem_cons_self
      rw [hlink, if_neg hne]
      rfl

/-- After every run of registrations, the list has the entries there was memory for, each once, by descending priority and those of one priority in the order of their registration; and without a current entry the one registered first among those of the highest priority is picked. -/
theorem netif_list_in_order (memory : Nat → Entry ρ) (registrations : List (Registration ρ)) :
    ∃ m nodes, m = StepRun.run registerIface (init memory) registrations ∧ Circular m.link 0 nodes ∧
      (List.range' 1 m.registered).map m.entry = accepted registrations ∧
      nodes.Perm (List.range' 1 m.registered) ∧ nodes.Pairwise (Precedes m.entry) ∧
      ∀ node, pickNetif m none = some node ↔ IsPick m.entry nodes node := by
  obtain ⟨nodes, h, -, hentries⟩ := (ordered_init memory).run registrations
  exact ⟨_, nodes, rfl, h.circular, hentries, h.all, h.sorted, h.pickNetif_iff⟩

end NetifList

end Evse.Net
