import Mathlib.Algebra.Group.Defs
import Mathlib.Data.List.Basic
import Mathlib.Tactic.Tauto

/-!
# A ledger of started and stopped entries

Entries are started and must be stopped later. The ledger holds one entry in a volatile slot and one in a durable slot, and remembers which entries were started and which were stopped. `0` is no entry. An entry is kept as long as it is stopped or in one of the slots; an operation that empties or overwrites a slot may lose it, and `Safe` says exactly which do.
-/

structure Ledger (α : Type*) where
  slot : α
  saved : α
  stopped : List α
  started : List α

namespace Ledger

variable {α : Type*} [Zero α]

inductive Op (α : Type*) where
  | keep
  /-- Empty the slot. -/
  | clear
  /-- Stop what is in the slot and empty it. -/
  | stop
  /-- Stop what was saved and empty the slot. -/
  | recover
  /-- Start an entry, in the slot. -/
  | start (entry : α)
  /-- Save what is in the slot. -/
  | save
  /-- Forget what was saved. -/
  | forget

def apply (L : Ledger α) : Op α → Ledger α
  | .keep => L
  | .clear => { L with slot := 0 }
  | .stop => { L with slot := 0, stopped := L.stopped ++ [L.slot] }
  | .recover => { L with slot := 0, stopped := L.stopped ++ [L.saved] }
  | .start entry => { L with slot := entry, started := L.started ++ [entry] }
  | .save => { L with saved := L.slot }
  | .forget => { L with saved := 0 }

/-- The operations that stop an entry. -/
def Op.stops : Op α → Bool
  | .stop | .recover => true
  | _ => false

theorem length_stopped_apply (L : Ledger α) (op : Op α) :
    (L.apply op).stopped.length = L.stopped.length + op.stops.toNat := by
  cases op <;> simp [apply, Op.stops]

@[simp] theorem apply_keep (L : Ledger α) : L.apply .keep = L := rfl

/-- The entry is stopped or in one of the slots. -/
def Knows (L : Ledger α) (entry : α) : Prop :=
  entry ∈ L.stopped ∨ L.slot = entry ∨ L.saved = entry

def Kept (L : Ledger α) : Prop :=
  ∀ entry ∈ L.started, entry ≠ 0 → L.Knows entry

/-- The entry needs no slot: it is none, was never started or is stopped. -/
def Settled (L : Ledger α) (entry : α) : Prop :=
  entry = 0 ∨ entry ∉ L.started ∨ entry ∈ L.stopped

/-- The operations that lose nothing. -/
def Safe (L : Ledger α) : Op α → Prop
  | .keep => True
  | .clear => L.Settled L.slot ∨ L.saved = L.slot
  | .stop => True
  | .recover => L.Settled L.slot ∨ L.saved = L.slot
  | .start entry => L.Settled L.slot ∨ L.saved = L.slot ∨ entry = L.slot
  | .save => L.Settled L.saved ∨ L.slot = L.saved
  | .forget => L.Settled L.saved ∨ L.slot = L.saved

variable {L : Ledger α}

/-- A change that can lose one entry only: the ledger keeps its entries exactly when that one needs no keeping or is still known. -/
private theorem kept_iff_of_lost (L' : Ledger α) (lost : α) (h : L.Kept) (hsub : ∀ entry ∈ L.started, entry ∈ L'.started)
    (hnew : ∀ entry ∈ L'.started, entry ∈ L.started ∨ L'.Knows entry)
    (hother : ∀ entry, entry ≠ lost → entry ≠ 0 → L.Knows entry → L'.Knows entry) :
    L'.Kept ↔ lost = 0 ∨ lost ∉ L.started ∨ L'.Knows lost := by
  constructor
  · intro hkept
    by_cases hzero : lost = 0
    · exact .inl hzero
    · by_cases hmem : lost ∈ L.started
      · exact .inr (.inr (hkept lost (hsub lost hmem) hzero))
      · exact .inr (.inl hmem)
  · intro hlost entry hmem hne
    rcases hnew entry hmem with hold | hknown
    · by_cases heq : entry = lost
      · subst heq
        rcases hlost with hzero | hnot | hknown
        · exact absurd hzero hne
        · exact absurd hold hnot
        · exact hknown
      · exact hother entry heq hne (h entry hold hne)
    · exact hknown

/-- From a ledger that keeps its entries, an operation keeps them exactly when it is safe. -/
theorem kept_apply_iff (h : L.Kept) (op : Op α) : (L.apply op).Kept ↔ L.Safe op := by
  have hold : ∀ entry ∈ L.started, entry ∈ L.started ∨ (L.apply op).Knows entry := fun _ hmem => .inl hmem
  cases op with
  | keep => exact iff_of_true h trivial
  | stop =>
      refine iff_of_true ?_ trivial
      intro entry hmem hne
      rcases h entry hmem hne with hstopped | rfl | hsaved
      · exact .inl (List.mem_append_left _ hstopped)
      · exact .inl (List.mem_append_right _ List.mem_cons_self)
      · exact .inr (.inr hsaved)
  | clear =>
      rw [kept_iff_of_lost (L.apply .clear) L.slot h (fun _ => id) hold]
      · simp only [apply, Knows, Safe, Settled, eq_comm]
        tauto
      · rintro entry hne - (hs | hs | hs)
        · exact .inl hs
        · exact absurd hs.symm hne
        · exact .inr (.inr hs)
  | recover =>
      rw [kept_iff_of_lost (L.apply .recover) L.slot h (fun _ => id) hold]
      · simp only [apply, Knows, Safe, Settled, List.mem_append, List.mem_singleton, eq_comm]
        tauto
      · rintro entry hne - (hs | hs | hs)
        · exact .inl (List.mem_append_left _ hs)
        · exact absurd hs.symm hne
        · exact .inr (.inr hs)
  | start new =>
      rw [kept_iff_of_lost _ L.slot h (fun _ hmem => List.mem_append_left _ hmem)]
      · simp only [apply, Knows, Safe, Settled]
        tauto
      · intro entry hmem
        rcases List.mem_append.mp hmem with hmem | hmem
        · exact .inl hmem
        · exact .inr (.inr (.inl (List.mem_singleton.mp hmem).symm))
      · rintro entry hne - (hs | hs | hs)
        · exact .inl hs
        · exact absurd hs.symm hne
        · exact .inr (.inr hs)
  | save =>
      rw [kept_iff_of_lost (L.apply .save) L.saved h (fun _ => id) hold]
      · simp only [apply, Knows, Safe, Settled]
        tauto
      · rintro entry hne - (hs | hs | hs)
        · exact .inl hs
        · exact .inr (.inl hs)
        · exact absurd hs.symm hne
  | forget =>
      rw [kept_iff_of_lost (L.apply .forget) L.saved h (fun _ => id) hold]
      · simp only [apply, Knows, Safe, Settled, eq_comm]
        tauto
      · rintro entry hne - (hs | hs | hs)
        · exact .inl hs
        · exact .inr (.inl hs)
        · exact absurd hs.symm hne

end Ledger
