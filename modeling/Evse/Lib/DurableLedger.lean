import Evse.Lib.Ledger
import Evse.Lib.Run

/-!
# A ledger over power cuts

The durable slot of a ledger is itself in memory. What survives a power cut is its copy in the flash, which is written in two stages: the slot is first copied to a stage, and what is on the stage is written later. Anything else may be put on the stage as well. A cut empties the volatile slot and fills the rest from the flash.

An entry that is in none of the four places and was not stopped is lost for good, unless it is started or put on the stage again. The other operations bring none forward that was never started.
-/

open StepRun

/-- The ledger with an earlier history before its own. -/
def Ledger.behind {α : Type*} (stopped started : List α) (L : Ledger α) : Ledger α :=
  { L with stopped := stopped ++ L.stopped, started := started ++ L.started }

theorem Ledger.apply_behind {α : Type*} [Zero α] (stopped started : List α) (L : Ledger α) (op : Ledger.Op α) :
    (L.behind stopped started).apply op = (L.apply op).behind stopped started := by
  cases op <;> simp [behind, apply]

structure DurableLedger (α : Type*) extends Ledger α where
  staged : α
  flash : α

namespace DurableLedger

variable {α : Type*} [Zero α]

inductive Op (α : Type*) where
  /-- An operation on the two slots. -/
  | ram (op : Ledger.Op α)
  /-- Copy what was saved to the stage. -/
  | stage
  /-- Put an entry on the stage, or none. -/
  | put (entry : α)
  /-- Write the stage to the flash. -/
  | write
  | cut

def apply (L : DurableLedger α) : Op α → DurableLedger α
  | .ram op => { L with toLedger := L.toLedger.apply op }
  | .stage => { L with staged := L.saved }
  | .put entry => { L with staged := entry }
  | .write => { L with flash := L.staged }
  | .cut => { L with slot := 0, saved := L.flash, staged := L.flash }

/-- The entry is in one of the places. -/
def Holds (L : DurableLedger α) (entry : α) : Prop :=
  L.slot = entry ∨ L.saved = entry ∨ L.staged = entry ∨ L.flash = entry

def Knows (L : DurableLedger α) (entry : α) : Prop := entry ∈ L.stopped ∨ L.Holds entry

def Kept (L : DurableLedger α) : Prop := ∀ entry ∈ L.started, entry ≠ 0 → L.Knows entry

variable {L : DurableLedger α}

/-! ### Nothing comes from nowhere -/

/-- The entries that may be stopped: none, one that the flash held at first, or one that was started. -/
def Admits (first : α) (L : DurableLedger α) (entry : α) : Prop := entry = 0 ∨ entry = first ∨ entry ∈ L.started

/-- All that is in a place or was stopped is such an entry. -/
def Sound (first : α) (L : DurableLedger α) : Prop := ∀ entry, L.Knows entry → L.Admits first entry

/-- The entry that an operation brings from outside. -/
def Op.brought : Op α → Option α
  | .ram (.start entry) | .put entry => some entry
  | _ => none

theorem started_apply (L : DurableLedger α) (op : Op α) : L.started ⊆ (L.apply op).started := by
  cases op with
  | ram op =>
      cases op with
      | start new => exact List.subset_append_left _ _
      | _ => exact fun _ => id
  | _ => exact fun _ => id

theorem Admits.apply {first entry : α} (h : L.Admits first entry) (op : Op α) : (L.apply op).Admits first entry :=
  h.imp_right fun h => h.imp_right fun h => started_apply L op h

/-- An operation moves entries about: what it leaves was known, is none, or is what it brings. -/
theorem knows_of_knows_apply {op : Op α} {entry : α} (hknown : (L.apply op).Knows entry) :
    entry = 0 ∨ L.Knows entry ∨ op.brought = some entry := by
  cases op with
  | ram op =>
      cases op <;>
        simp only [DurableLedger.apply, Ledger.apply, Knows, Holds, Op.brought, List.mem_append, List.mem_singleton,
          Option.some.injEq] at hknown ⊢ <;>
        grind
  | stage => simp only [DurableLedger.apply, Knows, Holds] at hknown ⊢; grind
  | put new => simp only [DurableLedger.apply, Knows, Holds, Op.brought, Option.some.injEq] at hknown ⊢; grind
  | write => simp only [DurableLedger.apply, Knows, Holds] at hknown ⊢; grind
  | cut => simp only [DurableLedger.apply, Knows, Holds] at hknown ⊢; grind

theorem started_of_started_apply {op : Op α} {entry : α} (hstarted : entry ∈ (L.apply op).started) :
    entry ∈ L.started ∨ op = .ram (.start entry) := by
  cases op with
  | ram op =>
      cases op with
      | start new =>
          refine (List.mem_append.mp hstarted).imp_right fun hmem => ?_
          rw [List.mem_singleton.mp hmem]
      | _ => exact .inl hstarted
  | _ => exact .inl hstarted

theorem sound_apply {first : α} (h : L.Sound first) {op : Op α} (hop : ∀ entry, op = .put entry → L.Admits first entry) :
    (L.apply op).Sound first := by
  intro entry hknown
  rcases knows_of_knows_apply hknown with hnone | hold | hnew
  · exact .inl hnone
  · exact (h entry hold).apply op
  · cases op with
    | put new => exact Option.some.inj hnew ▸ (hop new rfl).apply _
    | ram op =>
        cases op with
        | start new => exact .inr (.inr (List.mem_append_right _ (Option.some.inj hnew ▸ List.mem_singleton_self new)))
        | _ => cases hnew
    | _ => cases hnew

/-- The same for operations in a row of which none but the first brings an entry. -/
theorem sound_run {first : α} (h : L.Sound first) {ops : List (Op α)}
    (hhead : ∀ entry, ops.head? = some (.put entry) → L.Admits first entry) (hops : ∀ op ∈ ops.tail, op.brought = none) :
    (run apply L ops).Sound first := by
  induction ops generalizing L with
  | nil => exact h
  | cons op ops ih =>
      refine ih (sound_apply h fun entry hput => hhead entry (congrArg some hput)) (fun entry hput => ?_) fun op hop =>
        hops op (List.mem_of_mem_tail hop)
      cases hops _ (List.mem_of_mem_head? hput)

/-- What is known or was started has the property. -/
def Within (p : α → Prop) (L : DurableLedger α) : Prop := ∀ entry, L.Knows entry ∨ entry ∈ L.started → p entry

theorem within_apply {p : α → Prop} (hzero : p 0) (h : L.Within p) {op : Op α}
    (hop : ∀ entry, op.brought = some entry → p entry) : (L.apply op).Within p := by
  rintro entry (hknown | hstarted)
  · rcases knows_of_knows_apply hknown with rfl | hold | hnew
    · exact hzero
    · exact h entry (.inl hold)
    · exact hop entry hnew
  · rcases started_of_started_apply hstarted with hold | rfl
    · exact h entry (.inr hold)
    · exact hop entry rfl

theorem within_run {p : α → Prop} (hzero : p 0) (h : L.Within p) {ops : List (Op α)}
    (hops : ∀ op ∈ ops, ∀ entry, op.brought = some entry → p entry) : (run apply L ops).Within p := by
  have hrun : EveryStep apply (fun _ op => ∀ entry, op.brought = some entry → p entry) L ops :=
    everyStep_of_forall_mem L hops
  exact run_conditional_invariant (I := Within p) (fun _ _ hwithin hop => within_apply hzero hwithin hop) h hrun

/-! ### What is lost -/

/-- The operations that lose nothing. -/
def Safe (L : DurableLedger α) : Op α → Prop
  | .ram .keep | .ram .stop => True
  | .ram .clear | .ram .recover =>
      L.Settled L.slot ∨ L.saved = L.slot ∨ L.staged = L.slot ∨ L.flash = L.slot
  | .ram (.start entry) =>
      L.Settled L.slot ∨ L.saved = L.slot ∨ L.staged = L.slot ∨ L.flash = L.slot ∨ entry = L.slot
  | .ram .save | .ram .forget =>
      L.Settled L.saved ∨ L.slot = L.saved ∨ L.staged = L.saved ∨ L.flash = L.saved
  | .stage => L.Settled L.staged ∨ L.slot = L.staged ∨ L.saved = L.staged ∨ L.flash = L.staged
  | .put entry =>
      L.Settled L.staged ∨ L.slot = L.staged ∨ L.saved = L.staged ∨ L.flash = L.staged ∨ entry = L.staged
  | .write => L.Settled L.flash ∨ L.slot = L.flash ∨ L.saved = L.flash ∨ L.staged = L.flash
  | .cut =>
      (L.Settled L.slot ∨ L.flash = L.slot) ∧ (L.Settled L.saved ∨ L.flash = L.saved) ∧
        (L.Settled L.staged ∨ L.flash = L.staged)

instance [DecidableEq α] (entry : α) : Decidable (L.Settled entry) := inferInstanceAs (Decidable (_ ∨ _ ∨ _))

instance [DecidableEq α] : DecidablePred L.Safe
  | .ram .keep | .ram .stop => isTrue trivial
  | .ram .clear | .ram .recover | .stage | .write => inferInstanceAs (Decidable (_ ∨ _ ∨ _ ∨ _))
  | .ram .save | .ram .forget => inferInstanceAs (Decidable (_ ∨ _ ∨ _ ∨ _))
  | .ram (.start _) | .put _ => inferInstanceAs (Decidable (_ ∨ _ ∨ _ ∨ _ ∨ _))
  | .cut => inferInstanceAs (Decidable ((_ ∨ _) ∧ (_ ∨ _) ∧ (_ ∨ _)))

/-- A change that can lose these entries only: the ledger keeps its entries exactly when each of them needs no keeping or is still known. -/
private theorem kept_iff_of_lost' (L' : DurableLedger α) (lost : List α) (h : L.Kept)
    (hsub : ∀ entry ∈ L.started, entry ∈ L'.started)
    (hnew : ∀ entry ∈ L'.started, entry ∈ L.started ∨ L'.Knows entry)
    (hother : ∀ entry, entry ∉ lost → entry ≠ 0 → L.Knows entry → L'.Knows entry) :
    L'.Kept ↔ ∀ entry ∈ lost, entry = 0 ∨ entry ∉ L.started ∨ L'.Knows entry := by
  constructor
  · intro hkept entry _
    by_cases hzero : entry = 0
    · exact .inl hzero
    · by_cases hmem : entry ∈ L.started
      · exact .inr (.inr (hkept entry (hsub entry hmem) hzero))
      · exact .inr (.inl hmem)
  · intro hlost entry hmem hne
    rcases hnew entry hmem with hold | hknown
    · by_cases hin : entry ∈ lost
      · rcases hlost entry hin with hzero | hnot | hknown
        · exact absurd hzero hne
        · exact absurd hold hnot
        · exact hknown
      · exact hother entry hin hne (h entry hold hne)
    · exact hknown

/-- The entries an operation can lose. -/
def atRisk (L : DurableLedger α) : Op α → List α
  | .ram .keep | .ram .stop => []
  | .ram .clear | .ram .recover | .ram (.start _) => [L.slot]
  | .ram .save | .ram .forget => [L.saved]
  | .stage | .put _ => [L.staged]
  | .write => [L.flash]
  | .cut => [L.slot, L.saved, L.staged]

theorem safe_iff (L : DurableLedger α) (op : Op α) :
    L.Safe op ↔ ∀ entry ∈ L.atRisk op, entry = 0 ∨ entry ∉ L.started ∨ (L.apply op).Knows entry := by
  cases op with
  | ram op =>
      cases op <;>
        simp only [Safe, atRisk, apply, Ledger.apply, Knows, Holds, Ledger.Settled, List.mem_append, List.mem_singleton,
          List.not_mem_nil, false_imp_iff, implies_true, forall_eq, @eq_comm α 0] <;>
        grind
  | stage =>
      simp only [Safe, atRisk, apply, Knows, Holds, Ledger.Settled, List.mem_singleton, forall_eq]
      grind
  | put new =>
      simp only [Safe, atRisk, apply, Knows, Holds, Ledger.Settled, List.mem_singleton, forall_eq]
      grind
  | write =>
      simp only [Safe, atRisk, apply, Knows, Holds, Ledger.Settled, List.mem_singleton, forall_eq]
      grind
  | cut =>
      have hplace : ∀ entry, (L.Settled entry ∨ L.flash = entry) ↔
          entry = 0 ∨ entry ∉ L.started ∨ (L.apply .cut).Knows entry := by
        intro entry
        simp only [apply, Knows, Holds, Ledger.Settled, @eq_comm α 0]
        grind
      simp only [Safe, atRisk, List.forall_mem_cons, List.not_mem_nil, false_imp_iff, implies_true, and_true, hplace]

/-- From a ledger that keeps its entries, an operation keeps them exactly when it is safe. -/
theorem kept_apply_iff (h : L.Kept) (op : Op α) : (L.apply op).Kept ↔ L.Safe op := by
  rw [safe_iff, kept_iff_of_lost' (L.apply op) (L.atRisk op) h (started_apply L op)]
  · intro entry hmem
    cases op with
    | ram op =>
        cases op with
        | start new =>
            rcases List.mem_append.mp hmem with hmem | hmem
            · exact .inl hmem
            · exact .inr (.inr (.inl (List.mem_singleton.mp hmem).symm))
        | _ => exact .inl hmem
    | _ => exact .inl hmem
  · intro entry hsafe hne hknown
    cases op with
    | ram op =>
        cases op <;>
          simp only [atRisk, apply, Ledger.apply, Knows, Holds, List.mem_append, List.mem_singleton,
            List.not_mem_nil] at * <;>
          grind
    | _ =>
        simp only [atRisk, apply, Knows, Holds, List.mem_cons, List.not_mem_nil] at *
        grind

/-- An entry that is lost stays lost until it is brought anew. -/
theorem kept_of_kept_apply {op : Op α} (hop : op.brought = none) (h : (L.apply op).Kept) : L.Kept := by
  intro entry hmem hne
  have hknown := h entry (started_apply L op hmem) hne
  rcases knows_of_knows_apply hknown with hzero | hold | hnew
  · exact absurd hzero hne
  · exact hold
  · rw [hop] at hnew
    cases hnew

/-- The same for operations in a row of which none but the first brings an entry. -/
theorem kept_run_iff (h : L.Kept) (ops : List (Op α)) (hops : ∀ op ∈ ops.tail, op.brought = none) :
    (run apply L ops).Kept ↔ EveryStep apply Safe L ops := by
  have hback : ∀ (ops : List (Op α)) (L : DurableLedger α), (∀ op ∈ ops, op.brought = none) →
      (run apply L ops).Kept → L.Kept := by
    intro ops
    induction ops with
    | nil => exact fun _ _ hkept => hkept
    | cons op ops ih =>
        intro L hops hkept
        obtain ⟨hop, hops⟩ := List.forall_mem_cons.mp hops
        exact kept_of_kept_apply hop (ih (L.apply op) hops hkept)
  induction ops generalizing L with
  | nil => exact iff_of_true h trivial
  | cons op ops ih =>
      have hnext : ∀ op ∈ ops.tail, op.brought = none := fun op hop => hops op (List.mem_of_mem_tail hop)
      constructor
      · intro hkept
        have hfirst := hback ops (L.apply op) hops hkept
        exact ⟨(kept_apply_iff h op).mp hfirst, (ih hfirst hnext).mp hkept⟩
      · intro hsafe
        exact (ih ((kept_apply_iff h op).mpr hsafe.1) hnext).mpr hsafe.2

end DurableLedger
