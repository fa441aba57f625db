import Evse.Ocpp.Charger
import Mathlib.Data.List.Induction

/-!
# RemoteStopTransaction

`do_remote_stop` looks for the connector that has the transaction, releases it and accepts. A connector has a transaction if its session or its checkpoint names it. Both name 0 while there is none, and the checkpoint names a transaction until its stop has been confirmed, by when the session may be another one's. So the connector found need not be charging under the transaction, and one that is not charging loses its session.
-/

namespace Evse.Ocpp.Charger

open StepRun

/-- A connector is in a charging session under the transaction. -/
def ChargesUnder (transactionId : Int) (w : World) : Prop :=
  (w.base.fsm = .charging ∨ w.base.fsm = .suspendedEV) ∧ w.session.transactionId = transactionId

/-- The connectors that `do_remote_stop` calls `ocpp_connector_release` on. -/
def releasedByStop (c : Charger) (transactionId : Int) : List Nat := (c.connectorByTid transactionId).toList

/-- What is observed of the connector at a place: its session with the pending authorization, the registered callback and the state of its machine. -/
def observed (c : Charger) (place : Nat) : Option (Session × Option AuthCallback × OcppState) :=
  c.connectors[place]?.map fun w => (w.session, w.auth, w.base.fsm)

/-- A transaction that can be stopped is accepted with exactly its connector released, remotely, any other one rejected with nothing changed. -/
structure StopsExactly (env : Env) (c : Charger) (transactionId : Int) : Prop where
  accepted : (c.doRemoteStop env transactionId).2 = true ∨ c.releasedByStop transactionId ≠ [] →
    transactionId ≠ 0 ∧ ∃ place w, c.connectors[place]? = some w ∧ ChargesUnder transactionId w ∧
      c.releasedByStop transactionId = [place] ∧
      (c.doRemoteStop env transactionId).1 = c.put place (release env w true) ∧
      (∀ other, other ≠ place → observed (c.doRemoteStop env transactionId).1 other = observed c other)
  rejected : (transactionId = 0 ∨ ∀ w ∈ c.connectors, ¬ ChargesUnder transactionId w) →
    (c.doRemoteStop env transactionId).2 = false ∧ (c.doRemoteStop env transactionId).1 = c

/-- The connector at the place is the last one that has the transaction. -/
def LastWith (c : Charger) (transactionId : Int) (place : Nat) (w : World) : Prop :=
  c.connectors[place]? = some w ∧ hasTransaction w transactionId = true ∧
    ∀ later w', place < later → c.connectors[later]? = some w' → hasTransaction w' transactionId = false

/-! ### The lookup -/

section Last

variable {α : Type*} (p : α → Bool)

/-- The element at the index is the last one with the property. -/
def IsLast (xs : List α) (i : Nat) : Prop :=
  ∃ x, xs[i]? = some x ∧ p x = true ∧ ∀ j y, i < j → xs[j]? = some y → p y = false

variable {p} {xs : List α} {x : α} {i : Nat}

theorem isLast_concat_of_pos (hx : p x = true) : IsLast p (xs ++ [x]) i ↔ i = xs.length := by
  constructor
  · rintro ⟨y, hy, -, hlater⟩
    have hlt : i < (xs ++ [x]).length := (List.getElem?_eq_some_iff.1 hy).1
    rw [List.length_append, List.length_singleton] at hlt
    by_contra hne
    have hnot := hlater xs.length x (by omega) (by simp)
    exact absurd hx (by simp [hnot])
  · rintro rfl
    refine ⟨x, by simp, hx, fun j y hj hy => ?_⟩
    rw [List.getElem?_eq_none (by rw [List.length_append, List.length_singleton]; omega)] at hy
    cases hy

theorem isLast_concat_of_neg (hx : p x = false) : IsLast p (xs ++ [x]) i ↔ IsLast p xs i := by
  constructor
  · rintro ⟨y, hy, hp, hlater⟩
    have hlt : i < xs.length := by
      have hle : i < (xs ++ [x]).length := (List.getElem?_eq_some_iff.1 hy).1
      rw [List.length_append, List.length_singleton] at hle
      by_contra hge
      have hlast : i = xs.length := by omega
      rw [hlast, List.getElem?_concat_length] at hy
      cases hy
      exact absurd hp (by simp [hx])
    rw [List.getElem?_append_left hlt] at hy
    refine ⟨y, hy, hp, fun j z hj hz => hlater j z hj ?_⟩
    rw [List.getElem?_append_left (List.getElem?_eq_some_iff.1 hz).1, hz]
  · rintro ⟨y, hy, hp, hlater⟩
    refine ⟨y, by rw [List.getElem?_append_left (List.getElem?_eq_some_iff.1 hy).1, hy], hp, fun j z hj hz => ?_⟩
    by_cases hin : j < xs.length
    · rw [List.getElem?_append_left hin] at hz
      exact hlater j z hj hz
    · rw [List.getElem?_append_right (Nat.le_of_not_lt hin)] at hz
      have hzx : z = x := List.mem_singleton.1 (List.mem_of_getElem? hz)
      rw [hzx, hx]

/-- A search through the whole list keeps the last element with the property. -/
theorem foldl_eq_some_iff_isLast :
    xs.zipIdx.foldl (fun found x => if p x.1 then some x.2 else found) none = some i ↔ IsLast p xs i := by
  -- From the back: the last element decides, or those before it.
  induction xs using List.reverseRecOn with
  | nil => simp [IsLast]
  | append_singleton xs x ih =>
      rw [List.zipIdx_append, List.foldl_append]
      simp only [List.zipIdx_singleton, List.foldl_cons, List.foldl_nil, Nat.zero_add]
      cases hx : p x with
      | true =>
          rw [isLast_concat_of_pos hx, if_pos rfl, Option.some.injEq, eq_comm]
      | false =>
          rw [isLast_concat_of_neg hx, if_neg Bool.false_ne_true, ih]

end Last

section Lookup

variable {c : Charger} {transactionId : Int}

theorem connectorByTid_eq_some_iff (place : Nat) :
    c.connectorByTid transactionId = some place ↔ ∃ w, LastWith c transactionId place w :=
  foldl_eq_some_iff_isLast (p := (hasTransaction · transactionId))

theorem doRemoteStop_of_none (env : Env) (h : c.connectorByTid transactionId = none) :
    c.doRemoteStop env transactionId = (c, false) ∧ c.releasedByStop transactionId = [] := by
  simp only [doRemoteStop, releasedByStop, h, Option.toList_none, and_self]

theorem doRemoteStop_of_some (env : Env) {place : Nat} (h : c.connectorByTid transactionId = some place) :
    c.doRemoteStop env transactionId = (c.on place fun w => release env w true, true) ∧
      c.releasedByStop transactionId = [place] := by
  simp only [doRemoteStop, releasedByStop, h, Option.toList_some, and_self]

end Lookup

/-- A call on one connector is not observed on the others. -/
theorem observed_on (c : Charger) {place other : Nat} (hother : other ≠ place) (call : World → World) :
    observed (c.on place call) other = observed c other := by
  unfold on
  split
  · rfl
  · simp only [observed, put, List.getElem?_map, List.getElem?_set_ne hother.symm, Option.map_map]
    rfl

/-! ### The whole request -/

/-- The response is exact if and only if the last connector that has the transaction, if there is one, is charging under it and the transaction is not 0. -/
theorem remoteStop_exact_iff (env : Env) (c : Charger) (transactionId : Int) :
    StopsExactly env c transactionId ↔
      ∀ place w, LastWith c transactionId place w → transactionId ≠ 0 ∧ ChargesUnder transactionId w := by
  constructor
  · intro hexact place w hlast
    obtain ⟨-, hreleased⟩ := doRemoteStop_of_some env ((connectorByTid_eq_some_iff place).2 ⟨w, hlast⟩)
    obtain ⟨hne, place', w', hw', hcharges, hreleased', -⟩ :=
      hexact.accepted (.inr (by rw [hreleased]; exact List.cons_ne_nil place []))
    have hplace : place = place' := List.singleton_inj.1 (hreleased.symm.trans hreleased')
    have hw : some w = some w' := hlast.1.symm.trans (hplace ▸ hw')
    cases hw
    exact ⟨hne, hcharges⟩
  · intro hlast
    cases hfound : c.connectorByTid transactionId with
    | none =>
        obtain ⟨hstop, hreleased⟩ := doRemoteStop_of_none env hfound
        constructor
        · rintro (haccepted | hsome)
          · rw [hstop] at haccepted
            cases haccepted
          · exact absurd hreleased hsome
        · intro _
          rw [hstop]
          exact ⟨rfl, rfl⟩
    | some place =>
        obtain ⟨w, hw⟩ := (connectorByTid_eq_some_iff place).1 hfound
        obtain ⟨hne, hcharges⟩ := hlast place w hw
        obtain ⟨hstop, hreleased⟩ := doRemoteStop_of_some env hfound
        constructor
        · intro _
          refine ⟨hne, place, w, hw.1, hcharges, hreleased, ?_, fun other hother => ?_⟩
          · rw [hstop, on, hw.1]
          · rw [hstop]
            exact observed_on c hother _
        · rintro (hzero | hnone)
          · exact absurd hzero hne
          · exact absurd hcharges (hnone w (List.mem_of_getElem? hw.1))

/-- Card A is waiting at an idle connector when the CSMS asks to stop transaction 0, and that is accepted. -/
theorem remoteStop_zero_accepted :
    ¬ StopsExactly {} (run step (create [freshBoot]) [.connector 0 (.tryOccupy { now := 10, trialTime := 10 } cardA)]) 0 := by
  intro hexact
  obtain ⟨hrejected, -⟩ := hexact.rejected (.inl rfl)
  exact absurd hrejected (by decide +kernel)

end Evse.Ocpp.Charger
