import Evse.Lib.LinkedList
import Evse.Lib.Run
import Mathlib.Data.List.Nodup

/-!
# The connectors of a charger and their ids

The charger has a list of its connectors, with an id for each that is also written into the connector. The id comes from a counter that goes up with each attachment and is never reset, so an id is not given twice and both lookups agree, until the counter has been through its 255 values: it is of 8 bits.
-/

namespace Evse.Attachment

open LinkedList StepRun

def ENOENT : Int := 2

def ENOMEM : Int := 12

def EINVAL : Int := 22

/-- Connectors are numbered. -/
structure ConnectorEntry where
  connector : Nat
  id : Int
  deriving DecidableEq

/-- The list of the connectors and the counter of the charger, and the `id` of each connector. The head of the list is node 0, and the entries are numbered as they are allocated. -/
structure Charger where
  link : Links Nat
  entry : Nat → ConnectorEntry
  allocated : Nat
  idCounter : UInt8
  connectorId : Nat → Int

/-- What is in the memory of the entries, and in the connectors, does not matter. -/
def Charger.init (entry : Nat → ConnectorEntry) (connectorId : Nat → Int) : Charger where
  link := id
  entry := entry
  allocated := 0
  idCounter := 0
  connectorId := connectorId

section Operations

variable (api : Api Nat) (self : Charger)

/-- The node at which a loop over the connectors stops. -/
def find (stop : ConnectorEntry → Bool) : Nat :=
  (scan self.link 0 (fun p => stop (self.entry p)) self.allocated (self.link 0) 0).1

/-- `malloc` may fail. -/
def attachConnector (connector : Nat) (memory : Bool) : Charger × Int :=
  if !memory then (self, -ENOMEM)
  else
    let entry := self.allocated + 1
    let idCounter := self.idCounter + 1
    let id : Int := idCounter.toNat
    ({ link := api.addTail self.link 0 entry
       entry := Function.update self.entry entry ⟨connector, id⟩
       allocated := entry
       idCounter := idCounter
       connectorId := Function.update self.connectorId connector id }, 0)

def deleteConnector (connector : Option Nat) : Charger × Int :=
  let p := find self fun entry => some entry.connector = connector
  if p = 0 then (self, -ENOENT) else ({ self with link := api.del self.link 0 p }, 0)

def detachConnector (connector : Option Nat) : Charger × Int := deleteConnector api self connector

/-- What is returned, and what is written to `id` if there is a place for it. -/
def getConnectorId (connector : Option Nat) (place : Bool) : Int × Option Int :=
  if connector = none ∨ !place then (-EINVAL, none)
  else
    let p := find self fun entry => some entry.connector = connector
    if p = 0 then (-ENOENT, none) else (0, some (self.entry p).id)

def getConnectorById (id : Int) : Option Nat :=
  let p := find self fun entry => entry.id = id
  if p = 0 then none else some (self.entry p).connector

end Operations

/-! ### The links and the entries -/

/-- The list has these nodes, and these entries are in them. -/
structure Represents (charger : Charger) (nodes : List Nat) (entries : List ConnectorEntry) : Prop where
  circular : Circular charger.link 0 nodes
  allocated : ∀ node ∈ nodes, node ≤ charger.allocated
  entries : nodes.map charger.entry = entries

theorem represents_init (entry : Nat → ConnectorEntry) (connectorId : Nat → Int) :
    Represents (.init entry connectorId) [] [] where
  circular := ⟨rfl, List.nodup_singleton 0⟩
  allocated := fun _ hnode => absurd hnode List.not_mem_nil
  entries := rfl

variable {api : Api Nat} {self : Charger} {nodes : List Nat} {entries : List ConnectorEntry}

theorem Represents.length_le (h : Represents self nodes entries) : nodes.length ≤ self.allocated :=
  h.circular.length_le h.allocated

theorem Represents.find?_eq (h : Represents self nodes entries) (stop : ConnectorEntry → Bool) :
    entries.find? stop = if find self stop = 0 then none else some (self.entry (find self stop)) := by
  rw [← h.entries]
  exact h.circular.find?_eq self.entry stop h.length_le

theorem Represents.getConnectorById (h : Represents self nodes entries) (id : Int) :
    getConnectorById self id = (entries.find? (·.id = id)).map (·.connector) := by
  rw [Attachment.getConnectorById, h.find?_eq]
  split_ifs
  · rfl
  · rfl

theorem Represents.getConnectorId (h : Represents self nodes entries) (connector : Nat) :
    getConnectorId self (some connector) true =
      (entries.find? (some ·.connector = some connector)).elim (-ENOENT, none) fun entry => (0, some entry.id) := by
  have hgiven : ¬ (some connector = none ∨ (!true) = true) := by simp
  rw [Attachment.getConnectorId, if_neg hgiven, h.find?_eq]
  dsimp only
  split_ifs
  · rfl
  · rfl

/-- The new entry goes behind the others. -/
theorem Represents.attach (hlist : api.Lawful) (h : Represents self nodes entries) (connector : Nat) :
    Represents (attachConnector api self connector true).1 (nodes ++ [self.allocated + 1])
      (entries ++ [⟨connector, (self.idCounter + 1).toNat⟩]) where
  circular := hlist.addTail h.circular (succ_not_mem h.allocated)
  allocated := by
    intro node hnode
    obtain hold | hnew := List.mem_append.1 hnode
    · exact (h.allocated node hold).trans (Nat.le_succ _)
    · exact Nat.le_of_eq (List.mem_singleton.1 hnew)
  entries := by
    have hold := map_update_succ h.allocated self.entry ⟨connector, (self.idCounter + 1).toNat⟩
    rw [h.entries] at hold
    rw [List.map_append]
    exact congrArg₂ (· ++ [·]) hold (Function.update_self ..)

/-- The first entry of the connector is gone. -/
theorem Represents.detach (hlist : api.Lawful) (h : Represents self nodes entries) (connector : Option Nat) :
    ∃ nodes', Represents (detachConnector api self connector).1 nodes'
      (entries.eraseP (some ·.connector = connector)) := by
  obtain ⟨before, after, rfl, hpassed, hstop, hscan⟩ :=
    h.circular.scan_eq (fun p => some (self.entry p).connector = connector) h.length_le
  have hfind : find self (fun entry => some entry.connector = connector) = after.headD 0 := congrArg Prod.fst hscan
  have hbefore : ∀ entry ∈ before.map self.entry, ¬ decide (some entry.connector = connector) = true :=
    List.forall_mem_map.2 fun p hp => ne_true_of_eq_false (hpassed p hp)
  rw [← h.entries, List.map_append, List.eraseP_append_right _ hbefore, detachConnector, deleteConnector, hfind]
  cases after with
  | nil => exact ⟨before ++ [], h.circular, h.allocated, List.map_append⟩
  | cons p after =>
      have hp := h.circular.ne_head (List.mem_append_right before (List.mem_cons_self (a := p)))
      have herase := List.eraseP_cons_of_pos (p := fun entry => some entry.connector = connector)
        (l := after.map self.entry) (hstop p rfl)
      rw [List.headD_cons, if_neg hp, List.map_cons, herase]
      refine ⟨before ++ after, hlist.del h.circular, fun node hnode => h.allocated node ?_, List.map_append⟩
      exact (List.sublist_cons_self p after).append_left before |>.subset hnode

/-! ### Attaching and detaching -/

inductive Call where
  | attach (connector : Nat) (memory : Bool)
  | detach (connector : Option Nat)

/-- The charger, the connectors that are attached to it, and the id of each attachment so far. -/
structure Session where
  charger : Charger
  attached : List Nat
  given : List ConnectorEntry

def Session.init (entry : Nat → ConnectorEntry) (connectorId : Nat → Int) : Session where
  charger := .init entry connectorId
  attached := []
  given := []

/-- An attachment without memory for its entry is none. -/
def Session.step (api : Api Nat) (s : Session) : Call → Session
  | .attach connector memory =>
      let (charger, returned) := attachConnector api s.charger connector memory
      if returned = 0 then
        { charger := charger
          attached := s.attached ++ [connector]
          given := s.given ++ [⟨connector, charger.connectorId connector⟩] }
      else { s with charger := charger }
  | .detach connector =>
      { s with
        charger := (detachConnector api s.charger connector).1
        attached := s.attached.filter (some · ≠ connector) }

/-- A connector is attached only while it is not. -/
def Allowed (s : Session) : Call → Prop
  | .attach connector _ => connector ∉ s.attached
  | .detach _ => True

instance (s : Session) : ∀ call, Decidable (Allowed s call)
  | .attach connector _ => inferInstanceAs (Decidable (connector ∉ s.attached))
  | .detach _ => inferInstanceAs (Decidable True)

/-- The attachments that there is memory for. -/
def Call.attaches : Call → Bool
  | .attach _ memory => memory
  | .detach _ => false

/-- The ids of the attached connectors are positive and distinct, no id is given twice, the connectors and their ids lead to each other, and an id that is no longer that of an attached connector leads to none. -/
structure IdsHold (s : Session) : Prop where
  positive : ∀ connector ∈ s.attached, 0 < s.charger.connectorId connector
  distinct : ∀ a ∈ s.attached, ∀ b ∈ s.attached, s.charger.connectorId a = s.charger.connectorId b → a = b
  once : (s.given.map (·.id)).Nodup
  byId : ∀ connector ∈ s.attached,
    getConnectorById s.charger (s.charger.connectorId connector) = some connector
  ofConnector : ∀ connector ∈ s.attached,
    getConnectorId s.charger (some connector) true = (0, some (s.charger.connectorId connector))
  ended : ∀ past ∈ s.given,
    ¬ (past.connector ∈ s.attached ∧ s.charger.connectorId past.connector = past.id) →
      getConnectorById s.charger past.id = none

/-! ### The invariant -/

/-- While the counter has not been through its values, it has counted the attachments, and its values are their ids. The entries are attachments that have not ended, and their connectors have their ids. -/
structure Counted (s : Session) (nodes : List Nat) (entries : List ConnectorEntry) : Prop where
  represents : Represents s.charger nodes entries
  attached : entries.map (·.connector) = s.attached
  nodup : s.attached.Nodup
  own : ∀ entry ∈ entries, s.charger.connectorId entry.connector = entry.id
  given : entries ⊆ s.given
  ids : s.given.map (·.id) = (List.range' 1 s.charger.idCounter.toNat).map Int.ofNat

theorem counted_init (entry : Nat → ConnectorEntry) (connectorId : Nat → Int) :
    Counted (.init entry connectorId) [] [] where
  represents := represents_init entry connectorId
  attached := rfl
  nodup := List.nodup_nil
  own := fun _ hentry => absurd hentry List.not_mem_nil
  given := List.nil_subset _
  ids := rfl

variable {s : Session}

theorem Counted.once (h : Counted s nodes entries) : (s.given.map (·.id)).Nodup := by
  rw [h.ids]
  exact (List.nodup_range').map fun a b => Int.ofNat.inj

theorem Counted.positive (h : Counted s nodes entries) {entry : ConnectorEntry} (hentry : entry ∈ s.given) :
    0 < entry.id := by
  have hid := List.mem_map_of_mem (f := (·.id)) hentry
  rw [h.ids] at hid
  obtain ⟨k, hk, hid⟩ := List.mem_map.1 hid
  rw [← hid]
  exact Int.natCast_pos.2 (List.mem_range'_1.1 hk).1

/-- Two entries with one id are one entry. -/
theorem Counted.entry_unique (h : Counted s nodes entries) {a b : ConnectorEntry} (ha : a ∈ s.given) (hb : b ∈ s.given)
    (hid : a.id = b.id) : a = b :=
  List.inj_on_of_nodup_map h.once ha hb hid

theorem Counted.exists_entry (h : Counted s nodes entries) {connector : Nat} (hconnector : connector ∈ s.attached) :
    (⟨connector, s.charger.connectorId connector⟩ : ConnectorEntry) ∈ entries := by
  rw [← h.attached] at hconnector
  obtain ⟨entry, hentry, rfl⟩ := List.mem_map.1 hconnector
  rw [h.own entry hentry]
  exact hentry

/-- An entry is found by what no other one has. -/
theorem find?_eq_some {β : Type} [DecidableEq β] {f : ConnectorEntry → β} {entry : ConnectorEntry}
    (hentry : entry ∈ entries) (hother : ∀ other ∈ entries, f other = f entry → other = entry) :
    entries.find? (f · = f entry) = some entry := by
  have hsome : (entries.find? (f · = f entry)).isSome := by
    rw [List.find?_isSome]
    exact ⟨entry, hentry, decide_eq_true rfl⟩
  obtain ⟨found, hfound⟩ := Option.isSome_iff_exists.1 hsome
  have hsame : f found = f entry := by simpa using List.find?_some hfound
  rw [hfound, hother found (List.mem_of_find?_eq_some hfound) hsame]

theorem Counted.find?_id (h : Counted s nodes entries) {entry : ConnectorEntry} (hentry : entry ∈ entries) :
    entries.find? (·.id = entry.id) = some entry :=
  find?_eq_some hentry fun _ hother => h.entry_unique (h.given hother) (h.given hentry)

theorem Counted.find?_connector (h : Counted s nodes entries) {entry : ConnectorEntry} (hentry : entry ∈ entries) :
    entries.find? (some ·.connector = some entry.connector) = some entry := by
  have hnodup : (entries.map (·.connector)).Nodup := h.attached ▸ h.nodup
  refine find?_eq_some (f := fun e => some e.connector) hentry fun other hother hsame => ?_
  exact List.inj_on_of_nodup_map hnodup hother hentry (Option.some.inj hsame)

theorem Counted.idsHold (h : Counted s nodes entries) : IdsHold s where
  positive := fun _ hconnector => h.positive (h.given (h.exists_entry hconnector))
  distinct := by
    intro a ha b hb hid
    have hentry := h.entry_unique (h.given (h.exists_entry ha)) (h.given (h.exists_entry hb)) hid
    exact congrArg ConnectorEntry.connector hentry
  once := h.once
  byId := by
    intro connector hconnector
    rw [h.represents.getConnectorById, h.find?_id (h.exists_entry hconnector)]
    rfl
  ofConnector := by
    intro connector hconnector
    rw [h.represents.getConnectorId, h.find?_connector (h.exists_entry hconnector)]
    rfl
  ended := by
    intro past hpast hended
    rw [h.represents.getConnectorById, Option.map_eq_none_iff, List.find?_eq_none]
    intro entry hentry hid
    have hsame := h.entry_unique (h.given hentry) hpast (of_decide_eq_true hid)
    rw [hsame] at hentry
    exact hended ⟨h.attached ▸ List.mem_map_of_mem hentry, h.own past hentry⟩

/-! ### What the calls do -/

theorem toNat_succ {counter : UInt8} (h : counter.toNat < 255) : (counter + 1).toNat = counter.toNat + 1 := by
  rw [UInt8.toNat_add]
  exact Nat.mod_eq_of_lt (Nat.succ_lt_succ h)

theorem Counted.attach (hlist : api.Lawful) (h : Counted s nodes entries) {connector : Nat}
    (hnew : connector ∉ s.attached) (hcounter : s.charger.idCounter.toNat < 255) :
    ∃ nodes' entries', Counted (s.step api (.attach connector true)) nodes' entries' := by
  have hid := toNat_succ hcounter
  have hgiven : (s.step api (.attach connector true)).given =
      s.given ++ [⟨connector, (s.charger.idCounter + 1).toNat⟩] :=
    congrArg (fun id : Int => s.given ++ [⟨connector, id⟩]) (Function.update_self ..)
  refine ⟨_, _, h.represents.attach hlist connector, ?_, ?_, ?_, ?_, ?_⟩
  · rw [List.map_append, h.attached]
    rfl
  · exact List.nodup_append_comm.1 (List.nodup_cons.2 ⟨hnew, h.nodup⟩)
  · intro entry hentry
    obtain hold | hlast := List.mem_append.1 hentry
    · have hne : entry.connector ≠ connector := by
        rintro rfl
        exact hnew (h.attached ▸ List.mem_map_of_mem hold)
      exact (Function.update_of_ne hne _ _).trans (h.own entry hold)
    · rw [List.mem_singleton.1 hlast]
      exact Function.update_self ..
  · rw [hgiven]
    exact List.append_subset.2
      ⟨List.subset_append_of_subset_left _ h.given, List.subset_append_right _ _⟩
  · have hcount : (s.step api (.attach connector true)).charger.idCounter.toNat = s.charger.idCounter.toNat + 1 := hid
    rw [hgiven, hcount, List.map_append, h.ids, List.map_singleton, hid, List.range'_concat, List.map_append, Nat.one_mul,
      Nat.add_comm 1]
    rfl

theorem detachConnector_frame (api : Api Nat) (self : Charger) (connector : Option Nat) :
    (detachConnector api self connector).1.idCounter = self.idCounter ∧
      (detachConnector api self connector).1.connectorId = self.connectorId := by
  rw [detachConnector, deleteConnector]
  split_ifs
  · exact ⟨rfl, rfl⟩
  · exact ⟨rfl, rfl⟩

/-- Where each connector has one entry, none is left of the connector whose first one is gone. -/
theorem map_eraseP (hnodup : (entries.map (·.connector)).Nodup) (connector : Option Nat) :
    (entries.eraseP (some ·.connector = connector)).map (·.connector) =
      (entries.map (·.connector)).filter (some · ≠ connector) := by
  induction entries with
  | nil => rfl
  | cons entry entries ih =>
      rw [List.map_cons, List.nodup_cons] at hnodup
      obtain ⟨hfirst, hrest⟩ := hnodup
      rw [List.map_cons, List.eraseP_cons, List.filter_cons]
      by_cases hentry : some entry.connector = connector
      · have hothers : ∀ other ∈ entries.map (·.connector), some other ≠ connector := by
          rintro other hother rfl
          exact hfirst (Option.some.inj hentry ▸ hother)
        have hkept := List.filter_eq_self.2 fun other hother => decide_eq_true (hothers other hother)
        simp only [hentry, decide_true, ne_eq, not_true_eq_false, decide_false, cond_true, Bool.false_eq_true, if_false]
        exact hkept.symm
      · simp only [hentry, decide_false, ne_eq, not_false_eq_true, decide_true, cond_false, if_true, List.map_cons]
        exact congrArg _ (ih hrest)

theorem Counted.detach (hlist : api.Lawful) (h : Counted s nodes entries) (connector : Option Nat) :
    ∃ nodes' entries', Counted (s.step api (.detach connector)) nodes' entries' := by
  obtain ⟨nodes', hrepresents⟩ := h.represents.detach hlist connector
  have hsame := detachConnector_frame api s.charger connector
  have hsub : entries.eraseP (some ·.connector = connector) ⊆ entries := List.eraseP_subset
  refine ⟨nodes', _, hrepresents, ?_, h.nodup.filter _, ?_, List.Subset.trans hsub h.given, ?_⟩
  · rw [map_eraseP (h.attached ▸ h.nodup), h.attached]
    rfl
  · intro entry hentry
    exact (congrFun hsame.2 _).trans (h.own entry (hsub hentry))
  · exact h.ids.trans (congrArg (fun counter => (List.range' 1 (UInt8.toNat counter)).map Int.ofNat) hsame.1.symm)

/-- At the end of its values the counter goes back to 0, which the connector gets. -/
theorem Session.attach_last (api : Api Nat) (s : Session) (connector : Nat) (hcounter : s.charger.idCounter = 255) :
    connector ∈ (s.step api (.attach connector true)).attached ∧
      (s.step api (.attach connector true)).charger.connectorId connector = 0 := by
  refine ⟨List.mem_append_right _ List.mem_cons_self, ?_⟩
  have hid : (((s.charger.idCounter + 1).toNat : Nat) : Int) = 0 := by
    rw [hcounter]
    rfl
  exact (Function.update_self ..).trans hid

/-! ### Runs -/

theorem idCounter_step (api : Api Nat) (s : Session) (call : Call) :
    (s.step api call).charger.idCounter = s.charger.idCounter + if call.attaches then 1 else 0 := by
  cases call with
  | detach connector => exact (detachConnector_frame api s.charger connector).1.trans (UInt8.add_zero _).symm
  | attach connector memory =>
      cases memory with
      | false => exact (UInt8.add_zero _).symm
      | true => rfl

/-- The counter counts the attachments, and begins anew after its values. -/
theorem idCounter_run (api : Api Nat) (s : Session) (calls : List Call) :
    (run (Session.step api) s calls).charger.idCounter = s.charger.idCounter + .ofNat (calls.countP Call.attaches) := by
  induction calls generalizing s with
  | nil => exact (UInt8.add_zero _).symm
  | cons call calls ih =>
      have hone : (if call.attaches then 1 else 0 : UInt8) = .ofNat (if call.attaches then 1 else 0) := by
        split_ifs <;> rfl
      rw [run_cons, ih, idCounter_step, List.countP_cons, UInt8.ofNat_add, UInt8.add_assoc, hone,
        UInt8.add_comm (.ofNat (calls.countP Call.attaches))]

/-- From a state with as many attachments as the counter says, the ids hold as long as it has values for the further ones. -/
theorem Counted.everyState_iff (hlist : api.Lawful) (h : Counted s nodes entries) {calls : List Call}
    (hallowed : EveryStep (Session.step api) Allowed s calls) :
    EveryState (Session.step api) IdsHold s calls ↔
      s.charger.idCounter.toNat + calls.countP Call.attaches ≤ 255 := by
  induction calls generalizing s nodes entries with
  | nil => exact iff_of_true h.idsHold (Nat.le_of_lt_succ s.charger.idCounter.toNat_lt)
  | cons call calls ih =>
      obtain ⟨hcall, hrest⟩ := hallowed
      rw [EveryState, and_iff_right h.idsHold]
      cases call with
      | detach connector =>
          obtain ⟨nodes', entries', hnext⟩ := h.detach hlist connector
          have hcounter : (s.step api (.detach connector)).charger.idCounter = s.charger.idCounter :=
            (idCounter_step api s (.detach connector)).trans (UInt8.add_zero _)
          rw [ih hnext hrest, hcounter, List.countP_cons_of_neg Bool.false_ne_true]
      | attach connector memory =>
          cases memory with
          | false =>
              have hnext : Counted (s.step api (.attach connector false)) nodes entries := h
              rw [ih hnext hrest, List.countP_cons_of_neg Bool.false_ne_true]
              rfl
          | true =>
              rw [List.countP_cons_of_pos rfl]
              by_cases hcounter : s.charger.idCounter.toNat < 255
              · obtain ⟨nodes', entries', hnext⟩ := h.attach hlist hcall hcounter
                have hcount : (s.step api (.attach connector true)).charger.idCounter.toNat =
                    s.charger.idCounter.toNat + 1 := toNat_succ hcounter
                rw [ih hnext hrest, hcount]
                omega
              · have hlast : s.charger.idCounter.toNat = 255 := by
                  have hlt := s.charger.idCounter.toNat_lt
                  omega
                obtain ⟨hattached, hid⟩ := s.attach_last api connector (UInt8.toNat_inj.1 hlast)
                refine iff_of_false (fun hall => ?_) (by omega)
                have hpositive := hall.first.positive connector hattached
                rw [hid] at hpositive
                exact Int.lt_irrefl 0 hpositive

/-- In a run of attachments and detachments, where a connector is attached only while it is not, the ids hold exactly if there are no more attachments than the counter has values after 0. -/
theorem connector_ids_iff (hlist : api.Lawful) (entry : Nat → ConnectorEntry) (connectorId : Nat → Int)
    {calls : List Call} (hallowed : EveryStep (Session.step api) Allowed (.init entry connectorId) calls) :
    EveryState (Session.step api) IdsHold (.init entry connectorId) calls ↔ calls.countP Call.attaches ≤ 255 := by
  have hiff := (counted_init entry connectorId).everyState_iff hlist hallowed
  rwa [show (Session.init entry connectorId).charger.idCounter.toNat = 0 from rfl, Nat.zero_add] at hiff

/-- Two connectors; the first is taken off and comes back, once there is memory for it. -/
def comesBack : List Call := [.attach 1 true, .attach 2 true, .detach (some 1), .attach 1 false, .attach 1 true]

theorem connector_ids_of_comesBack :
    EveryState (Session.step pointers) IdsHold (.init (fun _ => ⟨0, 0⟩) fun _ => 0) comesBack := by
  have hallowed : EveryStep (Session.step pointers) Allowed (.init (fun _ => ⟨0, 0⟩) fun _ => 0) comesBack := by decide
  exact (connector_ids_iff lawful_pointers (fun _ => ⟨0, 0⟩) (fun _ => 0) hallowed).2 (by decide)

/-- The connector is attached and taken off again, time after time. -/
def reattached (times : Nat) : List Call := (List.replicate times [.attach 1 true, .detach (some 1)]).flatten

theorem reattached_succ (times : Nat) :
    reattached (times + 1) = .attach 1 true :: .detach (some 1) :: reattached times := rfl

theorem countP_reattached (times : Nat) : (reattached times).countP Call.attaches = times := by
  induction times with
  | zero => rfl
  | succ times ih =>
      rw [reattached_succ, List.countP_cons_of_pos rfl, List.countP_cons_of_neg Bool.false_ne_true, ih]

theorem allowed_reattached (api : Api Nat) (times : Nat) (hs : s.attached = []) :
    EveryStep (Session.step api) Allowed s (reattached times) ∧
      (run (Session.step api) s (reattached times)).attached = [] := by
  induction times generalizing s with
  | zero => exact ⟨trivial, hs⟩
  | succ times ih =>
      have hnext : ((s.step api (.attach 1 true)).step api (.detach (some 1))).attached = [] := by
        show (s.attached ++ [1]).filter (some · ≠ some 1) = []
        rw [hs]
        rfl
      obtain ⟨hallowed, hend⟩ := ih hnext
      have hnew : 1 ∉ s.attached := by
        rw [hs]
        exact List.not_mem_nil
      exact ⟨⟨hnew, trivial, hallowed⟩, hend⟩

/-- The attachment after the 255th gives the connector the id 0. -/
theorem connector_id_of_256th_attachment :
    EveryStep (Session.step pointers) Allowed (.init (fun _ => ⟨0, 0⟩) fun _ => 0) (reattached 255 ++ [Call.attach 1 true]) ∧
      (run (Session.step pointers) (.init (fun _ => ⟨0, 0⟩) fun _ => 0)
        (reattached 255 ++ [Call.attach 1 true])).charger.connectorId 1 = 0 ∧
      ¬ EveryState (Session.step pointers) IdsHold (.init (fun _ => ⟨0, 0⟩) fun _ => 0)
        (reattached 255 ++ [Call.attach 1 true]) := by
  have hstart : (Session.init (fun _ => ⟨0, 0⟩) fun _ => 0).attached = [] := rfl
  obtain ⟨hallowed, hend⟩ := allowed_reattached pointers 255 hstart
  have hcounter : (run (Session.step pointers) (.init (fun _ => ⟨0, 0⟩) fun _ => 0)
      (reattached 255)).charger.idCounter = 255 := by
    have hcount := idCounter_run pointers (.init (fun _ => ⟨0, 0⟩) fun _ => 0) (reattached 255)
    rw [countP_reattached] at hcount
    exact hcount.trans (UInt8.zero_add _)
  obtain ⟨hattached, hid⟩ := Session.attach_last pointers _ 1 hcounter
  rw [run_append]
  refine ⟨everyStep_append.2 ⟨hallowed, ?_, trivial⟩, hid, fun hall => ?_⟩
  · show 1 ∉ _
    rw [hend]
    exact List.not_mem_nil
  · have hids := hall.last
    rw [run_append] at hids
    have hpositive := hids.positive 1 hattached
    rw [run_cons, run_nil, hid] at hpositive
    exact Int.lt_irrefl 0 hpositive

end Evse.Attachment
