import Evse.Connector
import Evse.Lib.Buffer
import Mathlib.Data.List.Basic

/-!
# The text of an event set

`connector_stringify_event` goes through the events from the highest bit down and puts the names of those in the set into a buffer, with commas between them. Each piece goes behind what is there, as far as it fits, and the length stops growing at one less than the size of the buffer, where the terminator goes. What is in the buffer is always the beginning of the text that a buffer without an end would have. Sizes are natural numbers: the length stays below the size, so no difference of the two wraps.
-/

namespace Evse

open CString

/-- The names, from bit 0 on. -/
def eventNames : List Text :=
  ["Plugged", "Unplugged", "Charging Started", "Charging Suspended", "Charging Ended", "Error", "Recovery",
    "Billing Started", "Billing Updated", "Billing Ended", "Occupied", "Unoccupied", "Authorization Rejected",
    "Reserved", "Enabled"].map ascii

section Stringify

variable {memory : Nat → UInt8} (bufsize : Nat)

/-- `strncpy` behind what is there, and the length afterwards. -/
def copyBehind (s : Buffer memory × Nat) (str : Text) : Buffer memory × Nat :=
  (s.1.strncpy s.2 str (bufsize - s.2 - 1), min (s.2 + str.length) (bufsize - 1))

def copyName (s : Buffer memory × Nat) (str : Text) : Buffer memory × Nat :=
  copyBehind bufsize (if s.2 ≠ 0 then copyBehind bufsize s (ascii ",") else s) str

/-- The loop, from an event on. -/
def stringifyFrom (events e : ConnectorEvent) (s : Buffer memory × Nat) : Buffer memory × Nat :=
  if e = 0 then s
  else
    stringifyFrom events (e >>> 1) (if events.has e then copyName bufsize s (eventNames.getD e.ctz.toNat []) else s)
termination_by e.toNat
decreasing_by
  rename_i hne
  have hpos : e.toNat ≠ 0 := fun hzero => hne (BitVec.eq_of_toNat_eq hzero)
  rw [BitVec.toNat_ushiftRight, Nat.shiftRight_eq_div_pow]
  omega

/-- The buffer, and the length that is returned. -/
def connectorStringifyEvent (events : ConnectorEvent) (buf : Buffer memory) : Buffer memory × Nat :=
  let (buf, len) := stringifyFrom bufsize events .enabled (buf, 0)
  (buf.put len 0, len)

end Stringify

/-! ### The text -/

/-- The names of the events in the set, the highest bit first. -/
def namesOf (events : ConnectorEvent) : List Text :=
  ((List.range 15).reverse.filter events.getLsbD).map fun bit => eventNames.getD bit []

def eventText (events : ConnectorEvent) : Text := (ascii ",").intercalate (namesOf events)

/-! ### What is in the buffer -/

section Contents

variable {memory : Nat → UInt8} {bufsize : Nat}

/-- The buffer has the beginning of a text, as much as there is room for. -/
structure Begins (bufsize : Nat) (text : Text) (s : Buffer memory × Nat) : Prop where
  len : s.2 = min text.length (bufsize - 1)
  front : s.1.front s.2 = text.take s.2
  within : s.1.Within bufsize

theorem begins_nil : Begins bufsize [] (Buffer.found memory, 0) where
  len := (Nat.zero_min _).symm
  front := rfl
  within := Buffer.within_found bufsize

variable {text str : Text} {s : Buffer memory × Nat}

theorem Begins.copyBehind (h : Begins bufsize text s) (str : Text) :
    Begins bufsize (text ++ str) (copyBehind bufsize s str) := by
  obtain ⟨buf, len⟩ := s
  obtain ⟨hlen, hfront, hwithin⟩ := h
  dsimp only at hlen hfront hwithin
  refine ⟨?_, ?_, hwithin.strncpy (by omega)⟩
  · rw [Evse.copyBehind, List.length_append, hlen]
    omega
  · have hgrown : min (len + str.length) (bufsize - 1) = len + min str.length (bufsize - len - 1) := by omega
    dsimp only [Evse.copyBehind]
    rw [hgrown, Buffer.front_strncpy (Nat.min_le_right _ _) (Nat.min_le_left _ _), hfront, List.take_append]
    rcases Nat.le_total text.length (bufsize - 1) with hroom | hfull
    · have hall : len = text.length := hlen.trans (Nat.min_eq_left hroom)
      have hbehind : len + min str.length (bufsize - len - 1) - text.length = min str.length (bufsize - len - 1) := by
        omega
      rw [hbehind, List.take_of_length_le (Nat.le_of_eq hall.symm),
        List.take_of_length_le (show text.length ≤ len + min str.length (bufsize - len - 1) by omega)]
    · have hnone : min str.length (bufsize - len - 1) = 0 := by omega
      have hbehind : len - text.length = 0 := by omega
      rw [hnone, Nat.add_zero, List.take_zero, hbehind, List.take_zero]

/-- With a separator where there is something already. Where there is no room for anything, it does not matter. -/
theorem Begins.copyName (h : Begins bufsize text s) (hne : text ≠ []) (str : Text) :
    Begins bufsize (text ++ 44 :: str) (copyName bufsize s str) := by
  have hpos := List.length_pos_of_ne_nil hne
  rw [Evse.copyName]
  split_ifs with hlen
  · have hboth := (h.copyBehind (ascii ",")).copyBehind str
    rwa [List.append_assoc] at hboth
  · have hroom : bufsize - 1 = 0 := by
      have hmin := h.len
      omega
    have hcopied := h.copyBehind str
    refine ⟨?_, ?_, hcopied.within⟩
    · rw [hcopied.len, hroom, Nat.min_zero, Nat.min_zero]
    · have hzero : (Evse.copyBehind bufsize s str).2 = 0 := by rw [hcopied.len, hroom, Nat.min_zero]
      rw [hzero]
      rfl

theorem Begins.copyNames (h : Begins bufsize text s) (hne : text ≠ []) (names : List Text) :
    Begins bufsize (text ++ names.flatMap (44 :: ·)) (names.foldl (Evse.copyName bufsize) s) := by
  induction names generalizing text s with
  | nil =>
      rw [List.flatMap_nil, List.append_nil]
      exact h
  | cons str names ih =>
      rw [List.flatMap_cons, ← List.append_assoc]
      exact ih (h.copyName hne str) (List.append_ne_nil_of_left_ne_nil hne _)

theorem begins_copyNames (memory : Nat → UInt8) (bufsize : Nat) {names : List Text} (hnames : ∀ str ∈ names, str ≠ []) :
    Begins bufsize ([44].intercalate names) (names.foldl (copyName bufsize) (Buffer.found memory, 0)) := by
  cases names with
  | nil => exact begins_nil
  | cons str names =>
      rw [intercalate_cons_eq_append]
      have hfirst : Begins bufsize str (copyName bufsize (Buffer.found memory, 0) str) := begins_nil.copyBehind str
      exact hfirst.copyNames (hnames str List.mem_cons_self) names

/-! ### The loop -/

theorem has_twoPow (events : ConnectorEvent) (bit : Nat) (hbit : bit < 32) :
    events.has (BitVec.twoPow 32 bit) = events.getLsbD bit := by
  have hne : BitVec.twoPow 32 bit ≠ 0 := by
    intro hzero
    have hbits := congrArg (BitVec.getLsbD · bit) hzero
    simp [hbit] at hbits
  rw [ConnectorEvent.has, BitVec.and_twoPow]
  cases events.getLsbD bit with
  | true => exact decide_eq_true hne
  | false => rfl

/-- From the bit below another one on, the names of the events with lower bits are copied. -/
theorem stringifyFrom_twoPow (events : ConnectorEvent) {bits : Nat} (hbits : bits ≤ 15) (s : Buffer memory × Nat) :
    stringifyFrom bufsize events (BitVec.twoPow 32 bits >>> 1) s =
      (((List.range bits).reverse.filter events.getLsbD).map fun bit => eventNames.getD bit []).foldl
        (copyName bufsize) s := by
  have hctz : ∀ bit < 15, (BitVec.twoPow 32 bit).ctz.toNat = bit := by decide +kernel
  have hne : ∀ bit < 15, BitVec.twoPow 32 bit ≠ 0 := by decide
  have hshift : ∀ bit < 15, BitVec.twoPow 32 (bit + 1) >>> 1 = BitVec.twoPow 32 bit := by decide
  induction bits generalizing s with
  | zero =>
      have hend : BitVec.twoPow 32 0 >>> 1 = 0 := by decide
      rw [hend, stringifyFrom, if_pos rfl]
      rfl
  | succ bits ih =>
      rw [hshift bits hbits, stringifyFrom, if_neg (hne bits hbits), has_twoPow events bits (by omega), hctz bits hbits,
        ih (Nat.le_of_lt hbits), List.range_succ, List.reverse_append, List.reverse_singleton, List.singleton_append,
        List.filter_cons]
      cases events.getLsbD bits <;> rfl

/-- In a buffer of any size there is room in, the function leaves the beginning of the text and a terminator, writes nowhere else and returns the length of what it left. -/
theorem stringify_event_in_buffer (events : ConnectorEvent) (memory : Nat → UInt8) {bufsize : Nat} (h : 1 ≤ bufsize) :
    ∃ buf len, connectorStringifyEvent bufsize events (Buffer.found memory) = (buf, len) ∧
      len = min (eventText events).length (bufsize - 1) ∧ buf.front len = (eventText events).take len ∧
      buf.byte len = 0 ∧ (∀ i ∈ buf.written, i < bufsize) ∧ ∀ i, bufsize ≤ i → buf.byte i = memory i := by
  have hnames : ∀ str ∈ namesOf events, str ≠ [] := by
    have hall : ∀ bit < 15, eventNames.getD bit [] ≠ [] := by decide
    intro str hstr
    obtain ⟨bit, hbit, rfl⟩ := List.mem_map.1 hstr
    exact hall bit (List.mem_range.1 (List.mem_reverse.1 (List.mem_filter.1 hbit).1))
  have hloop : stringifyFrom bufsize events .enabled (Buffer.found memory, 0) =
      (namesOf events).foldl (copyName bufsize) (Buffer.found memory, 0) := stringifyFrom_twoPow events (Nat.le_refl 15) _
  obtain ⟨hlen, hfront, hwithin⟩ := begins_copyNames memory bufsize hnames
  rw [← hloop] at hlen hfront hwithin
  have hput : ((stringifyFrom bufsize events .enabled (Buffer.found memory, 0)).1.put
      (stringifyFrom bufsize events .enabled (Buffer.found memory, 0)).2 0).Within bufsize :=
    Buffer.within_put.2 ⟨hwithin, by omega⟩
  refine ⟨_, _, rfl, hlen, ?_, Buffer.byte_put_self, hput, fun i hi => hput.unchanged hi⟩
  rw [Buffer.front_put (Nat.le_refl _)]
  exact hfront

/-- The text is cut off behind the comma. -/
theorem stringify_event_cut_off :
    eventText (.error ||| .plugged) = ascii "Error,Plugged" ∧
      ∃ buf len, connectorStringifyEvent 7 (.error ||| .plugged) (Buffer.found fun _ => 170) = (buf, len) ∧
        len = min (eventText (.error ||| .plugged)).length (7 - 1) ∧
        buf.front len = (eventText (.error ||| .plugged)).take len ∧
        buf.byte len = 0 ∧ (∀ i ∈ buf.written, i < 7) ∧ ∀ i, 7 ≤ i → buf.byte i = 170 :=
  ⟨by decide, stringify_event_in_buffer _ _ (by decide)⟩

end Contents

end Evse
