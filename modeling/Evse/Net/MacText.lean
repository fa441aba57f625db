import Evse.Net.Util

/-!
# Link layer addresses as texts

An address is six pairs of hexadecimal digits, run together or with a colon between two pairs. Character `i` is validated and byte `i` converted in one step, so that the first bytes are read ahead of what has been validated; an address is only accepted when all of it has been.
-/

namespace Evse.Net

open CString

/-- Two hexadecimal digits, of either case. -/
structure HexPair where
  high : UInt8
  low : UInt8
  isHex : isHex high = true ∧ isHex low = true

namespace HexPair

def text (pair : HexPair) : Text := [pair.high, pair.low]

def value (pair : HexPair) : UInt8 := .ofNat (hexDigitValue pair.high * 16 + hexDigitValue pair.low)

/-- The pair that is printed for a byte. -/
def ofByte (b : UInt8) : HexPair where
  high := hexDigit (b.toNat / 16)
  low := hexDigit (b.toNat % 16)
  isHex := by
    have hb := b.toNat_lt
    exact ⟨(hexDigit_spec (by omega)).1, (hexDigit_spec (by omega)).1⟩

theorem value_ofByte (b : UInt8) : (ofByte b).value = b := by
  have hb := b.toNat_lt
  have hhigh : hexDigitValue (ofByte b).high = b.toNat / 16 := (hexDigit_spec (by omega)).2
  have hlow : hexDigitValue (ofByte b).low = b.toNat % 16 := (hexDigit_spec (by omega)).2
  rw [value, hhigh, hlow, Nat.div_add_mod', UInt8.ofNat_toNat]

/-- Pairs with a separator between them. -/
def joined (separator : Text) (pairs : List HexPair) : Text := separator.intercalate (pairs.map text)

variable {separator : Text}

theorem joined_cons_cons (pair next : HexPair) (pairs : List HexPair) :
    joined separator (pair :: next :: pairs) =
      pair.high :: pair.low :: (separator ++ joined separator (next :: pairs)) := by
  rw [joined, List.map_cons, List.map_cons, List.intercalate_cons_cons, ← List.map_cons, ← joined]
  rfl

theorem joined_singleton (pair : HexPair) : joined separator [pair] = pair.text := by
  rw [joined, List.map_singleton, List.intercalate_singleton]

/-- One pair, and what is behind it. -/
theorem joined_cons (separator : Text) (pair : HexPair) (pairs : List HexPair) :
    ∃ rest, joined separator (pair :: pairs) = pair.high :: pair.low :: rest ∧
      ∀ c ∈ rest.head?, c ∈ (separator ++ joined separator pairs).head? := by
  cases pairs with
  | nil => exact ⟨[], joined_singleton pair, fun c hc => absurd hc (by simp)⟩
  | cons next pairs => exact ⟨_, joined_cons_cons pair next pairs, fun c hc => hc⟩

theorem length_joined (separator : Text) {n : Nat} {pairs : List HexPair} (h : pairs.length = n + 1) :
    (joined separator pairs).length = n * (separator.length + 2) + 2 := by
  induction pairs generalizing n with
  | nil => exact absurd h (Nat.succ_ne_zero n).symm
  | cons pair pairs ih =>
      cases n with
      | zero =>
          rw [List.length_eq_zero_iff.1 (Nat.succ.inj h), joined_singleton, Nat.zero_mul]
          rfl
      | succ n =>
          have hpairs : pairs.length = n + 1 := Nat.succ.inj h
          obtain ⟨next, pairs, rfl⟩ := List.exists_cons_of_length_eq_add_one hpairs
          rw [joined_cons_cons, List.length_cons, List.length_cons, List.length_append, ih hpairs, Nat.succ_mul]
          omega

/-- Pair `i` and the ones behind it. -/
theorem drop_joined (separator : Text) {pairs : List HexPair} {i : Nat} (h : i < pairs.length) :
    (joined separator pairs).drop (i * (separator.length + 2)) = joined separator (pairs.drop i) := by
  induction pairs generalizing i with
  | nil => exact absurd h (Nat.not_lt_zero _)
  | cons pair pairs ih =>
      cases i with
      | zero => rw [Nat.zero_mul, List.drop_zero, List.drop_zero]
      | succ i =>
          rw [List.length_cons, Nat.add_lt_add_iff_right] at h
          obtain ⟨next, pairs, rfl⟩ := List.exists_cons_of_length_pos (Nat.zero_lt_of_lt h)
          have hstep : (i + 1) * (separator.length + 2) = i * (separator.length + 2) + separator.length + 1 + 1 :=
            Nat.succ_mul _ _
          rw [joined_cons_cons, hstep, List.drop_succ_cons, List.drop_succ_cons, List.drop_succ_cons, ← ih h,
            Nat.add_comm _ separator.length, List.drop_append, Nat.add_sub_cancel_left]
          simp

end HexPair

/-- Six pairs, in one of the two formats. -/
structure Spells (str : Text) (pairs : List HexPair) : Prop where
  six : pairs.length = macAddrLen
  format : str = HexPair.joined [colon] pairs ∨ str = HexPair.joined [] pairs

/-! ### The loop -/

section Loop

variable {valid : Nat → Bool} {byte : Nat → UInt8}

theorem macLoop_fst (indices : List Nat) (mac : Mac) : (macLoop valid byte indices mac).1 = indices.all valid := by
  induction indices generalizing mac with
  | nil => rfl
  | cons i rest ih =>
      rw [macLoop, List.all_cons]
      cases hi : valid i with
      | false => rfl
      | true => simpa using ih _

/-- What one step converts. -/
def convert (byte : Nat → UInt8) (mac : Mac) (i : Nat) : Mac := if i < macAddrLen then mac.put i [byte i] else mac

theorem macLoop_snd {indices : List Nat} (h : ∀ i ∈ indices, valid i = true) (mac : Mac) :
    (macLoop valid byte indices mac).2 = indices.foldl (convert byte) mac := by
  induction indices generalizing mac with
  | nil => rfl
  | cons i rest ih =>
      rw [List.forall_mem_cons] at h
      rw [macLoop, h.1, List.foldl_cons, ← ih h.2]
      rfl

/-- After `n` characters the first `n` bytes are converted. -/
theorem getElem?_foldl_convert (n : Nat) (mac : Mac) {j : Nat} (hj : j < macAddrLen) :
    ((List.range n).foldl (convert byte) mac).bytes[j]? = if j < n then some (byte j) else mac.bytes[j]? := by
  induction n with
  | zero => rw [if_neg (Nat.not_lt_zero j)]; rfl
  | succ n ih =>
      rw [List.range_succ, List.foldl_append, List.foldl_cons, List.foldl_nil, convert]
      by_cases hn : n < macAddrLen
      · rw [if_pos hn, ByteBlock.getElem?_put _ _ _ hj, ih, List.length_singleton]
        by_cases hjn : j = n
        · rw [if_pos (by omega), if_pos (by omega), hjn, Nat.sub_self]
          rfl
        · rw [if_neg (by omega)]
          split_ifs <;> first | rfl | omega
      · rw [if_neg hn, ih, if_pos (by omega), if_pos (by omega)]

theorem bytes_macLoop {n : Nat} (hn : macAddrLen ≤ n) (h : ∀ i < n, valid i = true) (mac : Mac) :
    (macLoop valid byte (List.range n) mac).2.bytes = (List.range macAddrLen).map byte := by
  rw [macLoop_snd (fun i hi => h i (List.mem_range.1 hi))]
  apply List.ext_getElem?
  intro j
  rcases Nat.lt_or_ge j macAddrLen with hj | hj
  · rw [getElem?_foldl_convert n mac hj, if_pos (by omega), List.getElem?_map, List.getElem?_range hj]
    rfl
  · rw [List.getElem?_eq_none (by rw [ByteBlock.size]; exact hj),
      List.getElem?_eq_none (by rw [List.length_map, List.length_range]; exact hj)]

end Loop

/-! ### The two formats -/

section Formats

open HexPair

variable {longBits : Nat}

theorem ofInt_saturate (hbits : 32 ≤ longBits) (pair : HexPair) :
    UInt8.ofInt (saturate longBits ((hexDigitValue pair.high * 16 + hexDigitValue pair.low : Nat) : Int)) = pair.value := by
  have hhigh := hexDigitValue_lt pair.isHex.1
  have hlow := hexDigitValue_lt pair.isHex.2
  rw [saturate_eq_self hbits (by omega) (by omega), value]
  apply UInt8.toNat_inj.1
  rw [UInt8.ofInt, UInt8.toNat_ofNat', UInt8.toNat_ofNat']
  omega

theorem colonByte_joined (hbits : 32 ≤ longBits) {pairs : List HexPair} {i : Nat} (hi : i < pairs.length) :
    colonByte longBits (joined [colon] pairs) i = pairs[i].value := by
  obtain ⟨rest, heq, hhead⟩ := joined_cons [colon] pairs[i] (pairs.drop (i + 1))
  have hdrop : (joined [colon] pairs).drop (i * 3) = pairs[i].high :: pairs[i].low :: rest := by
    rw [← heq, ← List.drop_eq_getElem_cons hi]
    exact drop_joined [colon] hi
  have hstop : ∀ c ∈ rest.head?, isHex c = false := by
    intro c hc
    have hcolon : c = colon := by simpa [eq_comm] using hhead c hc
    rw [hcolon]
    rfl
  rw [colonByte, hdrop, strtolHex_pair pairs[i].isHex.1 pairs[i].isHex.2 hstop, ofInt_saturate hbits]

theorem plainByte_joined (hbits : 32 ≤ longBits) {pairs : List HexPair} {i : Nat} (hi : i < pairs.length) :
    plainByte longBits (joined [] pairs) i = pairs[i].value := by
  obtain ⟨rest, heq, -⟩ := joined_cons [] pairs[i] (pairs.drop (i + 1))
  have hdrop : (joined [] pairs).drop (i * 2) = pairs[i].high :: pairs[i].low :: rest := by
    rw [← heq, ← List.drop_eq_getElem_cons hi]
    exact drop_joined [] hi
  have hhigh : (joined [] pairs).getD (i * 2) 0 = pairs[i].high := by
    rw [List.getD_eq_getElem?_getD, ← Nat.add_zero (i * 2), ← List.getElem?_drop, hdrop]
    rfl
  have hlow : (joined [] pairs).getD (i * 2 + 1) 0 = pairs[i].low := by
    rw [List.getD_eq_getElem?_getD, ← List.getElem?_drop, hdrop]
    rfl
  have hstop : ∀ c ∈ ([] : Text).head?, isHex c = false := fun c hc => absurd hc (by simp)
  rw [plainByte, hhigh, hlow, strtolHex_pair pairs[i].isHex.1 pairs[i].isHex.2 hstop, ofInt_saturate hbits]

theorem isColonFormat_add_three (a b c : UInt8) (rest : Text) (i : Nat) :
    isColonFormat (a :: b :: c :: rest) (i + 3) = isColonFormat rest i := by
  rw [isColonFormat, isColonFormat, Nat.add_mod_right]
  rfl

theorem isColonFormat_joined (pairs : List HexPair) :
    ∀ i < (joined [colon] pairs).length, isColonFormat (joined [colon] pairs) i = true := by
  induction pairs with
  | nil => exact fun i hi => absurd hi (Nat.not_lt_zero i)
  | cons pair pairs ih =>
      cases pairs with
      | nil =>
          rw [joined_singleton]
          rintro (_ | _ | i) hi
          · exact pair.isHex.1
          · exact pair.isHex.2
          · exact absurd hi (by simp [HexPair.text])
      | cons next pairs =>
          rw [joined_cons_cons]
          rintro (_ | _ | _ | i) hi
          · exact pair.isHex.1
          · exact pair.isHex.2
          · exact beq_self_eq_true colon
          · simp only [List.cons_append, List.nil_append, List.length_cons] at hi
            exact (isColonFormat_add_three _ _ _ _ i).trans (ih i (by omega))

theorem exists_joined_colon {n : Nat} {str : Text} (hlength : str.length = 3 * n + 2)
    (h : ∀ i < str.length, isColonFormat str i = true) :
    ∃ pairs : List HexPair, pairs.length = n + 1 ∧ str = joined [colon] pairs := by
  induction n generalizing str with
  | zero =>
      obtain ⟨a, b, rfl⟩ := List.length_eq_two.1 hlength
      exact ⟨[⟨a, b, h 0 (by simp), h 1 (by simp)⟩], rfl, rfl⟩
  | succ n ih =>
      obtain ⟨a, str, rfl⟩ := List.exists_cons_of_length_pos (l := str) (by omega)
      obtain ⟨b, str, rfl⟩ := List.exists_cons_of_length_pos (l := str) (by simp at hlength; omega)
      obtain ⟨c, str, rfl⟩ := List.exists_cons_of_length_pos (l := str) (by simp at hlength; omega)
      simp only [List.length_cons] at hlength h
      have hcolon : c = colon := of_decide_eq_true (h 2 (by omega))
      obtain ⟨pairs, hpairs, rfl⟩ := ih (by omega) fun i hi =>
        (isColonFormat_add_three a b c str i).symm.trans (h (i + 3) (by omega))
      obtain ⟨next, pairs, rfl⟩ := List.exists_cons_of_length_pos (l := pairs) (by omega)
      refine ⟨⟨a, b, h 0 (by omega), h 1 (by omega)⟩ :: next :: pairs, by simpa using hpairs, ?_⟩
      rw [joined_cons_cons, hcolon]
      rfl

theorem isPlainFormat_joined (pairs : List HexPair) :
    ∀ i < (joined [] pairs).length, isPlainFormat (joined [] pairs) i = true := by
  induction pairs with
  | nil => exact fun i hi => absurd hi (Nat.not_lt_zero i)
  | cons pair pairs ih =>
      cases pairs with
      | nil =>
          rw [joined_singleton]
          rintro (_ | _ | i) hi
          · exact pair.isHex.1
          · exact pair.isHex.2
          · exact absurd hi (by simp [HexPair.text])
      | cons next pairs =>
          rw [joined_cons_cons]
          rintro (_ | _ | i) hi
          · exact pair.isHex.1
          · exact pair.isHex.2
          · simp only [List.nil_append, List.length_cons] at hi
            exact ih i (by omega)

theorem exists_joined_plain {n : Nat} {str : Text} (hlength : str.length = 2 * (n + 1))
    (h : ∀ i < str.length, isPlainFormat str i = true) :
    ∃ pairs : List HexPair, pairs.length = n + 1 ∧ str = joined [] pairs := by
  induction n generalizing str with
  | zero =>
      obtain ⟨a, b, rfl⟩ := List.length_eq_two.1 hlength
      exact ⟨[⟨a, b, h 0 (by simp), h 1 (by simp)⟩], rfl, rfl⟩
  | succ n ih =>
      obtain ⟨a, str, rfl⟩ := List.exists_cons_of_length_pos (l := str) (by omega)
      obtain ⟨b, str, rfl⟩ := List.exists_cons_of_length_pos (l := str) (by simp at hlength; omega)
      simp only [List.length_cons] at hlength h
      have hrest : ∀ i < str.length, isPlainFormat str i = true := fun i hi => h (i + 2) (by omega)
      obtain ⟨pairs, hpairs, rfl⟩ := ih (by omega) hrest
      obtain ⟨next, pairs, rfl⟩ := List.exists_cons_of_length_pos (l := pairs) (by omega)
      refine ⟨⟨a, b, h 0 (by omega), h 1 (by omega)⟩ :: next :: pairs, by simpa using hpairs, ?_⟩
      rw [joined_cons_cons]
      rfl

end Formats

/-! ### Both directions -/

section Address

open HexPair

variable {longBits : Nat} {str : Text} {pairs : List HexPair}

/-- The values of six pairs. -/
theorem map_range_eq (hsix : pairs.length = macAddrLen) {byte : Nat → UInt8}
    (h : ∀ i, (hi : i < pairs.length) → byte i = pairs[i].value) :
    (List.range macAddrLen).map byte = pairs.map HexPair.value := by
  apply List.ext_getElem
  · rw [List.length_map, List.length_range, List.length_map, hsix]
  · intro i hi hpairs
    rw [List.getElem_map, List.getElem_map, List.getElem_range]
    exact h i (by rwa [List.length_map] at hpairs)

theorem netGetMacFromStr_of_seventeen (h : str.length = 17) (mac : Mac) :
    netGetMacFromStr longBits str mac = macLoop (isColonFormat str) (colonByte longBits str) (List.range 17) mac := by
  have hlength : ¬ (17 ≠ 17 ∧ 17 ≠ 12) := by decide
  simp only [netGetMacFromStr, h, if_neg hlength, if_true, if_neg (show ¬ 17 = 12 by decide)]
  split
  · rfl
  · rename_i hfst
    rw [Bool.not_eq_true, Bool.not_eq_false'] at hfst
    exact Prod.ext hfst.symm rfl

theorem netGetMacFromStr_of_twelve (h : str.length = 12) (mac : Mac) :
    netGetMacFromStr longBits str mac = macLoop (isPlainFormat str) (plainByte longBits str) (List.range 12) mac := by
  have hlength : ¬ (12 ≠ 17 ∧ 12 ≠ 12) := by decide
  simp only [netGetMacFromStr, h, if_neg hlength, if_true, if_neg (show ¬ 12 = 17 by decide), macLoop]
  rfl

theorem netGetMacFromStr_of_spells (hbits : 32 ≤ longBits) (h : Spells str pairs) (mac : Mac) :
    (netGetMacFromStr longBits str mac).1 = true ∧
      (netGetMacFromStr longBits str mac).2.bytes = pairs.map HexPair.value := by
  obtain rfl | rfl := h.format
  · have hlength : (joined [colon] pairs).length = 17 := length_joined [colon] h.six
    have hvalid := isColonFormat_joined pairs
    rw [hlength] at hvalid
    rw [netGetMacFromStr_of_seventeen hlength, bytes_macLoop (by decide) hvalid, macLoop_fst, List.all_eq_true]
    exact ⟨fun i hi => hvalid i (List.mem_range.1 hi), map_range_eq h.six fun i hi => colonByte_joined hbits hi⟩
  · have hlength : (joined [] pairs).length = 12 := length_joined [] h.six
    have hvalid := isPlainFormat_joined pairs
    rw [hlength] at hvalid
    rw [netGetMacFromStr_of_twelve hlength, bytes_macLoop (by decide) hvalid, macLoop_fst, List.all_eq_true]
    exact ⟨fun i hi => hvalid i (List.mem_range.1 hi), map_range_eq h.six fun i hi => plainByte_joined hbits hi⟩

theorem exists_spells {mac : Mac} (h : (netGetMacFromStr longBits str mac).1 = true) :
    ∃ pairs, Spells str pairs := by
  by_cases hcolon : str.length = 17
  · rw [netGetMacFromStr_of_seventeen hcolon, macLoop_fst, List.all_eq_true] at h
    obtain ⟨pairs, hsix, heq⟩ := exists_joined_colon (n := 5) hcolon fun i hi => h i (List.mem_range.2 (hcolon ▸ hi))
    exact ⟨pairs, hsix, .inl heq⟩
  · by_cases hplain : str.length = 12
    · rw [netGetMacFromStr_of_twelve hplain, macLoop_fst, List.all_eq_true] at h
      obtain ⟨pairs, hsix, heq⟩ := exists_joined_plain (n := 5) hplain fun i hi => h i (List.mem_range.2 (hplain ▸ hi))
      exact ⟨pairs, hsix, .inr heq⟩
    · rw [netGetMacFromStr, if_pos ⟨hcolon, hplain⟩] at h
      exact absurd h Bool.false_ne_true

/-- What is printed for an address. -/
theorem spells_netStringifyMac (mac : Mac) {bufsize : Nat} (h : 18 ≤ bufsize) :
    (netStringifyMac mac bufsize).1 = true ∧
      Spells (netStringifyMac mac bufsize).2 (mac.bytes.map HexPair.ofByte) := by
  have hsix : (mac.bytes.map HexPair.ofByte).length = macAddrLen := by rw [List.length_map, mac.size]
  have hformatted : [colon].intercalate (mac.bytes.map printHexByte) =
      joined [colon] (mac.bytes.map HexPair.ofByte) := by
    rw [joined, List.map_map]
    rfl
  have hlength : (joined [colon] (mac.bytes.map HexPair.ofByte)).length = 17 := length_joined [colon] hsix
  rw [netStringifyMac, hformatted]
  refine ⟨decide_eq_true hlength, hsix, .inl ?_⟩
  have hend : snprintfAt [] ([] : Text).length bufsize (joined [colon] (mac.bytes.map HexPair.ofByte)) =
      [] ++ joined [colon] (mac.bytes.map HexPair.ofByte) := snprintfAt_end (by omega)
  exact hend

/-- What is printed for an address reads as the address; and what reads as one are the two spellings, of any six pairs. -/
theorem mac_text_roundtrip (hbits : 32 ≤ longBits) :
    (∀ (mac old : Mac) (bufsize : Nat), 18 ≤ bufsize → (netStringifyMac mac bufsize).1 = true ∧
      netGetMacFromStr longBits (netStringifyMac mac bufsize).2 old = (true, mac)) ∧
    ∀ (str : Text) (old : Mac),
      ((netGetMacFromStr longBits str old).1 = true ↔ ∃ pairs, Spells str pairs) ∧
      ∀ pairs, Spells str pairs → (netGetMacFromStr longBits str old).2.bytes = pairs.map HexPair.value := by
  constructor
  · intro mac old bufsize hsize
    obtain ⟨htrue, hspells⟩ := spells_netStringifyMac mac hsize
    obtain ⟨hread, hbytes⟩ := netGetMacFromStr_of_spells hbits hspells old
    refine ⟨htrue, Prod.ext hread (ByteBlock.ext ?_)⟩
    rw [hbytes, List.map_map]
    exact (List.map_congr_left fun b _ => HexPair.value_ofByte b).trans (List.map_id _)
  · intro str old
    refine ⟨⟨exists_spells, ?_⟩, fun pairs hspells => (netGetMacFromStr_of_spells hbits hspells old).2⟩
    rintro ⟨pairs, hspells⟩
    exact (netGetMacFromStr_of_spells hbits hspells old).1

end Address

def zeroMac : Mac := ⟨[0, 0, 0, 0, 0, 0], rfl⟩
def someMac : Mac := ⟨[0, 0x1a, 0xff, 7, 0x80, 0xc3], rfl⟩

theorem mac_text_of_someMac : (netStringifyMac someMac 18).1 = true ∧
    netGetMacFromStr 64 (netStringifyMac someMac 18).2 zeroMac = (true, someMac) :=
  (mac_text_roundtrip (by decide)).1 someMac zeroMac 18 (by decide)

end Evse.Net
