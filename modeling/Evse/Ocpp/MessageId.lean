import Evse.Lib.Printf
import Evse.Lib.Run

/-!
# Message ids

`generate_message_id_by_time` prints the time and a counter of 8 bits that goes on from call to call and is not reset with the second. Both can be read back from the text, so two ids are the same only if they are of one second and the counter has come round between them.
-/

namespace Evse.Ocpp

open CString StepRun

/-- A call of `generate_message_id_by_time`: what `time` returns to it, and the size of its buffer. -/
structure IdRequest where
  ts : Int
  bufsize : Nat

/-- The conversions `%d-%03u` of the time as an `int32_t` and of the counter. -/
def messageIdText (ts : Int) (nonce : UInt8) : Text :=
  printInt (ts.bmod (2 ^ 32)) ++ 45 :: printPadded 3 nonce.toNat

/-- What is in the buffer afterwards, and the static counter. -/
def generateMessageIdByTime (nonce : UInt8) (request : IdRequest) : Text × UInt8 :=
  (snprintfAt [] 0 request.bufsize (messageIdText request.ts nonce), nonce + 1)

/-- The ids that a sequence of calls generates. -/
def messageIds (nonce : UInt8) (requests : List IdRequest) : List Text :=
  outputs (fun nonce request => (generateMessageIdByTime nonce request).2)
    (fun nonce request => (generateMessageIdByTime nonce request).1) nonce requests

/-! ### One id -/

theorem printPadded_nonce (nonce : UInt8) :
    (printPadded 3 nonce.toNat).length = 3 ∧ digitsValue (printPadded 3 nonce.toNat) = nonce.toNat := by
  have hbound := nonce.toNat_lt
  have hpadded : nonce.toNat < 10 ^ 3 := by omega
  obtain ⟨hlength, -, hvalue⟩ := printPadded_of_nonneg (by decide) hpadded
  exact ⟨hlength, hvalue⟩

/-- The time and the counter can be read back. -/
theorem messageIdText_injective {ts ts' : Int} {nonce nonce' : UInt8} (hts : -2 ^ 31 ≤ ts ∧ ts < 2 ^ 31)
    (hts' : -2 ^ 31 ≤ ts' ∧ ts' < 2 ^ 31) (h : messageIdText ts nonce = messageIdText ts' nonce') :
    ts = ts' ∧ nonce = nonce' := by
  obtain ⟨hlength, hvalue⟩ := printPadded_nonce nonce
  obtain ⟨hlength', hvalue'⟩ := printPadded_nonce nonce'
  obtain ⟨htime, hcounter⟩ := List.append_inj' h (by rw [List.length_cons, List.length_cons, hlength, hlength'])
  have hbmod := printInt_injective htime
  rw [Int.bmod_eq_of_le (by omega) (by omega), Int.bmod_eq_of_le (by omega) (by omega)] at hbmod
  refine ⟨hbmod, UInt8.toNat_inj.1 ?_⟩
  rw [← hvalue, ← hvalue', (List.cons.inj hcounter).2]

/-- A sign, ten digits, the hyphen and three digits. -/
theorem length_messageIdText_le {ts : Int} (hts : -2 ^ 31 ≤ ts ∧ ts < 2 ^ 31) (nonce : UInt8) :
    (messageIdText ts nonce).length ≤ 15 := by
  have hbmod : ts.bmod (2 ^ 32) = ts := Int.bmod_eq_of_le (by omega) (by omega)
  have hdigits : (printNat ts.natAbs).length ≤ 10 := length_printNat_le (by decide) (by omega)
  have hsign : ∀ negative, (printSign negative).length ≤ 1 := by decide
  have hthis := hsign (ts < 0)
  rw [messageIdText, hbmod, List.length_append, List.length_cons, (printPadded_nonce nonce).1, printInt,
    List.length_append]
  omega

theorem generateMessageIdByTime_fst {request : IdRequest} {nonce : UInt8}
    (hroom : (messageIdText request.ts nonce).length < request.bufsize) :
    (generateMessageIdByTime nonce request).1 = messageIdText request.ts nonce := by
  have hend : snprintfAt [] ([] : Text).length request.bufsize (messageIdText request.ts nonce) =
      [] ++ messageIdText request.ts nonce := snprintfAt_end hroom
  exact hend

/-! ### Sequences of ids -/

theorem toNat_run_nonce (nonce : UInt8) (requests : List IdRequest) :
    (run (fun nonce request => (generateMessageIdByTime nonce request).2) nonce requests).toNat =
      (nonce.toNat + requests.length) % 256 := by
  induction requests generalizing nonce with
  | nil => exact (Nat.mod_eq_of_lt nonce.toNat_lt).symm
  | cons request requests ih =>
      rw [run_cons, ih, generateMessageIdByTime, UInt8.toNat_add, List.length_cons]
      have hone : (1 : UInt8).toNat = 1 := rfl
      rw [hone]
      omega

/-- Between two occurrences in a list in order there is nothing else. -/
theorem lt_count_of_getElem? {times : List Int} (h : times.Pairwise (· ≤ ·)) {i j : Nat} {t : Int} (hij : i ≤ j)
    (hi : times[i]? = some t) (hj : times[j]? = some t) : j - i < times.count t := by
  obtain ⟨hilt, hi⟩ := List.getElem?_eq_some_iff.1 hi
  obtain ⟨hjlt, hj⟩ := List.getElem?_eq_some_iff.1 hj
  have hbetween : ∀ x ∈ (times.drop i).take (j - i + 1), t = x := by
    intro x hx
    obtain ⟨k, hk, rfl⟩ := List.mem_iff_getElem.1 hx
    rw [List.length_take, List.length_drop] at hk
    rw [List.getElem_take, List.getElem_drop]
    have hlow : times[i] ≤ times[i + k] := by
      rcases Nat.eq_zero_or_pos k with rfl | hpos
      · exact Int.le_refl _
      · exact List.pairwise_iff_getElem.1 h i (i + k) hilt (by omega) (by omega)
    have hhigh : times[i + k] ≤ times[j] := by
      rcases Nat.eq_or_lt_of_le (show i + k ≤ j by omega) with heq | hlt
      · simp only [heq, Int.le_refl]
      · exact List.pairwise_iff_getElem.1 h (i + k) j (by omega) hjlt hlt
    omega
  have hcount := List.count_eq_length.2 hbetween
  have hsublist : ((times.drop i).take (j - i + 1)).Sublist times :=
    (List.take_sublist _ _).trans (List.drop_sublist _ _)
  have hle := hsublist.count_le t
  rw [hcount, List.length_take, List.length_drop] at hle
  omega

/-- As long as no more than 256 ids are generated within a second of a clock that does not go back, and each has room in its buffer, all ids are different. -/
theorem message_ids_unique (nonce : UInt8) {requests : List IdRequest}
    (hclock : (requests.map (·.ts)).Pairwise (· ≤ ·))
    (hrange : ∀ request ∈ requests, -2 ^ 31 ≤ request.ts ∧ request.ts < 2 ^ 31)
    (hrate : ∀ ts, (requests.map (·.ts)).count ts ≤ 256)
    (hroom : ∀ request ∈ requests, ∀ nonce, (messageIdText request.ts nonce).length < request.bufsize) :
    (messageIds nonce requests).Nodup := by
  rw [List.nodup_iff_getElem?_ne_getElem?]
  intro i j hij hj hsame
  rw [messageIds, getElem?_outputs, getElem?_outputs] at hsame
  rw [messageIds, length_outputs] at hj
  have hi : i < requests.length := Nat.lt_trans hij hj
  have hmemi := List.getElem_mem hi
  have hmemj := List.getElem_mem hj
  rw [List.getElem?_eq_getElem hi, List.getElem?_eq_getElem hj, Option.map_some, Option.map_some,
    Option.some.injEq] at hsame
  rw [generateMessageIdByTime_fst (hroom _ hmemi _), generateMessageIdByTime_fst (hroom _ hmemj _)] at hsame
  obtain ⟨hts, hnonce⟩ := messageIdText_injective (hrange _ hmemi) (hrange _ hmemj) hsame
  have hround := congrArg UInt8.toNat hnonce
  rw [toNat_run_nonce, toNat_run_nonce, List.length_take_of_le (Nat.le_of_lt hi),
    List.length_take_of_le (Nat.le_of_lt hj)] at hround
  have hcount := lt_count_of_getElem? hclock (Nat.le_of_lt hij) (t := requests[i].ts)
    (by rw [List.getElem?_map, List.getElem?_eq_getElem hi]; rfl)
    (by rw [List.getElem?_map, List.getElem?_eq_getElem hj, hts]; rfl)
  have hbound := hrate requests[i].ts
  omega

/-- Two ids within a second and one in the next, as the counter wraps. -/
def threeRequests : List IdRequest := [⟨1700000000, 20⟩, ⟨1700000000, 20⟩, ⟨1700000001, 20⟩]

theorem message_ids_unique_over_wrap : (messageIds 254 threeRequests).Nodup := by
  have hrange : ∀ request ∈ threeRequests, -2 ^ 31 ≤ request.ts ∧ request.ts < 2 ^ 31 := by decide
  refine message_ids_unique 254 (by decide) hrange (fun ts => List.count_le_length.trans (by decide)) ?_
  intro request hrequest nonce
  have hbufsize : ∀ request ∈ threeRequests, request.bufsize = 20 := by decide
  rw [hbufsize request hrequest]
  exact Nat.lt_of_le_of_lt (length_messageIdText_le (hrange request hrequest) nonce) (by decide)

end Evse.Ocpp
