import Evse.Lib.CString
import Mathlib.Algebra.Order.Field.Rat
import Mathlib.Algebra.Order.Group.Unbundled.Int
import Mathlib.Tactic.Positivity
import Mathlib.Tactic.Ring

/-!
# Printed numbers

What `printf` writes for an integer, plain or padded with zeros, and when a fraction whose whole part and remainder are printed apart reads back as the number it was taken from. Division and remainder are those of C, so both carry the sign of the number.
-/

namespace CString

/-- The digits of a natural number, at least one. -/
def printNat (n : Nat) : Text := (Nat.toDigits 10 n).map fun c => c.toNat.toUInt8

def printSign (negative : Bool) : Text := if negative then [45] else []

/-- The conversion `%d`. -/
def printInt (n : Int) : Text := printSign (n < 0) ++ printNat n.natAbs

/-- The conversion `%0<width>d`: the zeros go between the sign and the digits, and the sign counts for the width. -/
def printPadded (width : Nat) (n : Int) : Text :=
  printSign (n < 0) ++
    List.replicate (width - (printInt n).length) 48 ++ printNat n.natAbs

/-- The conversions `%d.%0<places>d` of a whole part and a remainder. -/
def printFixed (places : Nat) (whole remainder : Int) : Text :=
  printInt whole ++ 46 :: printPadded places remainder

/-- The number a text is, if it is a numeral with that many places: an optional sign, at least one digit, a point, and exactly so many digits. -/
def fixedPoint? (places : Nat) (text : Text) : Option ℚ :=
  let (negative, rest) := splitSign text
  let whole := rest.takeWhile isDigit
  match rest.dropWhile isDigit with
  | [] => none
  | point :: fraction =>
    if point = 46 ∧ whole ≠ [] ∧ fraction.length = places ∧ fraction.all isDigit then
      some ((withSign negative (digitsValue (whole ++ fraction)) : Int) / 10 ^ places : ℚ)
    else none

/-! ### Digits -/

theorem isDigit_of_mem_printNat {n : Nat} {c : UInt8} (h : c ∈ printNat n) : isDigit c = true := by
  obtain ⟨d, hd, rfl⟩ := List.mem_map.1 h
  have hdigit := Nat.isDigit_of_mem_toDigits (by decide) (by decide) hd
  simp only [Char.isDigit, Bool.and_eq_true, decide_eq_true_eq, ge_iff_le] at hdigit
  have hlow : 48 ≤ d.toNat := hdigit.1
  have hhigh : d.toNat ≤ 57 := hdigit.2
  simp only [isDigit, Bool.and_eq_true, decide_eq_true_eq, Nat.toUInt8_eq, UInt8.toNat_ofNat']
  omega

theorem printNat_ne_nil (n : Nat) : printNat n ≠ [] := by
  have hpos := @Nat.length_toDigits_pos 10 n
  intro h
  rw [printNat, List.map_eq_nil_iff] at h
  simp [h] at hpos

theorem length_printNat_le {n k : Nat} (hk : 0 < k) (h : n < 10 ^ k) : (printNat n).length ≤ k := by
  rw [printNat, List.length_map]
  exact (Nat.length_toDigits_le_iff (by decide) hk).2 h

theorem foldl_digits (digits : Text) (value : Nat) :
    digits.foldl (fun value c => value * 10 + (c.toNat - 48)) value =
      value * 10 ^ digits.length + digitsValue digits := by
  induction digits generalizing value with
  | nil => simp [digitsValue]
  | cons c rest ih =>
    rw [digitsValue, List.foldl_cons, List.foldl_cons, ih, ih (0 * 10 + _), List.length_cons, pow_succ]
    ring

theorem digitsValue_append (whole fraction : Text) :
    digitsValue (whole ++ fraction) = digitsValue whole * 10 ^ fraction.length + digitsValue fraction := by
  rw [digitsValue, List.foldl_append, foldl_digits, ← digitsValue]

theorem digitsValue_replicate_zero (k : Nat) : digitsValue (List.replicate k 48) = 0 := by
  induction k with
  | zero => rfl
  | succ k ih => rw [List.replicate_succ', digitsValue_append, ih]; simp [digitsValue]

/-- The bytes are read as the characters they stand for. -/
theorem foldl_map_toUInt8 {digits : List Char} (hbytes : ∀ c ∈ digits, c.toNat < 256) (value : Nat) :
    (digits.map fun c => c.toNat.toUInt8).foldl (fun value c => value * 10 + (c.toNat - 48)) value =
      Nat.ofDigitChars 10 digits value := by
  induction digits generalizing value with
  | nil => simp
  | cons c rest ih =>
    have hc : c.toNat.toUInt8.toNat = c.toNat := by
      have := hbytes c (by simp)
      simp only [Nat.toUInt8_eq, UInt8.toNat_ofNat']
      omega
    rw [List.map_cons, List.foldl_cons, ih fun d hd => hbytes d (by simp [hd]), Nat.ofDigitChars_cons, hc,
      Nat.mul_comm]
    rfl

theorem digitsValue_printNat (n : Nat) : digitsValue (printNat n) = n := by
  have hbytes : ∀ c ∈ Nat.toDigits 10 n, c.toNat < 256 := by
    intro c hc
    have hdigit := Nat.isDigit_of_mem_toDigits (by decide) (by decide) hc
    simp only [Char.isDigit, Bool.and_eq_true, decide_eq_true_eq, ge_iff_le] at hdigit
    have hhigh : c.toNat ≤ 57 := hdigit.2
    omega
  rw [digitsValue, printNat, foldl_map_toUInt8 hbytes, Nat.ofDigitChars_ten_toDigits]

/-- A sign before a digit, or before nothing. -/
theorem splitSign_printSign {negative : Bool} {text : Text} (h : ∀ c ∈ text.head?, isDigit c = true) :
    splitSign (printSign negative ++ text) = (negative, text) := by
  cases negative with
  | true => rfl
  | false =>
      cases text with
      | nil => rfl
      | cons c rest =>
          have hsign := not_isSign_of_isDigit (h c rfl)
          simp [printSign, splitSign, hsign]

/-- What is printed reads back. -/
theorem decimalInt?_printInt (n : Int) : decimalInt? (printInt n) = some n := by
  have hdigits : ∀ c ∈ printNat n.natAbs, isDigit c = true := fun c hc => isDigit_of_mem_printNat hc
  have hfirst : ∀ c ∈ (printNat n.natAbs).head?, isDigit c = true := fun c hc => hdigits c (List.mem_of_mem_head? hc)
  rw [decimalInt?, printInt, splitSign_printSign hfirst]
  dsimp only
  rw [if_pos ⟨printNat_ne_nil _, List.all_eq_true.2 hdigits⟩, digitsValue_printNat, withSign]
  split_ifs with hsign
  · have hneg : n < 0 := of_decide_eq_true hsign
    exact congrArg some (by omega)
  · have hnonneg : ¬ n < 0 := fun hneg => hsign (decide_eq_true hneg)
    exact congrArg some (by omega)

/-- And `strtol` reads what a `long` of that many bits holds. -/
theorem strtol_printInt {bits : Nat} {n : Int} (hlow : -2 ^ (bits - 1) ≤ n) (hhigh : n < 2 ^ (bits - 1)) :
    strtol bits (printInt n) = n := by
  rw [strtol_eq_of_decimalInt (decimalInt?_printInt n)]
  exact saturate_eq_self (Nat.le_refl bits) hlow hhigh

theorem printInt_injective {m n : Int} (h : printInt m = printInt n) : m = n := by
  have hread := decimalInt?_printInt m
  rw [h, decimalInt?_printInt] at hread
  exact (Option.some.inj hread).symm

/-! ### Fractions -/

theorem printPadded_of_nonneg {places n : Nat} (hplaces : 0 < places) (h : n < 10 ^ places) :
    (printPadded places n).length = places ∧ (printPadded places n).all isDigit = true ∧
      digitsValue (printPadded places n) = n := by
  have hlength := length_printNat_le hplaces h
  have htext : printPadded places n = List.replicate (places - (printNat n).length) 48 ++ printNat n := by
    have hsign : ¬(n : Int) < 0 := by omega
    simp [printPadded, printInt, printSign, hsign]
  rw [htext]
  refine ⟨?_, ?_, ?_⟩
  · simp only [List.length_append, List.length_replicate]
    omega
  · rw [List.all_append, Bool.and_eq_true, List.all_eq_true, List.all_eq_true]
    refine ⟨fun c hc => ?_, fun c hc => isDigit_of_mem_printNat hc⟩
    rw [List.eq_of_mem_replicate hc]
    decide
  · rw [digitsValue_append, digitsValue_replicate_zero, digitsValue_printNat]
    omega

/-- Of a sign, digits and a point, only what follows the point is left to be looked at. -/
theorem fixedPoint?_printSign {places : Nat} {negative : Bool} {whole fraction : Text}
    (hwhole : whole ≠ []) (hdigits : ∀ c ∈ whole, isDigit c = true) :
    fixedPoint? places (printSign negative ++ whole ++ 46 :: fraction) =
      if fraction.length = places ∧ fraction.all isDigit then
        some ((withSign negative (digitsValue (whole ++ fraction)) : Int) / 10 ^ places : ℚ)
      else none := by
  have hsplit : splitSign (printSign negative ++ whole ++ 46 :: fraction) = (negative, whole ++ 46 :: fraction) := by
    rw [List.append_assoc, splitSign_printSign]
    obtain ⟨c, rest, rfl⟩ := List.exists_cons_of_ne_nil hwhole
    rintro x ⟨⟩
    exact hdigits c List.mem_cons_self
  have hpoint : isDigit 46 = false := by decide
  have htake : (whole ++ 46 :: fraction).takeWhile isDigit = whole := by
    rw [List.takeWhile_append_of_pos hdigits]
    simp [hpoint]
  have hdrop : (whole ++ 46 :: fraction).dropWhile isDigit = 46 :: fraction := by
    rw [List.dropWhile_append_of_pos hdigits]
    simp [hpoint]
  simp only [fixedPoint?, hsplit, htake, hdrop, hwhole, ne_eq, not_false_eq_true, true_and]

/-- A remainder that is not negative leaves a numeral. -/
theorem fixedPoint?_printFixed {places : Nat} (hplaces : 0 < places) {whole : Int} {remainder : Nat}
    (h : remainder < 10 ^ places) :
    fixedPoint? places (printFixed places whole remainder) =
      some ((withSign (whole < 0) (whole.natAbs * 10 ^ places + remainder) : Int) / 10 ^ places : ℚ) := by
  obtain ⟨hlength, hdigits, hvalue⟩ := printPadded_of_nonneg hplaces h
  rw [printFixed, printInt, fixedPoint?_printSign (printNat_ne_nil _) fun c hc => isDigit_of_mem_printNat hc,
    if_pos ⟨hlength, hdigits⟩, digitsValue_append, digitsValue_printNat, hlength, hvalue]

/-- A negative one puts a second sign behind the point. -/
theorem fixedPoint?_printFixed_of_neg {places : Nat} {whole remainder : Int} (h : remainder < 0) :
    fixedPoint? places (printFixed places whole remainder) = none := by
  rw [printFixed, printInt, fixedPoint?_printSign (printNat_ne_nil _) fun c hc => isDigit_of_mem_printNat hc, if_neg]
  rintro ⟨-, hdigits⟩
  have hsign : (45 : UInt8) ∈ printPadded places remainder := by simp [printPadded, printSign, h]
  exact absurd (List.all_eq_true.1 hdigits _ hsign) (by decide)

theorem tmod_neg_of_not_dvd {v d : Int} (hv : v < 0) (hd : ¬d ∣ v) : v.tmod d < 0 := by
  have hne : v.tmod d ≠ 0 := fun h => hd (Int.dvd_of_tmod_eq_zero h)
  have hnonneg := Int.tmod_nonneg d (show 0 ≤ -v by omega)
  rw [Int.neg_tmod] at hnonneg
  omega

/-- Printed in two halves, a number reads back exactly if it is not negative or has no fraction. -/
theorem fixedPoint?_printFixed_iff {places : Nat} (hplaces : 0 < places) (v : Int) :
    fixedPoint? places (printFixed places (v.tdiv (10 ^ places)) (v.tmod (10 ^ places))) =
        some ((v : ℚ) / 10 ^ places) ↔
      0 ≤ v ∨ (10 : Int) ^ places ∣ v := by
  have hpow : 0 < 10 ^ places := Nat.pow_pos (by decide)
  constructor
  · intro hexact
    by_contra hnot
    rw [not_or, not_le] at hnot
    rw [fixedPoint?_printFixed_of_neg (tmod_neg_of_not_dvd hnot.1 hnot.2)] at hexact
    exact absurd hexact (by simp)
  · rintro (hnonneg | ⟨k, rfl⟩)
    · obtain ⟨n, rfl⟩ := Int.eq_ofNat_of_zero_le hnonneg
      have hdiv : (n : Int).tdiv (10 ^ places) = (n / 10 ^ places : Nat) := by
        rw [Int.tdiv_eq_ediv_of_nonneg hnonneg]
        norm_cast
      have hmod : (n : Int).tmod (10 ^ places) = (n % 10 ^ places : Nat) := by
        rw [Int.tmod_eq_emod_of_nonneg hnonneg]
        norm_cast
      have hsign : decide (((n / 10 ^ places : Nat) : Int) < 0) = false :=
        decide_eq_false (not_lt.2 (Int.natCast_nonneg _))
      rw [hdiv, hmod, fixedPoint?_printFixed hplaces (Nat.mod_lt n hpow), Int.natAbs_natCast, Nat.div_add_mod', hsign]
      rfl
    · have hdiv : ((10 : Int) ^ places * k).tdiv (10 ^ places) = k :=
        Int.mul_tdiv_cancel_left k (by positivity)
      have hmod : ((10 : Int) ^ places * k).tmod (10 ^ places) = (0 : Nat) := Int.mul_tmod_right _ k
      have hvalue : withSign (k < 0) (k.natAbs * 10 ^ places + 0) = 10 ^ places * k := by
        rw [withSign]
        split
        next h =>
          have hneg : k < 0 := by simpa using h
          push_cast
          rw [abs_of_neg hneg]
          ring
        next h =>
          have hnonneg : 0 ≤ k := by simpa using h
          push_cast
          rw [abs_of_nonneg hnonneg]
          ring
      rw [hdiv, hmod, fixedPoint?_printFixed hplaces hpow, hvalue]

/-- The halves of a number with that many digits before the point, their signs, and the point. -/
theorem length_printFixed_le {places digits : Nat} (hplaces : 0 < places) (hdigits : 0 < digits) {v : Int}
    (h : v.natAbs < 10 ^ (digits + places)) :
    (printFixed places (v.tdiv (10 ^ places)) (v.tmod (10 ^ places))).length ≤ digits + places + 3 := by
  have hpow : ((10 : Int) ^ places).natAbs = 10 ^ places := Int.natAbs_pow 10 places
  have hwhole : (printNat (v.tdiv (10 ^ places)).natAbs).length ≤ digits := by
    apply length_printNat_le hdigits
    rw [Int.natAbs_tdiv, hpow]
    apply Nat.div_lt_of_lt_mul
    rwa [Nat.mul_comm, ← Nat.pow_add]
  have hremainder : (printNat (v.tmod (10 ^ places)).natAbs).length ≤ places := by
    apply length_printNat_le hplaces
    rw [Int.natAbs_tmod, hpow]
    exact Nat.mod_lt _ (Nat.pow_pos (by decide))
  have hsign : ∀ negative, (printSign negative).length ≤ 1 := by decide
  have hsignWhole := hsign (v.tdiv (10 ^ places) < 0)
  have hsignRemainder := hsign (v.tmod (10 ^ places) < 0)
  simp only [printFixed, printPadded, printInt, List.length_append, List.length_cons, List.length_replicate]
  omega

end CString
