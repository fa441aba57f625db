import Evse.Lib.Deviation
import Evse.PowerSafety

/-!
# What the mean frequency is

The sum of the frequencies of the periods is divided by the number of samples, of which there is one more. So the mean of steady mains is too low unless there are more than twice as many samples as hertz; and since the sum being zero stands for the first period, frequencies of zero at the beginning do not count for the minimum.
-/

namespace Evse.PowerSafety

open Deviation

/-- Of the periods between samples in order. -/
def frequencies : List UInt32 → List Nat
  | [] => []
  | [_] => []
  | older :: newer :: rest => 1000 / (newer.toNat - older.toNat) :: frequencies (newer :: rest)

/-- In order, with periods of at least 4 ms, whose frequencies fit in a byte. -/
def Periodic (samples : List UInt32) : Prop :=
  samples.IsChain fun older newer => older.toNat + 4 ≤ newer.toNat

/-- The reported minimum and maximum are the extremes of the frequencies, and the average is between them. -/
structure Averages (samples : List UInt32) : Prop where
  min : (frequencies samples).min? = some (calcFreq samples).1.min
  max : (frequencies samples).max? = some (calcFreq samples).1.max
  low : (calcFreq samples).1.min ≤ (calcFreq samples).2
  high : (calcFreq samples).2 ≤ (calcFreq samples).1.max

/-- A frequency of zero, unless all are, comes after another one too; and some frequency is not more than half a hertz above the sum divided by the number of samples. -/
def MeanFits (samples : List UInt32) : Prop :=
  (0 ∈ frequencies samples →
      0 ∈ (frequencies samples).dropWhile (· = 0) ∨ ∀ freq ∈ frequencies samples, freq = 0) ∧
    ∃ freq ∈ frequencies samples, 2 * freq * samples.length ≤ 2 * (frequencies samples).sum + samples.length

instance (samples : List UInt32) : Decidable (Periodic samples) := inferInstanceAs (Decidable (List.IsChain _ _))

instance (samples : List UInt32) : Decidable (MeanFits samples) :=
  inferInstanceAs (Decidable ((_ → _ ∨ _) ∧ ∃ freq ∈ frequencies samples, _))

/-! ### The loop -/

section Loop

variable {older newer : UInt32} {rest : List UInt32}

theorem periodic_cons (h : Periodic (older :: newer :: rest)) :
    older.toNat + 4 ≤ newer.toNat ∧ Periodic (newer :: rest) := List.isChain_cons_cons.1 h

theorem length_frequencies (older : UInt32) (rest : List UInt32) :
    (frequencies (older :: rest)).length = rest.length := by
  induction rest generalizing older with
  | nil => rfl
  | cons newer rest ih => exact congrArg (· + 1) (ih newer)

theorem frequency_le (hperiod : older.toNat + 4 ≤ newer.toNat) : 1000 / (newer.toNat - older.toNat) ≤ 250 :=
  Nat.div_le_div_left (show 4 ≤ newer.toNat - older.toNat by omega) (by decide)

theorem frequencies_le {samples : List UInt32} (h : Periodic samples) : ∀ freq ∈ frequencies samples, freq ≤ 250 := by
  induction samples with
  | nil => exact fun _ hmem => absurd hmem List.not_mem_nil
  | cons older rest ih =>
      cases rest with
      | nil => exact fun _ hmem => absurd hmem List.not_mem_nil
      | cons newer rest =>
          obtain ⟨hperiod, hrest⟩ := periodic_cons h
          exact List.forall_mem_cons.2 ⟨frequency_le hperiod, ih hrest⟩

/-- A turn of the loop: the sum being zero stands for the first period. -/
theorem calcFreqLoop_cons (hperiod : older.toNat + 4 ≤ newer.toNat) (f : Frequencies) :
    calcFreqLoop older f (newer :: rest) =
      calcFreqLoop newer
        { sum := f.sum + 1000 / (newer.toNat - older.toNat)
          min := if f.sum = 0 then 1000 / (newer.toNat - older.toNat)
            else min (1000 / (newer.toNat - older.toNat)) f.min
          max := if f.sum = 0 then 1000 / (newer.toNat - older.toNat)
            else max (1000 / (newer.toNat - older.toNat)) f.max } rest := by
  have hdiff : (newer - older).toNat = newer.toNat - older.toNat :=
    UInt32.toNat_sub_of_le _ _ (UInt32.le_iff_toNat_le.2 (by omega))
  have hsome : newer.toNat - older.toNat ≠ 0 := by omega
  have hfits : 1000 / (newer.toNat - older.toNat) < 2 ^ 8 := Nat.lt_of_le_of_lt (frequency_le hperiod) (by decide)
  simp only [calcFreqLoop, hdiff, if_neg hsome, Nat.mod_eq_of_lt hfits]
  by_cases hsum : f.sum = 0
  · simp only [if_pos hsum]
  · simp only [if_neg hsum]

/-- Once the sum is not zero, the loop takes the extremes. -/
theorem calcFreqLoop_of_pos (h : Periodic (older :: rest)) {f : Frequencies} (hsum : f.sum ≠ 0) :
    calcFreqLoop older f rest =
      { sum := f.sum + (frequencies (older :: rest)).sum
        min := (frequencies (older :: rest)).foldl min f.min
        max := (frequencies (older :: rest)).foldl max f.max } := by
  induction rest generalizing older f with
  | nil => rfl
  | cons newer rest ih =>
      obtain ⟨hperiod, hrest⟩ := periodic_cons h
      have hmore : f.sum + 1000 / (newer.toNat - older.toNat) ≠ 0 := fun hnone => hsum (Nat.add_eq_zero_iff.1 hnone).1
      rw [calcFreqLoop_cons hperiod, if_neg hsum, if_neg hsum, ih hrest hmore, frequencies]
      simp only [List.sum_cons, List.foldl_cons, Nat.add_assoc, Nat.min_comm, Nat.max_comm]

/-- From the beginning, it takes them from the first frequency on that is not zero. -/
theorem calcFreqLoop_of_zero (h : Periodic (older :: rest)) :
    calcFreqLoop older ⟨0, 0, 0⟩ rest =
      { sum := (frequencies (older :: rest)).sum
        min := ((frequencies (older :: rest)).dropWhile (· = 0)).min?.getD 0
        max := ((frequencies (older :: rest)).dropWhile (· = 0)).max?.getD 0 } := by
  induction rest generalizing older with
  | nil => rfl
  | cons newer rest ih =>
      obtain ⟨hperiod, hrest⟩ := periodic_cons h
      rw [calcFreqLoop_cons hperiod, frequencies]
      by_cases hzero : 1000 / (newer.toNat - older.toNat) = 0
      · simp only [hzero, if_true, Nat.zero_add, ih hrest, List.sum_cons, List.dropWhile_cons, decide_true]
      · simp only [if_true, Nat.zero_add, List.dropWhile_cons, hzero, decide_false, Bool.false_eq_true, if_false,
          List.sum_cons]
        rw [calcFreqLoop_of_pos hrest hzero]
        rfl

end Loop

/-! ### The mean -/

/-- What `calc_freq` computes, from the frequencies and their number. -/
theorem calcFreq_eq {samples : List UInt32} (hlength : 2 ≤ samples.length) (h : Periodic samples) :
    (calcFreq samples).1 =
        { sum := (frequencies samples).sum
          min := ((frequencies samples).dropWhile (· = 0)).min?.getD 0
          max := ((frequencies samples).dropWhile (· = 0)).max?.getD 0 } ∧
      (calcFreq samples).2 = ((frequencies samples).sum * 10 / samples.length + 5) / 10 ∧
      samples.length = (frequencies samples).length + 1 ∧ frequencies samples ≠ [] := by
  cases samples with
  | nil => exact absurd hlength (by decide)
  | cons older rest =>
      have hperiods := length_frequencies older rest
      have hne : frequencies (older :: rest) ≠ [] := by
        intro hnil
        rw [hnil] at hperiods
        rw [List.length_cons, ← hperiods] at hlength
        exact absurd hlength (by decide)
      have hloop := calcFreqLoop_of_zero h
      have hcount : (older :: rest).length = (frequencies (older :: rest)).length + 1 := by
        rw [hperiods, List.length_cons]
      have havg : ((frequencies (older :: rest)).sum * 10 / (older :: rest).length + 5) / 10 ≤ 250 := by
        rw [hcount]
        exact rounded_le (sum_le (frequencies_le h))
      refine ⟨hloop, ?_, hcount, hne⟩
      rw [calcFreq, hloop]
      exact Nat.mod_eq_of_lt (Nat.lt_of_le_of_lt havg (by decide))

/-- As many samples as the buffer holds do not wrap the sum. -/
theorem sum_fits {samples : List UInt32} (hlength : samples.length ≤ maxSamples * 2) (h : Periodic samples) :
    (frequencies samples).sum * 10 < 2 ^ 32 := by
  have hsum := sum_le (frequencies_le h)
  have hcount : (frequencies samples).length ≤ 120 := by
    cases samples with
    | nil => exact Nat.zero_le _
    | cons older rest =>
        rw [length_frequencies]
        exact Nat.le_trans (Nat.le_succ _) hlength
  omega

/-- For any sequence of samples in order: the average is between the extremes of the frequencies and these are reported exactly when zeros at the beginning are not the only ones and the frequencies vary or are many enough. -/
theorem mean_frequency_iff {samples : List UInt32} (hlength : 2 ≤ samples.length) (h : Periodic samples) :
    Averages samples ↔ MeanFits samples := by
  obtain ⟨hextremes, havg, hcount, hne⟩ := calcFreq_eq hlength h
  have hpos : 0 < samples.length := Nat.lt_of_lt_of_le Nat.zero_lt_two hlength
  have hmin : (calcFreq samples).1.min = ((frequencies samples).dropWhile (· = 0)).min?.getD 0 := by rw [hextremes]
  have hmax : (calcFreq samples).1.max = ((frequencies samples).dropWhile (· = 0)).max?.getD 0 := by rw [hextremes]
  constructor
  · intro haverages
    obtain ⟨hmin', -, hlow, -⟩ := haverages
    have hmem := List.min?_mem hmin'
    rw [havg, le_rounded_iff hpos] at hlow
    rw [hmin] at hmin'
    exact ⟨(min?_dropWhile_iff hne).1 hmin', _, hmem, hlow⟩
  · rintro ⟨hzeros, freq, hmem, hfreq⟩
    have hmin' := (min?_dropWhile_iff hne).2 hzeros
    have hmax' := max?_dropWhile hne
    rw [← hmin] at hmin'
    rw [← hmax] at hmax'
    refine ⟨hmin', hmax', ?_, ?_⟩
    · have hle := (List.min?_eq_some_iff.1 hmin').2 freq hmem
      rw [havg]
      exact Nat.le_trans hle ((le_rounded_iff hpos).2 hfreq)
    · have hle := (List.max?_eq_some_iff.1 hmax').2
      rw [havg, hcount]
      exact rounded_le (sum_le hle)

/-- Fast and slow periods in turn. -/
theorem mean_of_varying : Averages [0, 16, 116, 132, 232] :=
  (mean_frequency_iff (by decide) (by decide)).2 (by decide)

/-- Sixty samples of a mains of exactly 50 Hz average to 49. -/
theorem mean_of_steady_too_low :
    Periodic ((List.range 60).map fun i => 20 * UInt32.ofNat i) ∧
      (frequencies ((List.range 60).map fun i => 20 * UInt32.ofNat i)).min? = some 50 ∧
      (calcFreq ((List.range 60).map fun i => 20 * UInt32.ofNat i)).2 = 49 ∧
      ¬ Averages ((List.range 60).map fun i => 20 * UInt32.ofNat i) := by
  have hmin : (calcFreq ((List.range 60).map fun i => 20 * UInt32.ofNat i)).1.min = 50 := by decide +kernel
  have havg : (calcFreq ((List.range 60).map fun i => 20 * UInt32.ofNat i)).2 = 49 := by decide +kernel
  refine ⟨by decide +kernel, by decide +kernel, havg, fun haverages => ?_⟩
  have hlow := haverages.low
  rw [hmin, havg] at hlow
  exact absurd hlow (by decide)

end Evse.PowerSafety
