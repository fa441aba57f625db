import Evse.Pilot
import Evse.Lib.Deviation
import Mathlib.Data.List.Induction
import Mathlib.Data.Rat.Floor
import Mathlib.Algebra.Order.Floor.Semifield
import Mathlib.Tactic.FieldSimp

/-!
# The pilot's measurement

How `pilot.c` reduces the samples of one cycle to a waveform. Samples are sorted into highs and lows as they come; then, of each kind, those far from their average are counted as outliers and taken out of the sum, and the extreme is looked for among the rest. The extreme starts from the first sample, whether or not it is an outlier, so the order of the samples can show.

Counters and sums are unsigned integers of 16 and 32 bits; a cycle has at most 500 samples of at most 3299 millivolts.
-/

namespace Evse.ControlPilot

open Deviation

/-! ### Sampling -/

/-- The waveform being measured, with the buffers of the high and the low samples. -/
structure Sampling where
  waveform : Waveform
  highSamples : List Nat
  lowSamples : List Nat

/-- What `clear_waveform` leaves. -/
def Sampling.cleared : Sampling := ⟨{}, [], []⟩

/-- `on_adc_sample`, from the conversion to millivolts on. -/
def onAdcSample (cutoffVoltageMv : Nat) (s : Sampling) (millivolt : Nat) : Sampling :=
  if millivolt > cutoffVoltageMv then
    { s with
      waveform := { s.waveform with
        highs := (s.waveform.highs + 1) % 2 ^ 16
        highsSum := (s.waveform.highsSum + millivolt) % 2 ^ 32 }
      highSamples := s.highSamples ++ [millivolt] }
  else
    { s with
      waveform := { s.waveform with
        lows := (s.waveform.lows + 1) % 2 ^ 16
        lowsSum := (s.waveform.lowsSum + millivolt) % 2 ^ 32 }
      lowSamples := s.lowSamples ++ [millivolt] }

/-! ### Outliers -/

def getAverage (sum count : Nat) : Nat := if count ≠ 0 then sum / count % 2 ^ 16 else 0

/-- The loop of `sqrt_u32`. -/
def sqrtLoop (val x y : Nat) : Nat :=
  if x > y then sqrtLoop val ((x + y) % 2 ^ 32 / 2) (val / ((x + y) % 2 ^ 32 / 2)) else x
termination_by x
decreasing_by omega

def sqrtU32 (val : Nat) : Nat := if val = 0 then 0 else sqrtLoop val val 1

def addSquare (avg variance sample : Nat) : Nat :=
  let diff : Int := (sample : Int) - avg
  (variance + (diff * diff).toNat) % 2 ^ 32

def calculateStandardDeviation (data : List Nat) (avg : Nat) : Nat :=
  if data.length = 0 ∨ avg = 0 then 0
  else sqrtU32 (data.foldl (addSquare avg) 0 / data.length) % 2 ^ 16

/-- What the pointers given to `remove_outliers` point to. -/
structure Extraction where
  samplesSum : Nat
  samplesCount : Nat
  outliers : Nat
  max : Nat
  min : Nat

/-- One turn of the loop of `remove_outliers`. The difference is an `int16_t`. -/
def sortOut (avg stdev : Nat) (e : Extraction) (val : Nat) : Extraction :=
  let diff : Int := ((val : Int) - avg).bmod (2 ^ 16)
  if diff.natAbs > stdev then
    { e with samplesSum := (e.samplesSum + 2 ^ 32 - val) % 2 ^ 32, outliers := (e.outliers + 1) % 2 ^ 16 }
  else
    { e with max := if val > e.max then val else e.max, min := if val < e.min then val else e.min }

/-- `remove_outliers`. The code has a pointer to only one of the extremes; here both are kept, and the caller takes the one it asks for. -/
def removeOutliers (samples : List Nat) (e : Extraction) (toleranceMv : Nat) : Extraction :=
  if e.samplesCount = 0 then e
  else
    let data := samples.take e.samplesCount
    let avg := getAverage e.samplesSum e.samplesCount
    let stdev := max (calculateStandardDeviation data avg) toleranceMv
    let e := data.foldl (sortOut avg stdev) { e with max := samples.headD 0, min := samples.headD 0 }
    { e with samplesCount := (e.samplesCount + 2 ^ 16 - e.outliers) % 2 ^ 16 }

def doPostProcess (s : Sampling) (toleranceMv : Nat) : Waveform :=
  let w := s.waveform
  let highs := removeOutliers s.highSamples ⟨w.highsSum, w.highs, w.highsOutliers, w.highsMax, 0⟩ toleranceMv
  let lows := removeOutliers s.lowSamples ⟨w.lowsSum, w.lows, w.lowsOutliers, 0, w.lowsMin⟩ toleranceMv
  { highs := highs.samplesCount, highsOutliers := highs.outliers, highsSum := highs.samplesSum, highsMax := highs.max
    lows := lows.samplesCount, lowsOutliers := lows.outliers, lowsSum := lows.samplesSum, lowsMin := lows.min }

/-- The waveform that `measure` leaves of the samples it has read. -/
def measure (cutoffVoltageMv toleranceMv : Nat) (samples : List Nat) : Waveform :=
  doPostProcess (samples.foldl (onAdcSample cutoffVoltageMv) .cleared) toleranceMv

def getDuty (waveform : Waveform) : Nat :=
  let transitions := (waveform.lowsOutliers / 2 + waveform.highsOutliers / 2) % 2 ^ 16
  let total := (waveform.highs + waveform.lows + waveform.highsOutliers + waveform.lowsOutliers) % 2 ^ 16
  let highs := (waveform.highs + transitions) % 2 ^ 16
  if total = 0 then 0 else (highs * 1000 / total + 5) / 10 % 2 ^ 8

/-! ### What the functions compute -/

/-- The samples of a cycle. -/
structure Cycle (samples : List Nat) : Prop where
  count : samples.length ≤ 500
  range : ∀ x ∈ samples, x ≤ 3299

theorem Cycle.filter {samples : List Nat} (h : Cycle samples) (p : Nat → Bool) : Cycle (samples.filter p) :=
  ⟨(List.length_filter_le p samples).trans h.count, fun x hx => h.range x (List.mem_filter.1 hx).1⟩

theorem Cycle.sum_le {samples : List Nat} (h : Cycle samples) : samples.sum ≤ 500 * 3299 :=
  (Deviation.sum_le h.range).trans (Nat.mul_le_mul_right _ h.count)

theorem sqrtLoop_eq {val x : Nat} (hval : val < 2 ^ 31) (hx : 0 < x) (hle : x ≤ val) (hroot : Nat.sqrt val ≤ x) :
    sqrtLoop val x (val / x) = Nat.sqrt val := by
  induction x using Nat.strong_induction_on with
  | _ x ih =>
    rw [sqrtLoop]
    split_ifs with hgoes
    · have hquotient : 0 < val / x := Nat.div_pos hle hx
      have hnext : (x + val / x) % 2 ^ 32 / 2 = (x + val / x) / 2 := by
        rw [Nat.mod_eq_of_lt (by omega)]
      have hpos : 0 < (x + val / x) / 2 := by omega
      rw [hnext]
      exact ih _ (by omega) hpos (by omega) (sqrt_le_newton hx)
    · exact eq_sqrt_of_newton hx hroot (Nat.le_of_not_gt hgoes)

/-- The loop finds the integer root. -/
theorem sqrtU32_eq {val : Nat} (hval : val < 2 ^ 31) : sqrtU32 val = Nat.sqrt val := by
  rw [sqrtU32]
  split_ifs with hzero
  · rw [hzero, Nat.sqrt_zero]
  · have hpos : 0 < val := Nat.pos_of_ne_zero hzero
    have hstart := sqrtLoop_eq hval hpos (Nat.le_refl val) (Nat.sqrt_le_self val)
    rwa [Nat.div_self hpos] at hstart

theorem natAbs_sub_eq_dist (x a : Nat) : ((x : Int) - a).natAbs = Nat.dist x a := by
  rw [Nat.dist]
  omega

theorem foldl_addSquare (avg : Nat) (data : List Nat) {variance : Nat} (h : variance < 2 ^ 32) :
    data.foldl (addSquare avg) variance = (variance + squares data avg) % 2 ^ 32 := by
  induction data generalizing variance with
  | nil =>
    rw [squares, List.map_nil, List.sum_nil, Nat.add_zero, Nat.mod_eq_of_lt h]
    rfl
  | cons x data ih =>
    have hsquare : (((x : Int) - avg) * (x - avg)).toNat = Nat.dist x avg * Nat.dist x avg := by
      rw [← natAbs_sub_eq_dist, ← Int.natAbs_mul_self, Int.toNat_natCast]
    have hlt : addSquare avg variance x < 2 ^ 32 := Nat.mod_lt _ (by decide)
    rw [List.foldl_cons, ih hlt, addSquare, hsquare, squares, squares, List.map_cons,
      List.sum_cons, Nat.mod_add_mod, Nat.add_assoc]

/-- The deviation of a cycle stays within the integers it is computed in. For an average of zero the code does without. -/
theorem calculateStandardDeviation_eq {data : List Nat} (h : Cycle data) :
    calculateStandardDeviation data (average data) = if average data = 0 then 0 else deviation data := by
  by_cases hnone : data.length = 0 ∨ average data = 0
  · rw [calculateStandardDeviation, if_pos hnone]
    rcases hnone with hempty | hzero
    · have hzero : average data = 0 := by rw [average, hempty, Nat.div_zero]
      rw [if_pos hzero]
    · rw [if_pos hzero]
  · rw [not_or] at hnone
    have hpos : 0 < data.length := Nat.pos_of_ne_zero hnone.1
    have hne : data ≠ [] := List.ne_nil_of_length_pos hpos
    have hsquares := squares_average_le hne h.range
    have hbound : squares data (average data) < 2 ^ 32 := by
      have := Nat.mul_le_mul_right (3299 * 3299 / 4 + 3299) h.count
      omega
    have hvariance : variance data ≤ 3299 * 3299 / 4 + 3299 := Nat.div_le_of_le_mul hsquares
    have hdeviation : Nat.sqrt (variance data) < 2 ^ 16 := Nat.sqrt_lt.2 (by omega)
    rw [calculateStandardDeviation, if_neg (not_or.2 hnone), if_neg hnone.2, foldl_addSquare _ _ (by decide),
      Nat.zero_add, Nat.mod_eq_of_lt hbound, ← variance, sqrtU32_eq (by omega), Nat.mod_eq_of_lt hdeviation, deviation]

/-! ### Inliers and outliers -/

/-- How far from the average a sample may be. -/
def reach (toleranceMv : Nat) (data : List Nat) : Nat :=
  max (calculateStandardDeviation data (average data)) toleranceMv

def isOutlier (toleranceMv : Nat) (data : List Nat) (x : Nat) : Bool :=
  Nat.dist x (average data) > reach toleranceMv data

def outliers (toleranceMv : Nat) (data : List Nat) : List Nat := data.filter (isOutlier toleranceMv data)

def inliers (toleranceMv : Nat) (data : List Nat) : List Nat := data.filter fun x => !isOutlier toleranceMv data x

theorem sum_filter_add (p : Nat → Bool) (l : List Nat) : (l.filter p).sum + (l.filter fun x => !p x).sum = l.sum := by
  induction l with
  | nil => rfl
  | cons x l ih =>
    cases hp : p x <;> simp only [List.filter_cons, hp, Bool.not_true, Bool.not_false, Bool.false_eq_true, if_true,
      if_false, List.sum_cons] <;> omega

theorem length_filter_add (p : Nat → Bool) (l : List Nat) :
    (l.filter p).length + (l.filter fun x => !p x).length = l.length := by
  induction l with
  | nil => rfl
  | cons x l ih =>
    cases hp : p x <;> simp only [List.filter_cons, hp, Bool.not_true, Bool.not_false, Bool.false_eq_true, if_true,
      if_false, List.length_cons] <;> omega

/-- The loop over samples that the sum and the counter have room for. -/
theorem foldl_sortOut {avg stdev : Nat} {data : List Nat} (havg : avg ≤ 3299) (hdata : ∀ x ∈ data, x ≤ 3299)
    {e : Extraction} (hsum : data.sum ≤ e.samplesSum) (hsum32 : e.samplesSum < 2 ^ 32)
    (hcount : e.outliers + data.length < 2 ^ 16) :
    data.foldl (sortOut avg stdev) e =
      { e with
        samplesSum := e.samplesSum - (data.filter fun x => Nat.dist x avg > stdev).sum
        outliers := e.outliers + (data.filter fun x => Nat.dist x avg > stdev).length
        max := (data.filter fun x => !decide (Nat.dist x avg > stdev)).foldl max e.max
        min := (data.filter fun x => !decide (Nat.dist x avg > stdev)).foldl min e.min } := by
  induction data generalizing e with
  | nil => simp
  | cons x data ih =>
    have hx := hdata x (by simp)
    have hrest := fun y hy => hdata y (List.mem_cons_of_mem x hy)
    simp only [List.sum_cons, List.length_cons] at hsum hcount
    have hdiff : (((x : Int) - avg).bmod (2 ^ 16)).natAbs = Nat.dist x avg := by
      have hsmall : ((x : Int) - avg).bmod (2 ^ 16) = x - avg := Int.bmod_eq_of_le (by omega) (by omega)
      rw [hsmall, natAbs_sub_eq_dist]
    by_cases hfar : Nat.dist x avg > stdev
    · have hstep : sortOut avg stdev e x =
          { e with samplesSum := e.samplesSum - x, outliers := e.outliers + 1 } := by
        have hsub : (e.samplesSum + 2 ^ 32 - x) % 2 ^ 32 = e.samplesSum - x := by omega
        have hadd : (e.outliers + 1) % 2 ^ 16 = e.outliers + 1 := Nat.mod_eq_of_lt (by omega)
        simp only [sortOut, hdiff, if_pos hfar, hsub, hadd]
      rw [List.foldl_cons, hstep, ih hrest (by simp only; omega) (by simp only; omega) (by simp only; omega)]
      simp only [List.filter_cons, hfar, decide_true, if_true, Bool.not_true, Bool.false_eq_true, if_false,
        List.sum_cons, List.length_cons, Nat.sub_sub, Nat.add_assoc, Nat.add_comm 1]
    · have hstep : sortOut avg stdev e x = { e with max := max e.max x, min := min e.min x } := by
        have hmax : (if x > e.max then x else e.max) = max e.max x := by split_ifs <;> omega
        have hmin : (if x < e.min then x else e.min) = min e.min x := by split_ifs <;> omega
        simp only [sortOut, hdiff, if_neg hfar, hmax, hmin]
      rw [List.foldl_cons, hstep, ih hrest (by simp only; omega) (by simp only; omega) (by simp only; omega)]
      simp only [List.filter_cons, hfar, decide_false, Bool.not_false, if_true, Bool.false_eq_true, if_false,
        List.foldl_cons]

/-- What is left of the samples of one kind. -/
theorem removeOutliers_eq {data : List Nat} (h : Cycle data) (toleranceMv : Nat) :
    removeOutliers data ⟨data.sum, data.length, 0, 0, 0⟩ toleranceMv =
      { samplesSum := (inliers toleranceMv data).sum
        samplesCount := (inliers toleranceMv data).length
        outliers := (outliers toleranceMv data).length
        max := (inliers toleranceMv data).foldl max (data.headD 0)
        min := (inliers toleranceMv data).foldl min (data.headD 0) } := by
  by_cases hne : data = []
  · subst hne
    rfl
  · have hpos : data.length ≠ 0 := fun hzero => hne (List.length_eq_zero_iff.1 hzero)
    have hsum := h.sum_le
    have hcount := h.count
    have haverage : getAverage data.sum data.length = average data := by
      have hle := average_le h.range
      rw [getAverage, if_pos hpos, ← average, Nat.mod_eq_of_lt (by omega)]
    have hsums := sum_filter_add (isOutlier toleranceMv data) data
    have hlengths := length_filter_add (isOutlier toleranceMv data) data
    have hreach : max (calculateStandardDeviation data (average data)) toleranceMv = reach toleranceMv data := rfl
    have hfar : (fun x => decide (Nat.dist x (average data) > reach toleranceMv data)) = isOutlier toleranceMv data := rfl
    simp only [removeOutliers, if_neg hpos, List.take_length, haverage, hreach]
    rw [foldl_sortOut (average_le h.range) h.range (by simp only; omega) (by simp only; omega) (by simp only; omega)]
    simp only [hfar, inliers, outliers, Extraction.mk.injEq]
    refine ⟨by omega, by omega, by omega, rfl, rfl⟩

/-! ### The waveform of a cycle -/

def highsOf (cutoffVoltageMv : Nat) (samples : List Nat) : List Nat := samples.filter fun x => x > cutoffVoltageMv

def lowsOf (cutoffVoltageMv : Nat) (samples : List Nat) : List Nat :=
  samples.filter fun x => !decide (x > cutoffVoltageMv)

theorem foldl_onAdcSample (cutoffVoltageMv : Nat) (samples : List Nat) :
    samples.foldl (onAdcSample cutoffVoltageMv) .cleared =
      { waveform := {
          highs := (highsOf cutoffVoltageMv samples).length % 2 ^ 16
          lows := (lowsOf cutoffVoltageMv samples).length % 2 ^ 16
          highsSum := (highsOf cutoffVoltageMv samples).sum % 2 ^ 32
          lowsSum := (lowsOf cutoffVoltageMv samples).sum % 2 ^ 32 }
        highSamples := highsOf cutoffVoltageMv samples
        lowSamples := lowsOf cutoffVoltageMv samples } := by
  induction samples using List.reverseRecOn with
  | nil => rfl
  | append_singleton samples x ih =>
    rw [List.foldl_append, ih]
    by_cases hhigh : x > cutoffVoltageMv
    · simp [onAdcSample, highsOf, lowsOf, hhigh]
    · simp [onAdcSample, highsOf, lowsOf, hhigh]

variable {cutoffVoltageMv toleranceMv : Nat} {samples : List Nat}

theorem measure_eq (h : Cycle samples) :
    measure cutoffVoltageMv toleranceMv samples =
      { highs := (inliers toleranceMv (highsOf cutoffVoltageMv samples)).length
        lows := (inliers toleranceMv (lowsOf cutoffVoltageMv samples)).length
        highsOutliers := (outliers toleranceMv (highsOf cutoffVoltageMv samples)).length
        lowsOutliers := (outliers toleranceMv (lowsOf cutoffVoltageMv samples)).length
        highsMax := (inliers toleranceMv (highsOf cutoffVoltageMv samples)).foldl max
          ((highsOf cutoffVoltageMv samples).headD 0)
        lowsMin := (inliers toleranceMv (lowsOf cutoffVoltageMv samples)).foldl min
          ((lowsOf cutoffVoltageMv samples).headD 0)
        highsSum := (inliers toleranceMv (highsOf cutoffVoltageMv samples)).sum
        lowsSum := (inliers toleranceMv (lowsOf cutoffVoltageMv samples)).sum } := by
  have hhighs : Cycle (highsOf cutoffVoltageMv samples) := h.filter _
  have hlows : Cycle (lowsOf cutoffVoltageMv samples) := h.filter _
  have hhighsCount := hhighs.count
  have hhighsSum := hhighs.sum_le
  have hlowsCount := hlows.count
  have hlowsSum := hlows.sum_le
  rw [measure, foldl_onAdcSample, Nat.mod_eq_of_lt (by omega), Nat.mod_eq_of_lt (by omega), Nat.mod_eq_of_lt (by omega),
    Nat.mod_eq_of_lt (by omega)]
  simp only [doPostProcess, removeOutliers_eq hhighs, removeOutliers_eq hlows]

/-- Some sample is no outlier. -/
theorem inliers_ne_nil {data : List Nat} (h : Cycle data) (hne : data ≠ []) (toleranceMv : Nat) :
    inliers toleranceMv data ≠ [] := by
  obtain ⟨x, hx, hnear⟩ : ∃ x ∈ data, Nat.dist x (average data) ≤ reach toleranceMv data := by
    by_cases hzero : average data = 0
    · exact ⟨0, zero_mem_of_average hne hzero, by simp [hzero]⟩
    · obtain ⟨x, hx, hdist⟩ := exists_dist_le_deviation hne
      refine ⟨x, hx, ?_⟩
      rw [reach, calculateStandardDeviation_eq h, if_neg hzero]
      exact hdist.trans (Nat.le_max_left _ _)
  refine List.ne_nil_of_mem (List.mem_filter.2 ⟨hx, ?_⟩)
  simpa [isOutlier] using hnear

theorem getDuty_eq {w : Waveform} {n : Nat} (hn : 0 < n) (hsmall : n ≤ 500)
    (htotal : w.highs + w.lows + w.highsOutliers + w.lowsOutliers = n) :
    getDuty w = ⌊100 * ((w.highs + w.lowsOutliers / 2 + w.highsOutliers / 2 : Nat) : ℚ) / n + 1 / 2⌋₊ ∧
      getDuty w ≤ 100 := by
  have htransitions : (w.lowsOutliers / 2 + w.highsOutliers / 2) % 2 ^ 16 = w.lowsOutliers / 2 + w.highsOutliers / 2 := by
    omega
  have hhighs : (w.highs + (w.lowsOutliers / 2 + w.highsOutliers / 2)) % 2 ^ 16 =
      w.highs + w.lowsOutliers / 2 + w.highsOutliers / 2 := by
    omega
  have hle : w.highs + w.lowsOutliers / 2 + w.highsOutliers / 2 ≤ n := by omega
  have hmod : n % 2 ^ 16 = n := Nat.mod_eq_of_lt (by omega)
  have hduty : getDuty w =
      ((w.highs + w.lowsOutliers / 2 + w.highsOutliers / 2) * 1000 / n + 5) / 10 % 2 ^ 8 := by
    simp only [getDuty, htransitions, hhighs, htotal, hmod, hn.ne', if_false]
  generalize w.highs + w.lowsOutliers / 2 + w.highsOutliers / 2 = highs at hle hduty ⊢
  -- The two divisions round like one of twice the numerator and the denominator.
  have hnested : (highs * 1000 / n + 5) / 10 = (200 * highs + n) / (2 * n) := by
    have hsplit : highs * 1000 / n + 5 = (highs * 1000 + 5 * n) / n := (Nat.add_mul_div_right _ _ hn).symm
    have hnumerator : highs * 1000 + 5 * n = 5 * (200 * highs + n) := by ring
    have hdenominator : n * 10 = 5 * (2 * n) := by ring
    rw [hsplit, Nat.div_div_eq_div_mul, hnumerator, hdenominator, Nat.mul_div_mul_left _ _ (by decide)]
  have hbound : (200 * highs + n) / (2 * n) ≤ 100 := by
    apply Nat.le_of_lt_succ
    apply Nat.div_lt_of_lt_mul
    omega
  have hfraction : 100 * (highs : ℚ) / n + 1 / 2 = ((200 * highs + n : Nat) : ℚ) / ((2 * n : Nat) : ℚ) := by
    have hpos : (n : ℚ) ≠ 0 := Nat.cast_ne_zero.2 hn.ne'
    push_cast
    field_simp
    ring
  rw [hduty, hnested, Nat.mod_eq_of_lt (by omega), hfraction, Nat.floor_div_eq_div]
  exact ⟨rfl, hbound⟩

/-- The numbers of a waveform are those of its cycle without a wrap, some high and some low remains where there is one, and the duty is the share of the highs, with half of the outliers, rounded to the nearest percent. -/
theorem waveform_bookkeeping (h : Cycle samples) (hne : samples ≠ []) :
    let w := measure cutoffVoltageMv toleranceMv samples
    let highs := highsOf cutoffVoltageMv samples
    let lows := lowsOf cutoffVoltageMv samples
    (w.highs = (inliers toleranceMv highs).length ∧ w.highsOutliers = (outliers toleranceMv highs).length ∧
      w.lows = (inliers toleranceMv lows).length ∧ w.lowsOutliers = (outliers toleranceMv lows).length) ∧
    w.highs + w.lows + w.highsOutliers + w.lowsOutliers = samples.length ∧
    (w.highsSum = (inliers toleranceMv highs).sum ∧ w.lowsSum = (inliers toleranceMv lows).sum) ∧
    ((highs ≠ [] → 0 < w.highs) ∧ (lows ≠ [] → 0 < w.lows)) ∧
    getDuty w = ⌊100 * ((w.highs + w.lowsOutliers / 2 + w.highsOutliers / 2 : Nat) : ℚ) / samples.length + 1 / 2⌋₊ ∧
    getDuty w ≤ 100 := by
  intro w highs lows
  have hw : w = _ := measure_eq h
  have hsplit := length_filter_add (fun x => decide (x > cutoffVoltageMv)) samples
  have hhighs := length_filter_add (isOutlier toleranceMv highs) highs
  have hlows := length_filter_add (isOutlier toleranceMv lows) lows
  have htotal : w.highs + w.lows + w.highsOutliers + w.lowsOutliers = samples.length := by
    rw [hw]
    simp only [inliers, outliers, highs, lows, highsOf, lowsOf] at hsplit hhighs hlows ⊢
    omega
  refine ⟨?_, htotal, ?_, ?_, getDuty_eq (List.length_pos_of_ne_nil hne) h.count htotal⟩
  · rw [hw]
    exact ⟨rfl, rfl, rfl, rfl⟩
  · rw [hw]
    exact ⟨rfl, rfl⟩
  · rw [hw]
    exact ⟨fun hhigh => List.length_pos_of_ne_nil (inliers_ne_nil (h.filter _) hhigh _),
      fun hlow => List.length_pos_of_ne_nil (inliers_ne_nil (h.filter _) hlow _)⟩

/-- The numbers of three samples: two highs and a low. -/
theorem waveform_bookkeeping_three :
    (measure 1996 50 [2500, 500, 2510]).highs + (measure 1996 50 [2500, 500, 2510]).lows +
        (measure 1996 50 [2500, 500, 2510]).highsOutliers + (measure 1996 50 [2500, 500, 2510]).lowsOutliers = 3 ∧
      getDuty (measure 1996 50 [2500, 500, 2510]) ≤ 100 := by
  have hcycle : Cycle [2500, 500, 2510] := ⟨by decide, by decide⟩
  obtain ⟨-, htotal, -, -, -, hduty⟩ := waveform_bookkeeping hcycle (by decide)
  exact ⟨htotal, hduty⟩

/-! ### The extremes -/

/-- The samples whose distance from the average is within the standard deviation or the tolerance. -/
def nearAverage (toleranceMv : Nat) (data : List Nat) : List Nat :=
  data.filter fun x => Nat.dist x (average data) ≤ max (deviation data) toleranceMv

theorem mem_nearAverage {data : List Nat} {x : Nat} :
    x ∈ nearAverage toleranceMv data ↔ x ∈ data ∧ Nat.dist x (average data) ≤ max (deviation data) toleranceMv := by
  simp [nearAverage]

theorem nearAverage_ne_nil {data : List Nat} (hne : data ≠ []) : nearAverage toleranceMv data ≠ [] := by
  obtain ⟨x, hx, hdist⟩ := exists_dist_le_deviation hne
  exact List.ne_nil_of_mem (mem_nearAverage.2 ⟨hx, hdist.trans (Nat.le_max_left _ _)⟩)

/-- Where the average is not zero, these are the samples the code keeps. -/
theorem inliers_eq_nearAverage {data : List Nat} (h : Cycle data) (hpos : 0 < average data) :
    inliers toleranceMv data = nearAverage toleranceMv data := by
  have hreach : reach toleranceMv data = max (deviation data) toleranceMv := by
    rw [reach, calculateStandardDeviation_eq h, if_neg hpos.ne']
  simp only [inliers, nearAverage, isOutlier, hreach, gt_iff_lt, ← decide_not, not_lt]

theorem foldl_max_eq {l : List Nat} (hne : l ≠ []) (a : Nat) : l.foldl max a = max a (l.max?.getD 0) := by
  obtain ⟨x, l, rfl⟩ := List.exists_cons_of_ne_nil hne
  rw [List.foldl_cons, List.foldl_assoc, List.max?_cons', Option.getD_some]

theorem foldl_min_eq {l : List Nat} (hne : l ≠ []) (a : Nat) : l.foldl min a = min a (l.min?.getD 0) := by
  obtain ⟨x, l, rfl⟩ := List.exists_cons_of_ne_nil hne
  rw [List.foldl_cons, List.foldl_assoc, List.min?_cons', Option.getD_some]

/-- The high voltage is the first high sample or the largest one near the average. -/
theorem highsMax_eq (h : Cycle samples) :
    (measure cutoffVoltageMv toleranceMv samples).highsMax =
      max ((highsOf cutoffVoltageMv samples).headD 0)
        ((nearAverage toleranceMv (highsOf cutoffVoltageMv samples)).max?.getD 0) := by
  have hhighs : Cycle (highsOf cutoffVoltageMv samples) := h.filter _
  rw [measure_eq h]
  by_cases hne : highsOf cutoffVoltageMv samples = []
  · simp [hne, inliers, nearAverage]
  · have hpos : 0 < average (highsOf cutoffVoltageMv samples) := by
      refine average_pos hne fun x hx => ?_
      have hx' : x > cutoffVoltageMv := by simpa using (List.mem_filter.1 hx).2
      omega
    simp only [inliers_eq_nearAverage hhighs hpos]
    exact foldl_max_eq (nearAverage_ne_nil hne) _

/-- Likewise the low voltage; an average of zero comes from a sample of zero, which no deviation makes an outlier. -/
theorem lowsMin_eq (h : Cycle samples) :
    (measure cutoffVoltageMv toleranceMv samples).lowsMin =
      min ((lowsOf cutoffVoltageMv samples).headD 0)
        ((nearAverage toleranceMv (lowsOf cutoffVoltageMv samples)).min?.getD 0) := by
  have hlows : Cycle (lowsOf cutoffVoltageMv samples) := h.filter _
  rw [measure_eq h]
  by_cases hne : lowsOf cutoffVoltageMv samples = []
  · simp [hne, inliers, nearAverage]
  · by_cases hpos : 0 < average (lowsOf cutoffVoltageMv samples)
    · simp only [inliers_eq_nearAverage hlows hpos]
      exact foldl_min_eq (nearAverage_ne_nil hne) _
    · have hzero : average (lowsOf cutoffVoltageMv samples) = 0 := by omega
      have hmem := zero_mem_of_average hne hzero
      have hinlier : 0 ∈ inliers toleranceMv (lowsOf cutoffVoltageMv samples) :=
        List.mem_filter.2 ⟨hmem, by simp [isOutlier, hzero]⟩
      have hnear : 0 ∈ nearAverage toleranceMv (lowsOf cutoffVoltageMv samples) :=
        mem_nearAverage.2 ⟨hmem, by simp [hzero]⟩
      simp only [foldl_min_eq (List.ne_nil_of_mem hinlier), min?_eq_zero hinlier, min?_eq_zero hnear]

theorem dist_le_iff {x a bound : Nat} : Nat.dist x a ≤ bound ↔ x ≤ a + bound ∧ a ≤ x + bound := by
  rw [Nat.dist]
  omega

section Extremes

variable {data : List Nat} {x : Nat}

/-- A sample is above the samples near the average exactly if it is too far above the average. -/
theorem le_max_nearAverage_iff (hx : x ∈ data) :
    x ≤ (nearAverage toleranceMv data).max?.getD 0 ↔ x ≤ average data + max (deviation data) toleranceMv := by
  have hne : nearAverage toleranceMv data ≠ [] := nearAverage_ne_nil (List.ne_nil_of_mem hx)
  obtain ⟨m, hm⟩ := Option.ne_none_iff_exists'.1 (mt List.max?_eq_none_iff.1 hne)
  obtain ⟨hmem, hmax⟩ := List.max?_eq_some_iff.1 hm
  have hnear := dist_le_iff.1 (mem_nearAverage.1 hmem).2
  rw [hm, Option.getD_some]
  constructor
  · intro hle
    omega
  · intro hle
    by_cases hlow : average data ≤ x + max (deviation data) toleranceMv
    · exact hmax x (mem_nearAverage.2 ⟨hx, dist_le_iff.2 ⟨hle, hlow⟩⟩)
    · omega

theorem min_nearAverage_le_iff (hx : x ∈ data) :
    (nearAverage toleranceMv data).min?.getD 0 ≤ x ↔ average data ≤ x + max (deviation data) toleranceMv := by
  have hne : nearAverage toleranceMv data ≠ [] := nearAverage_ne_nil (List.ne_nil_of_mem hx)
  obtain ⟨m, hm⟩ := Option.ne_none_iff_exists'.1 (mt List.min?_eq_none_iff.1 hne)
  obtain ⟨hmem, hmin⟩ := List.min?_eq_some_iff.1 hm
  have hnear := dist_le_iff.1 (mem_nearAverage.1 hmem).2
  rw [hm, Option.getD_some]
  constructor
  · intro hle
    omega
  · intro hle
    by_cases hhigh : x ≤ average data + max (deviation data) toleranceMv
    · exact hmin x (mem_nearAverage.2 ⟨hx, dist_le_iff.2 ⟨hhigh, hle⟩⟩)
    · omega

end Extremes

/-- No high sample is an outlier above the others, and no low sample one below the others. -/
structure Settled (cutoffVoltageMv toleranceMv : Nat) (samples : List Nat) : Prop where
  highs : ∀ x ∈ highsOf cutoffVoltageMv samples,
    x ≤ average (highsOf cutoffVoltageMv samples) + max (deviation (highsOf cutoffVoltageMv samples)) toleranceMv
  lows : ∀ x ∈ lowsOf cutoffVoltageMv samples,
    average (lowsOf cutoffVoltageMv samples) ≤ x + max (deviation (lowsOf cutoffVoltageMv samples)) toleranceMv

theorem highsMax_of_settled (h : Cycle samples) (hs : Settled cutoffVoltageMv toleranceMv samples) :
    (measure cutoffVoltageMv toleranceMv samples).highsMax =
      (nearAverage toleranceMv (highsOf cutoffVoltageMv samples)).max?.getD 0 := by
  rw [highsMax_eq h]
  apply Nat.max_eq_right
  cases hhighs : highsOf cutoffVoltageMv samples with
  | nil => exact Nat.zero_le _
  | cons x rest =>
    rw [List.headD_cons, le_max_nearAverage_iff (by simp), ← hhighs]
    exact hs.highs x (by simp [hhighs])

theorem lowsMin_of_settled (h : Cycle samples) (hs : Settled cutoffVoltageMv toleranceMv samples) :
    (measure cutoffVoltageMv toleranceMv samples).lowsMin =
      (nearAverage toleranceMv (lowsOf cutoffVoltageMv samples)).min?.getD 0 := by
  rw [lowsMin_eq h]
  apply Nat.min_eq_right
  cases hlows : lowsOf cutoffVoltageMv samples with
  | nil => rfl
  | cons x rest =>
    rw [List.headD_cons, min_nearAverage_le_iff (by simp), ← hlows]
    exact hs.lows x (by simp [hlows])

/-! ### The order of the samples -/

section Order

variable {data data' samples' : List Nat}

theorem Cycle.perm (h : Cycle samples) (hperm : samples'.Perm samples) : Cycle samples' :=
  ⟨hperm.length_eq ▸ h.count, fun x hx => h.range x (hperm.mem_iff.1 hx)⟩

theorem nearAverage_perm (hperm : data'.Perm data) :
    (nearAverage toleranceMv data').Perm (nearAverage toleranceMv data) := by
  rw [nearAverage, nearAverage, average_perm hperm, deviation_perm hperm]
  exact hperm.filter _

theorem reach_perm (h : Cycle data) (hperm : data'.Perm data) : reach toleranceMv data' = reach toleranceMv data := by
  rw [reach, reach, calculateStandardDeviation_eq h, calculateStandardDeviation_eq (h.perm hperm), average_perm hperm,
    deviation_perm hperm]

theorem isOutlier_perm (h : Cycle data) (hperm : data'.Perm data) :
    isOutlier toleranceMv data' = isOutlier toleranceMv data := by
  funext x
  rw [isOutlier, isOutlier, reach_perm h hperm, average_perm hperm]

theorem outliers_perm (h : Cycle data) (hperm : data'.Perm data) :
    (outliers toleranceMv data').Perm (outliers toleranceMv data) := by
  rw [outliers, outliers, isOutlier_perm h hperm]
  exact hperm.filter _

theorem inliers_perm (h : Cycle data) (hperm : data'.Perm data) :
    (inliers toleranceMv data').Perm (inliers toleranceMv data) := by
  rw [inliers, inliers, isOutlier_perm h hperm]
  exact hperm.filter _

theorem max?_perm (hperm : data'.Perm data) : data'.max? = data.max? := by
  cases hmax : data.max? with
  | none =>
    rw [List.max?_eq_none_iff] at hmax ⊢
    subst hmax
    exact hperm.eq_nil
  | some m =>
    rw [List.max?_eq_some_iff] at hmax ⊢
    exact ⟨hperm.mem_iff.2 hmax.1, fun x hx => hmax.2 x (hperm.mem_iff.1 hx)⟩

theorem min?_perm (hperm : data'.Perm data) : data'.min? = data.min? := by
  cases hmin : data.min? with
  | none =>
    rw [List.min?_eq_none_iff] at hmin ⊢
    subst hmin
    exact hperm.eq_nil
  | some m =>
    rw [List.min?_eq_some_iff] at hmin ⊢
    exact ⟨hperm.mem_iff.2 hmin.1, fun x hx => hmin.2 x (hperm.mem_iff.1 hx)⟩

theorem Settled.perm (hs : Settled cutoffVoltageMv toleranceMv samples) (hperm : samples'.Perm samples) :
    Settled cutoffVoltageMv toleranceMv samples' := by
  have hhighs : (highsOf cutoffVoltageMv samples').Perm (highsOf cutoffVoltageMv samples) := hperm.filter _
  have hlows : (lowsOf cutoffVoltageMv samples').Perm (lowsOf cutoffVoltageMv samples) := hperm.filter _
  refine ⟨fun x hx => ?_, fun x hx => ?_⟩
  · rw [average_perm hhighs, deviation_perm hhighs]
    exact hs.highs x (hhighs.mem_iff.1 hx)
  · rw [average_perm hlows, deviation_perm hlows]
    exact hs.lows x (hlows.mem_iff.1 hx)

/-- The counts and sums never depend on the order; the extremes do not where none of them is an outlier. -/
theorem measure_perm (h : Cycle samples) (hs : Settled cutoffVoltageMv toleranceMv samples)
    (hperm : samples'.Perm samples) :
    measure cutoffVoltageMv toleranceMv samples' = measure cutoffVoltageMv toleranceMv samples := by
  have hhighs : (highsOf cutoffVoltageMv samples').Perm (highsOf cutoffVoltageMv samples) := hperm.filter _
  have hlows : (lowsOf cutoffVoltageMv samples').Perm (lowsOf cutoffVoltageMv samples) := hperm.filter _
  have hmax : (measure cutoffVoltageMv toleranceMv samples').highsMax =
      (measure cutoffVoltageMv toleranceMv samples).highsMax := by
    rw [highsMax_of_settled (h.perm hperm) (hs.perm hperm), highsMax_of_settled h hs, max?_perm (nearAverage_perm hhighs)]
  have hmin : (measure cutoffVoltageMv toleranceMv samples').lowsMin =
      (measure cutoffVoltageMv toleranceMv samples).lowsMin := by
    rw [lowsMin_of_settled (h.perm hperm) (hs.perm hperm), lowsMin_of_settled h hs, min?_perm (nearAverage_perm hlows)]
  rw [measure_eq h, measure_eq (h.perm hperm)] at hmax hmin ⊢
  simp only [Waveform.mk.injEq]
  exact ⟨(inliers_perm (h.filter _) hhighs).length_eq, (inliers_perm (h.filter _) hlows).length_eq,
    (outliers_perm (h.filter _) hhighs).length_eq, (outliers_perm (h.filter _) hlows).length_eq, hmax, hmin,
    (inliers_perm (h.filter _) hhighs).sum_eq, (inliers_perm (h.filter _) hlows).sum_eq⟩

end Order

/-- The extremes are those of the samples near the average, and every order of the samples gives the same waveform, duty and status. -/
structure Extracts (cutoffVoltageMv toleranceMv : Nat) (samples : List Nat) : Prop where
  highsMax : (measure cutoffVoltageMv toleranceMv samples).highsMax =
    (nearAverage toleranceMv (highsOf cutoffVoltageMv samples)).max?.getD 0
  lowsMin : (measure cutoffVoltageMv toleranceMv samples).lowsMin =
    (nearAverage toleranceMv (lowsOf cutoffVoltageMv samples)).min?.getD 0
  order : ∀ samples', samples'.Perm samples →
    measure cutoffVoltageMv toleranceMv samples' = measure cutoffVoltageMv toleranceMv samples ∧
      getDuty (measure cutoffVoltageMv toleranceMv samples') = getDuty (measure cutoffVoltageMv toleranceMv samples) ∧
      ∀ b prevStatus, newStatus b prevStatus (measure cutoffVoltageMv toleranceMv samples') =
        newStatus b prevStatus (measure cutoffVoltageMv toleranceMv samples)

/-- Put first, a sample decides the extreme of its kind, so the measurement is right in every order exactly if no sample would decide it wrongly. -/
theorem extracts_iff_settled (h : Cycle samples) :
    Extracts cutoffVoltageMv toleranceMv samples ↔ Settled cutoffVoltageMv toleranceMv samples := by
  constructor
  · intro he
    refine ⟨fun x hx => ?_, fun x hx => ?_⟩
    · obtain ⟨hmem, hhigh⟩ := List.mem_filter.1 hx
      have hperm : (x :: samples.erase x).Perm samples := (List.perm_cons_erase hmem).symm
      have hhighs : (highsOf cutoffVoltageMv (x :: samples.erase x)).Perm (highsOf cutoffVoltageMv samples) :=
        hperm.filter _
      have hfirst : (highsOf cutoffVoltageMv (x :: samples.erase x)).headD 0 = x := by
        rw [highsOf, List.filter_cons, if_pos hhigh, List.headD_cons]
      have hmax : (measure cutoffVoltageMv toleranceMv (x :: samples.erase x)).highsMax = _ := highsMax_eq (h.perm hperm)
      rw [(he.order _ hperm).1, he.highsMax, hfirst, max?_perm (nearAverage_perm hhighs)] at hmax
      exact (le_max_nearAverage_iff hx).1 (by omega)
    · obtain ⟨hmem, hlow⟩ := List.mem_filter.1 hx
      have hperm : (x :: samples.erase x).Perm samples := (List.perm_cons_erase hmem).symm
      have hlows : (lowsOf cutoffVoltageMv (x :: samples.erase x)).Perm (lowsOf cutoffVoltageMv samples) :=
        hperm.filter _
      have hfirst : (lowsOf cutoffVoltageMv (x :: samples.erase x)).headD 0 = x := by
        rw [lowsOf, List.filter_cons, if_pos hlow, List.headD_cons]
      have hmin : (measure cutoffVoltageMv toleranceMv (x :: samples.erase x)).lowsMin = _ := lowsMin_eq (h.perm hperm)
      rw [(he.order _ hperm).1, he.lowsMin, hfirst, min?_perm (nearAverage_perm hlows)] at hmin
      exact (min_nearAverage_le_iff hx).1 (by omega)
  · intro hs
    refine ⟨highsMax_of_settled h hs, lowsMin_of_settled h hs, fun samples' hperm => ?_⟩
    rw [measure_perm h hs hperm]
    exact ⟨rfl, rfl, fun _ _ => rfl⟩

/-- A cycle at 6 V with a spike, which comes first. -/
def spiked : List Nat := 3299 :: (List.replicate 400 2500 ++ List.replicate 99 500)

/-- The same cycle with the spike among the lows, where it is the largest and not the smallest. -/
def settled : List Nat := List.replicate 400 2500 ++ 1900 :: List.replicate 99 500

theorem settled_extracts : settled.length = 500 ∧ Extracts 1996 50 settled :=
  ⟨by decide +kernel, (extracts_iff_settled ⟨by decide +kernel, by decide +kernel⟩).2
    ⟨by decide +kernel, by decide +kernel⟩⟩

/-- The spike is taken for the high voltage, and the status is A instead of C. In another order of the same samples it is neither. -/
theorem spiked_not_extracted :
    spiked.length = 500 ∧ (∀ x ∈ spiked, x ≤ 3299) ∧
      (measure 1996 50 spiked).highsMax = 3299 ∧ (nearAverage 50 (highsOf 1996 spiked)).max? = some 2500 ∧
      (measure 1996 50 (spiked.rotate 1)).highsMax = 2500 ∧
      newStatus defaultBoundaries .c (measure 1996 50 spiked) = .a ∧
      newStatus defaultBoundaries .c (measure 1996 50 (spiked.rotate 1)) = .c := by
  decide +kernel

end Evse.ControlPilot
