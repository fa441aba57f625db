import Evse.Lib.Printf
import Mathlib.Data.List.Basic

/-!
# Meter values

The adapter turns a mask of measurands into a `MeterValues` request, one sampled value for each bit of the mask, and the JSON encoder later finds out from the size of the request how many it holds. The types of the request belong to the OCPP library, so the codes of its enumerations and the sizes of its structures are parameters here.
-/

namespace Evse.MeterValues

open CString

/-! ### The request -/

/-- The measurands the adapter has a reading for. -/
inductive Measurand
  | energyActiveImportRegister
  | powerActiveImport
  | currentImport
  | voltage
  | powerFactor
  | frequency
  | temperature
  | soc
deriving DecidableEq

inductive MeasureUnit
  | celsius
  | v
  | a
  | percent
  | wh
deriving DecidableEq

/-- What the OCPP library decides. -/
structure Library where
  code : Measurand → BitVec 32
  code_injective : Function.Injective code
  unitCode : MeasureUnit → Nat
  stringifyContext : Nat → Text
  stringifyMeasurand : BitVec 32 → Text
  stringifyUnit : Nat → Text
  meterValuesSize : Nat
  meterValueSize : Nat
  sampledValueSize : Nat
  /-- The size of the text in a sampled value. -/
  valueSize : Nat
  sampledValueSize_pos : 0 < sampledValueSize

/-- The readings of `struct session_metering`. -/
structure SessionMetering where
  wh : UInt64
  millivolt : Int32
  milliamp : Int32
  pfCenti : Int32
  centiHertz : Int32
  watt : Int32
  socPct : UInt8
  temperatureCenti : Int16
  context : Nat

structure SampledValue where
  value : Text
  context : Nat
  measurand : BitVec 32
  unit : Nat
deriving DecidableEq

/-- What of a connector goes into the request. -/
structure Connector where
  id : Int
  transactionId : Int
  now : Int
  metering : SessionMetering

structure MeterValuesRequest where
  connectorId : Int
  transactionId : Int
  timestamp : Int
  sampledValue : List SampledValue

/-- A request and the size it was allocated with. -/
structure Message where
  request : MeterValuesRequest
  size : Nat

variable (lib : Library)

def countMeasurands (measurands : BitVec 32) : Nat :=
  if measurands = 0 then 0 else (measurands &&& 1).toNat + countMeasurands (measurands >>> 1)
termination_by measurands.toNat
decreasing_by
  rename_i hne
  have hpos : measurands.toNat ≠ 0 := fun h => hne (BitVec.eq_of_toNat_eq h)
  rw [BitVec.toNat_ushiftRight, Nat.shiftRight_one]
  omega

/-- The loop of `pick_measurand_by_index` over the bits that are left, with the bits found so far. -/
def pickFrom (measurands : BitVec 32) (index : Nat) : Nat → List Nat → BitVec 32
  | _, [] => 0
  | count, i :: rest =>
    if measurands &&& (1#32 <<< i) ≠ 0 then
      if count + 1 = index then 1#32 <<< i else pickFrom measurands index (count + 1) rest
    else pickFrom measurands index count rest

def pickMeasurandByIndex (measurands : BitVec 32) (index : Nat) : BitVec 32 :=
  pickFrom measurands index 0 (List.range 32)

def getUnitByMeasurand (measurand : BitVec 32) : Nat :=
  if measurand = lib.code .temperature then lib.unitCode .celsius
  else if measurand = lib.code .voltage then lib.unitCode .v
  else if measurand = lib.code .currentImport then lib.unitCode .a
  else if measurand = lib.code .soc then lib.unitCode .percent
  else if measurand = lib.code .powerFactor then lib.unitCode .percent
  else if measurand = lib.code .frequency then lib.unitCode .percent
  else lib.unitCode .wh

/-- The text `set_measurand_value` leaves in a sampled value. -/
def setMeasurandValue (measurand : BitVec 32) (v : SessionMetering) : Text :=
  if measurand = lib.code .energyActiveImportRegister then
    snprintfAt [] 0 lib.valueSize (printNat v.wh.toNat)
  else if measurand = lib.code .powerActiveImport then
    snprintfAt [] 0 lib.valueSize (printInt v.watt.toInt)
  else if measurand = lib.code .currentImport then
    snprintfAt [] 0 lib.valueSize (printFixed 3 (v.milliamp / 1000).toInt (v.milliamp % 1000).toInt)
  else if measurand = lib.code .voltage then
    snprintfAt [] 0 lib.valueSize (printFixed 3 (v.millivolt / 1000).toInt (v.millivolt % 1000).toInt)
  else if measurand = lib.code .powerFactor then
    snprintfAt [] 0 lib.valueSize (printFixed 2 (v.pfCenti / 100).toInt (v.pfCenti % 100).toInt)
  else if measurand = lib.code .frequency then
    snprintfAt [] 0 lib.valueSize (printFixed 2 (v.centiHertz / 100).toInt (v.centiHertz % 100).toInt)
  else if measurand = lib.code .temperature then
    snprintfAt [] 0 lib.valueSize
      (printFixed 2 (v.temperatureCenti / 100).toInt (v.temperatureCenti % 100).toInt)
  else if measurand = lib.code .soc then
    snprintfAt [] 0 lib.valueSize (printNat v.socPct.toNat)
  else []

/-- The request handed to the library, or nothing (`-ENOMEM`) without memory for it. -/
def doMetervalue (memory : Bool) (c : Connector) (measurands : BitVec 32) : Option Message :=
  let nSamples := countMeasurands measurands
  if memory then
    some {
      request := {
        connectorId := c.id
        transactionId := c.transactionId
        timestamp := c.now
        sampledValue := (List.range nSamples).map fun i =>
          let measurand := pickMeasurandByIndex measurands (i + 1)
          { context := c.metering.context
            measurand := measurand
            unit := getUnitByMeasurand lib measurand
            value := setMeasurandValue lib measurand c.metering } }
      size := lib.meterValuesSize + lib.meterValueSize + nSamples * lib.sampledValueSize }
  else none

/-! ### The encoder -/

structure SampleJson where
  value : Text
  context : Option Text
  measurand : Option Text
  unit : Option Text
deriving DecidableEq

structure MeterValueJson where
  timestamp : Int
  sampledValue : Option (List SampleJson)

structure MeterValuesJson where
  connectorId : Int
  transactionId : Option Int
  meterValue : Option (List MeterValueJson)

/-- Which of the objects and arrays of the encoder there is memory for. -/
structure Memory where
  values : Bool
  value : Bool
  samples : Bool
  sample : Nat → Bool

/-- Memory for all of them. -/
def Memory.plenty : Memory := ⟨true, true, true, fun _ => true⟩

def createSampleValue (sample : SampledValue) : SampleJson where
  value := sample.value
  context := if sample.context ≠ 0 then some (lib.stringifyContext sample.context) else none
  measurand := if sample.measurand ≠ 0 then some (lib.stringifyMeasurand sample.measurand) else none
  unit := if sample.unit ≠ 0 then some (lib.stringifyUnit sample.unit) else none

/-- One turn of the loop of `create_meter_value`: nothing for a read behind the samples of the request. -/
def addSample (mem : Memory) (sampledValue : List SampledValue) (samples : List SampleJson) (i : Nat) :
    Option (List SampleJson) :=
  if mem.sample i then sampledValue[i]?.map fun sample => samples ++ [createSampleValue lib sample]
  else some samples

/-- The meter value, if there is memory for it. -/
def createMeterValue (mem : Memory) (request : MeterValuesRequest) (n : Nat) : Option (Option MeterValueJson) :=
  if mem.value then
    if mem.samples then
      ((List.range n).foldlM (addSample lib mem request.sampledValue) []).map fun samples =>
        some ⟨request.timestamp, some samples⟩
    else some (some ⟨request.timestamp, none⟩)
  else some none

/-- How many sampled values a request of that size holds. -/
def sampleCount (size : Nat) : Nat := (size - lib.meterValuesSize - lib.meterValueSize) / lib.sampledValueSize

def doMeterValue (mem : Memory) (msg : Message) : Option MeterValuesJson :=
  let json : MeterValuesJson := {
    connectorId := msg.request.connectorId
    transactionId := if msg.request.transactionId ≠ 0 then some msg.request.transactionId else none
    meterValue := none }
  if mem.values then
    (createMeterValue lib mem msg.request (sampleCount lib msg.size)).map fun value =>
      { json with meterValue := some value.toList }
  else some json

/-! ### The bits of the mask -/

/-- The set bits of a mask, in ascending order. -/
def selected (mask : BitVec 32) : List Nat := (List.range 32).filter mask.getLsbD

theorem and_shiftLeft_ne_zero_iff {mask : BitVec 32} {i : Nat} (hi : i < 32) :
    mask &&& (1#32 <<< i) ≠ 0 ↔ mask.getLsbD i = true := by
  have hbit : mask &&& (1#32 <<< i) = if mask.getLsbD i then BitVec.twoPow 32 i else 0 := BitVec.and_twoPow mask i
  have hne : BitVec.twoPow 32 i ≠ 0 := by
    intro h
    have hzero := congrArg BitVec.toNat h
    rw [BitVec.toNat_twoPow_of_lt hi] at hzero
    exact absurd hzero (Nat.two_pow_pos i).ne'
  rw [hbit]
  split <;> simp_all

/-- A shift of the mask shifts its bits, and the lowest is counted by itself. -/
theorem countP_getLsbD (mask : BitVec 32) :
    (List.range 32).countP mask.getLsbD =
      (mask &&& 1).toNat + (List.range 32).countP (mask >>> 1).getLsbD := by
  have hshift : (List.range 31).countP (mask.getLsbD ∘ Nat.succ) = (List.range 32).countP (mask >>> 1).getLsbD := by
    have htop : (mask >>> 1).getLsbD 31 = false := by
      rw [BitVec.getLsbD_ushiftRight]
      exact BitVec.getLsbD_of_ge mask _ (by decide)
    have hbits : mask.getLsbD ∘ Nat.succ = (mask >>> 1).getLsbD := by
      funext i
      rw [BitVec.getLsbD_ushiftRight, Nat.add_comm, Function.comp]
    rw [List.range_succ (n := 31), List.countP_append, hbits, List.countP_singleton, htop]
    simp
  have hlow : (mask &&& 1).toNat = if mask.getLsbD 0 then 1 else 0 := by
    have hbit : mask &&& 1 = if mask.getLsbD 0 then 1 else 0 := BitVec.and_twoPow mask 0
    rw [hbit]
    split <;> rfl
  have hrange : List.range 32 = 0 :: (List.range 31).map Nat.succ := List.range_succ_eq_map
  calc (List.range 32).countP mask.getLsbD
      = (List.range 31).countP (mask.getLsbD ∘ Nat.succ) + if mask.getLsbD 0 then 1 else 0 := by
        rw [hrange, List.countP_cons, List.countP_map]
    _ = (mask &&& 1).toNat + (List.range 32).countP (mask >>> 1).getLsbD := by rw [hshift, hlow, Nat.add_comm]

theorem countMeasurands_eq (mask : BitVec 32) : countMeasurands mask = (selected mask).length := by
  rw [selected, ← List.countP_eq_length_filter]
  fun_induction countMeasurands mask with
  | case1 => decide
  | case2 mask _ ih => rw [countP_getLsbD, ih]

/-- From a position on, the bit picked is the one the count is still away from. -/
theorem pickFrom_eq {mask : BitVec 32} {index : Nat} {bits : List Nat} (hbits : ∀ i ∈ bits, i < 32) {count : Nat}
    (h : count < index) :
    pickFrom mask index count bits = (((bits.filter mask.getLsbD)[index - count - 1]?).map (1#32 <<< ·)).getD 0 := by
  induction bits generalizing count with
  | nil => rfl
  | cons i rest ih =>
    have hrest : ∀ j ∈ rest, j < 32 := fun j hj => hbits j (by simp [hj])
    have hbit : mask &&& (1#32 <<< i) ≠ 0 ↔ mask.getLsbD i = true := and_shiftLeft_ne_zero_iff (hbits i (by simp))
    rw [pickFrom, List.filter_cons]
    by_cases hset : mask.getLsbD i = true
    · rw [if_pos (hbit.2 hset), if_pos hset]
      by_cases hfound : count + 1 = index
      · have hzero : index - count - 1 = 0 := by omega
        simp [if_pos hfound, hzero]
      · have hnext : index - count - 1 = (index - (count + 1) - 1) + 1 := by omega
        rw [if_neg hfound, ih hrest (by omega), hnext, List.getElem?_cons_succ]
    · rw [if_neg (fun hne => hset (hbit.1 hne)), if_neg hset, ih hrest h]

/-- Counted from one, the measurands picked are the set bits in ascending order. -/
theorem map_pickMeasurandByIndex (mask : BitVec 32) :
    (List.range (countMeasurands mask)).map (fun i => pickMeasurandByIndex mask (i + 1)) =
      (selected mask).map (1#32 <<< ·) := by
  rw [countMeasurands_eq]
  apply List.ext_getElem
  · simp
  · intro i hi _
    have hlt : i < (selected mask).length := by simpa using hi
    have hpick : pickMeasurandByIndex mask (i + 1) = (((selected mask)[i]?).map (1#32 <<< ·)).getD 0 :=
      pickFrom_eq (fun i hi => List.mem_range.1 hi) (Nat.succ_pos i)
    simp [hpick, hlt]

theorem length_selected (mask : BitVec 32) : (selected mask).length = mask.cpop.toNat := by
  have hcount : ∀ k, mask.cpopNatRec k 0 = (List.range k).countP mask.getLsbD := by
    intro k
    induction k with
    | zero => rfl
    | succ k ih =>
      rw [BitVec.cpopNatRec_succ, BitVec.cpopNatRec_add, ih, List.range_succ, List.countP_append]
      cases h : mask.getLsbD k <;> simp [h]
  have hle : (List.range 32).countP mask.getLsbD ≤ 32 := by
    simpa using List.countP_le_length (p := mask.getLsbD) (l := List.range 32)
  rw [selected, ← List.countP_eq_length_filter, BitVec.cpop, hcount, BitVec.toNat_ofNat, Nat.mod_eq_of_lt (by omega)]

/-! ### What the encoder reads -/

/-- The samples there is memory for, in their order. -/
def emitted (mem : Memory) (sampledValue : List SampledValue) : List SampleJson :=
  (sampledValue.zipIdx.filter fun sample => mem.sample sample.2).map fun sample => createSampleValue lib sample.1

theorem emitted_plenty (sampledValue : List SampledValue) :
    emitted lib .plenty sampledValue = sampledValue.map (createSampleValue lib) := by
  have hfst : (fun sample : SampledValue × Nat => createSampleValue lib sample.1) =
    createSampleValue lib ∘ Prod.fst := rfl
  rw [emitted, hfst, ← List.map_map]
  simp [Memory.plenty]

theorem emitted_append_singleton (mem : Memory) (sampledValue : List SampledValue) (sample : SampledValue) :
    emitted lib mem (sampledValue ++ [sample]) =
      emitted lib mem sampledValue ++ if mem.sample sampledValue.length then [createSampleValue lib sample] else [] := by
  rw [emitted, emitted, List.zipIdx_append, List.filter_append, List.map_append]
  by_cases hmem : mem.sample sampledValue.length = true
  · simp [hmem]
  · simp [hmem]

theorem foldlM_addSample (mem : Memory) (sampledValue : List SampledValue) {n : Nat} (h : n ≤ sampledValue.length) :
    (List.range n).foldlM (addSample lib mem sampledValue) [] = some (emitted lib mem (sampledValue.take n)) := by
  induction n with
  | zero => rfl
  | succ n ih =>
    have hn : n < sampledValue.length := by omega
    have hget : sampledValue[n]? = some sampledValue[n] := List.getElem?_eq_getElem hn
    have htake : sampledValue.take (n + 1) = sampledValue.take n ++ [sampledValue[n]] := by
      rw [List.take_add_one, hget, Option.toList]
    have hlength : (sampledValue.take n).length = n := List.length_take_of_le (by omega)
    rw [List.range_succ, List.foldlM_append, ih (by omega), htake, emitted_append_singleton, hlength]
    by_cases hmem : mem.sample n = true
    · simp [addSample, hmem, hget]
    · simp [addSample, hmem]

/-- A request sized for its samples is read to its end and no further. -/
theorem sampleCount_size (n : Nat) :
    sampleCount lib (lib.meterValuesSize + lib.meterValueSize + n * lib.sampledValueSize) = n := by
  have hsub : lib.meterValuesSize + lib.meterValueSize + n * lib.sampledValueSize - lib.meterValuesSize -
      lib.meterValueSize = n * lib.sampledValueSize := by omega
  rw [sampleCount, hsub, Nat.mul_div_cancel _ lib.sampledValueSize_pos]

/-- Of a request that holds as many samples as its size says, the encoder makes its meter value without a read behind the last. -/
theorem doMeterValue_eq (mem : Memory) {msg : Message} (h : sampleCount lib msg.size = msg.request.sampledValue.length) :
    doMeterValue lib mem msg = some {
      connectorId := msg.request.connectorId
      transactionId := if msg.request.transactionId ≠ 0 then some msg.request.transactionId else none
      meterValue := if mem.values then some (if mem.value then [⟨msg.request.timestamp,
          if mem.samples then some (emitted lib mem msg.request.sampledValue) else none⟩] else [])
        else none } := by
  have hread := foldlM_addSample lib mem msg.request.sampledValue le_rfl
  rw [List.take_length] at hread
  rw [doMeterValue, h, createMeterValue, hread]
  cases mem.values <;> cases mem.value <;> cases mem.samples <;> rfl

/-- The samples of a request, one for each set bit of the mask. -/
theorem sampledValue_selected {c : Connector} {mask : BitVec 32} {msg : Message}
    (hmsg : doMetervalue lib true c mask = some msg) :
    msg.request.sampledValue = (selected mask).map fun i => {
      context := c.metering.context
      measurand := 1#32 <<< i
      unit := getUnitByMeasurand lib (1#32 <<< i)
      value := setMeasurandValue lib (1#32 <<< i) c.metering } := by
  have hpicked := congrArg (List.map fun measurand : BitVec 32 => SampledValue.mk
    (setMeasurandValue lib measurand c.metering) c.metering.context measurand (getUnitByMeasurand lib measurand))
    (map_pickMeasurandByIndex mask)
  rw [List.map_map, List.map_map] at hpicked
  rw [← Option.some.inj hmsg]
  exact hpicked

/-- The bit of a measurand is not 0, the one value that is left out of the encoding. -/
theorem shiftLeft_selected_ne_zero {mask : BitVec 32} {i : Nat} (h : i ∈ selected mask) : 1#32 <<< i ≠ 0 := by
  obtain ⟨hrange, hbit⟩ := List.mem_filter.1 h
  have hand := (and_shiftLeft_ne_zero_iff (List.mem_range.1 hrange)).2 hbit
  intro hzero
  rw [hzero] at hand
  exact hand (BitVec.and_zero)

/-- What the encoder writes for the samples of a request. -/
theorem map_createSampleValue {c : Connector} {mask : BitVec 32} {msg : Message}
    (hmsg : doMetervalue lib true c mask = some msg) :
    msg.request.sampledValue.map (createSampleValue lib) = (selected mask).map fun i => {
      value := setMeasurandValue lib (1#32 <<< i) c.metering
      context := if c.metering.context = 0 then none else some (lib.stringifyContext c.metering.context)
      measurand := some (lib.stringifyMeasurand (1#32 <<< i))
      unit := if getUnitByMeasurand lib (1#32 <<< i) = 0 then none
        else some (lib.stringifyUnit (getUnitByMeasurand lib (1#32 <<< i))) } := by
  rw [sampledValue_selected lib hmsg, List.map_map]
  refine List.map_congr_left fun i hi => ?_
  have hbit := shiftLeft_selected_ne_zero hi
  simp only [Function.comp_apply, createSampleValue, if_pos hbit, ite_not]

/-- A request has one sampled value for each set bit of the mask, in ascending order, with the text and the unit of its measurand and the context of the session. The encoder finds their number in the size of the request, reads nothing behind them whatever it has memory for, and emits all of them in this order if it has memory for all: of each the value, the name of its own measurand, and the names of its context and of its unit where these are not 0. -/
theorem meterValues_selected (c : Connector) (mask : BitVec 32) :
    ∃ msg samples, doMetervalue lib true c mask = some msg ∧
      msg.request.sampledValue.length = mask.cpop.toNat ∧
      msg.request.sampledValue.map (·.measurand) = (selected mask).map (1#32 <<< ·) ∧
      msg.request.sampledValue.map (·.value) =
        (selected mask).map (fun i => setMeasurandValue lib (1#32 <<< i) c.metering) ∧
      msg.request.sampledValue.map (·.unit) = (selected mask).map (fun i => getUnitByMeasurand lib (1#32 <<< i)) ∧
      (∀ sample ∈ msg.request.sampledValue, sample.context = c.metering.context) ∧
      sampleCount lib msg.size = mask.cpop.toNat ∧
      (∀ mem, (doMeterValue lib mem msg).isSome) ∧
      (doMeterValue lib .plenty msg).map (·.meterValue) = some (some [⟨c.now, some samples⟩]) ∧
      samples.map (·.value) = msg.request.sampledValue.map (·.value) ∧
      samples.map (·.measurand) = (selected mask).map (fun i => some (lib.stringifyMeasurand (1#32 <<< i))) ∧
      (∀ sample ∈ samples, sample.context =
        if c.metering.context = 0 then none else some (lib.stringifyContext c.metering.context)) ∧
      samples.map (·.unit) = msg.request.sampledValue.map (fun sample =>
        if sample.unit = 0 then none else some (lib.stringifyUnit sample.unit)) := by
  obtain ⟨msg, hmsg⟩ : ∃ msg, doMetervalue lib true c mask = some msg := ⟨_, rfl⟩
  have hsampled := sampledValue_selected lib hmsg
  have hlength : msg.request.sampledValue.length = mask.cpop.toNat := by
    rw [hsampled, List.length_map, length_selected]
  have hcount : sampleCount lib msg.size = mask.cpop.toNat := by
    rw [← Option.some.inj hmsg, sampleCount_size, countMeasurands_eq, length_selected]
  have hread := fun mem => doMeterValue_eq lib mem (hcount.trans hlength.symm)
  have hnow : msg.request.timestamp = c.now := by rw [← Option.some.inj hmsg]
  refine ⟨msg, msg.request.sampledValue.map (createSampleValue lib), hmsg, hlength, ?_, ?_, ?_, ?_, hcount, ?_, ?_, ?_, ?_,
    ?_, ?_⟩
  · rw [hsampled, List.map_map]
    rfl
  · rw [hsampled, List.map_map]
    rfl
  · rw [hsampled, List.map_map]
    rfl
  · rw [hsampled]
    intro sample hsample
    obtain ⟨i, -, rfl⟩ := List.mem_map.1 hsample
    rfl
  · intro mem
    rw [hread mem]
    rfl
  · rw [hread .plenty, emitted_plenty, hnow]
    rfl
  · rw [List.map_map]
    rfl
  · rw [map_createSampleValue lib hmsg, List.map_map]
    rfl
  · rw [map_createSampleValue lib hmsg]
    intro sample hsample
    obtain ⟨i, -, rfl⟩ := List.mem_map.1 hsample
    rfl
  · rw [map_createSampleValue lib hmsg, hsampled, List.map_map, List.map_map]
    rfl

/-! ### What the texts say -/

/-- The measurands whose text is a fraction: the places after the point, and the reading in units of the last. -/
def fractional (v : SessionMetering) : Measurand → Option (Nat × Int)
  | .currentImport => some (3, v.milliamp.toInt)
  | .voltage => some (3, v.millivolt.toInt)
  | .powerFactor => some (2, v.pfCenti.toInt)
  | .frequency => some (2, v.centiHertz.toInt)
  | .temperature => some (2, v.temperatureCenti.toInt)
  | .energyActiveImportRegister | .powerActiveImport | .soc => none

theorem fractional_bounds {v : SessionMetering} {measurand : Measurand} {places : Nat} {reading : Int}
    (h : fractional v measurand = some (places, reading)) :
    (places = 2 ∨ places = 3) ∧ -2 ^ 31 ≤ reading ∧ reading < 2 ^ 31 := by
  have hcurrent := And.intro (Int32.le_toInt v.milliamp) (Int32.toInt_lt v.milliamp)
  have hvoltage := And.intro (Int32.le_toInt v.millivolt) (Int32.toInt_lt v.millivolt)
  have hpowerFactor := And.intro (Int32.le_toInt v.pfCenti) (Int32.toInt_lt v.pfCenti)
  have hfrequency := And.intro (Int32.le_toInt v.centiHertz) (Int32.toInt_lt v.centiHertz)
  have htemperature := And.intro (Int16.le_toInt v.temperatureCenti) (Int16.toInt_lt v.temperatureCenti)
  cases measurand <;> simp only [fractional, reduceCtorEq, Option.some.injEq, Prod.mk.injEq] at h <;>
    obtain ⟨rfl, rfl⟩ := h <;> omega

/-- The text of such a reading fits, so it is what `printf` writes of the two halves. -/
theorem setMeasurandValue_of_fractional (hsize : 14 ≤ lib.valueSize) {v : SessionMetering} {measurand : Measurand}
    {places : Nat} {reading : Int} (h : fractional v measurand = some (places, reading)) :
    setMeasurandValue lib (lib.code measurand) v =
      printFixed places (reading.tdiv (10 ^ places)) (reading.tmod (10 ^ places)) := by
  obtain ⟨hplaces, hlow, hhigh⟩ := fractional_bounds h
  have hlength : (printFixed places (reading.tdiv (10 ^ places)) (reading.tmod (10 ^ places))).length < lib.valueSize := by
    have hdigits : reading.natAbs < 10 ^ (10 - places + places) := by
      rw [Nat.sub_add_cancel (by omega)]
      omega
    have hfits := length_printFixed_le (by omega) (by omega) hdigits
    omega
  have htext : snprintfAt [] 0 lib.valueSize _ = [] ++ _ := snprintfAt_end hlength
  rw [List.nil_append] at htext
  rw [← htext]
  -- No divisor is -1, the one for which the quotient of the smallest value would overflow.
  have hthousand := fun n : Int32 => Int32.toInt_div_of_ne_right n 1000 (by decide)
  have hhundred := fun n : Int32 => Int32.toInt_div_of_ne_right n 100 (by decide)
  have hhundred16 := fun n : Int16 => Int16.toInt_div_of_ne_right n 100 (by decide)
  cases measurand <;> simp only [fractional, reduceCtorEq, Option.some.injEq, Prod.mk.injEq] at h <;>
    obtain ⟨rfl, rfl⟩ := h <;>
    simp only [setMeasurandValue, lib.code_injective.eq_iff, reduceCtorEq, if_true, if_false, hthousand, hhundred,
      hhundred16, Int32.toInt_mod, Int16.toInt_mod] <;>
    rfl

/-- The text is a numeral of exactly the reading unless the reading is negative and not a whole number: the sign of its remainder is printed behind the point. -/
theorem measurand_text_exact_iff (hsize : 14 ≤ lib.valueSize) {v : SessionMetering} {measurand : Measurand}
    {places : Nat} {reading : Int} (h : fractional v measurand = some (places, reading)) :
    fixedPoint? places (setMeasurandValue lib (lib.code measurand) v) = some ((reading : ℚ) / 10 ^ places) ↔
      0 ≤ reading ∨ (10 : Int) ^ places ∣ reading := by
  have hplaces : 0 < places := by
    obtain ⟨hplaces, -⟩ := fractional_bounds h
    omega
  rw [setMeasurandValue_of_fractional lib hsize h]
  exact fixedPoint?_printFixed_iff hplaces reading

/-- A library with one bit for each measurand in the order of the adapter. -/
def Library.sample : Library where
  code measurand := BitVec.twoPow 32 measurand.ctorIdx
  code_injective := by
    intro a b h
    cases a <;> cases b <;> first | rfl | exact absurd h (by decide)
  unitCode unit := unit.ctorIdx
  stringifyContext _ := []
  stringifyMeasurand _ := []
  stringifyUnit _ := []
  meterValuesSize := 8
  meterValueSize := 8
  sampledValueSize := 64
  valueSize := 32
  sampledValueSize_pos := by decide

/-- A current of 1.5 A into the grid. -/
def exporting : SessionMetering where
  wh := 0
  millivolt := 230000
  milliamp := -1500
  pfCenti := 0
  centiHertz := 6000
  watt := 0
  socPct := 0
  temperatureCenti := -50
  context := 0

theorem voltage_text_exact :
    fixedPoint? 3 (setMeasurandValue .sample (Library.sample.code .voltage) exporting) = some ((230000 : ℚ) / 10 ^ 3) :=
  (measurand_text_exact_iff .sample (by decide) rfl).2 (by decide)

theorem exporting_text_not_exact :
    setMeasurandValue .sample (Library.sample.code .currentImport) exporting = ascii "-1.-500" ∧
      fixedPoint? 3 (setMeasurandValue .sample (Library.sample.code .currentImport) exporting) ≠
        some ((-1500 : ℚ) / 10 ^ 3) ∧
      setMeasurandValue .sample (Library.sample.code .temperature) exporting = ascii "0.-50" ∧
      fixedPoint? 2 (setMeasurandValue .sample (Library.sample.code .temperature) exporting) ≠
        some ((-50 : ℚ) / 10 ^ 2) := by
  have hcurrent : fixedPoint? 3 (setMeasurandValue .sample (Library.sample.code .currentImport) exporting) = none := by
    decide +kernel
  have htemperature : fixedPoint? 2 (setMeasurandValue .sample (Library.sample.code .temperature) exporting) = none := by
    decide +kernel
  refine ⟨by decide +kernel, ?_, by decide +kernel, ?_⟩
  · rw [hcurrent]
    exact (Option.some_ne_none _).symm
  · rw [htemperature]
    exact (Option.some_ne_none _).symm

end Evse.MeterValues
