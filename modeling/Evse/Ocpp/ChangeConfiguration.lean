import Evse.Lib.CString
import Mathlib.Logic.Function.Basic

/-!
# ChangeConfiguration

`do_change_configuration` converts the value's text by the type of its key and hands the result to the configuration library. Of the four conversions only that of a string cannot fail: the others turn a text that is no integer, no boolean or no list of measurands into some value all the same, and what the library says of a list is not looked at.
-/

namespace Evse.Ocpp.Configuration

open CString

/-- `ocpp_configuration_data_t`, as far as the handler tells it apart. -/
inductive DataType
  | unknown
  | str
  | int
  | csl
  | bool
  | other
  deriving DecidableEq, Repr

/-- `ocpp_config_status_t`. -/
inductive ConfigStatus
  | accepted
  | rejected
  | rebootRequired
  | notSupported
  deriving DecidableEq, Repr

/-- The object the handler passes to `ocpp_set_configuration`: a text with its terminator, an `int` or a `bool`. -/
inductive Datum
  | str (text : Text)
  | int (value : BitVec 32)
  | bool (value : Bool)
  deriving DecidableEq, Repr

/-- The value the configuration library holds for each key. -/
abbrev Store := Text → Datum

/-- What the handler uses of the libraries and of the platform. -/
structure Library where
  /-- `ocpp_get_configuration_data_type`. -/
  dataType : Text → DataType
  /-- `ocpp_is_configuration_writable`. -/
  writable : Text → Bool
  /-- Whether `ocpp_set_configuration` stores what it is given and returns 0; else it fails and stores nothing. -/
  accepts : Store → Text → Datum → Bool
  /-- `ocpp_get_measurand_from_string`, 0 for a name that is not known. -/
  measurand : Text → BitVec 32
  measurand_nil : measurand [] = 0
  /-- `strchunk` at commas. -/
  strchunk : Chunks 44
  strlower : Text → Text
  strlower_eq : ∀ text, strlower text = text.map toLower
  /-- The width of `long`. -/
  longBits : Nat
  int_le_long : 32 ≤ longBits

variable (lib : Library)

/-- `ocpp_set_configuration`: the error and what is stored afterwards. -/
def setConfiguration (store : Store) (key : Text) (datum : Datum) : Bool × Store :=
  if lib.accepts store key datum then (false, Function.update store key datum) else (true, store)

/-- `on_csl_chunk` over the pieces of a text. -/
def measurandsOf (chunks : List Text) : BitVec 32 :=
  chunks.foldl (fun measurands chunk => measurands ||| lib.measurand chunk) 0

/-- `keys` of `change_csl_configuration`. -/
def cslKeys : List Text :=
  ["MeterValuesAlignedData", "MeterValuesSampledData", "StopTxnAlignedData", "StopTxnSampledData"].map ascii

def changeCslConfiguration (store : Store) (key value : Text) : Bool × Store :=
  if key ∈ cslKeys then
    let measurands := measurandsOf lib (lib.strchunk.chunks value)
    if measurands ≠ 0 then (false, (setConfiguration lib store key (.int measurands)).2) else (false, store)
  else
    (true, store)

/-- The conversion of an integer key. -/
def intOf (value : Text) : BitVec 32 := BitVec.ofInt 32 (strtol lib.longBits value)

/-- The conversion of a boolean key. The copy of eight bytes has no terminator if the text has as many; then what `strlower` and `strcmp` read after it is not `true` either. -/
def boolOf (value : Text) : Bool := lib.strlower (value.take 8) = ascii "true"

def isRebootRequiredConfiguration (_key : Text) : Bool := false

/-- The status before `err` is looked at, `err`, and what is stored. -/
def convert (store : Store) (key value : Text) : ConfigStatus × Bool × Store :=
  if lib.dataType key = .unknown then
    (.notSupported, false, store)
  else if lib.writable key = false then
    (.rejected, false, store)
  else
    match lib.dataType key with
    | .str => (.accepted, setConfiguration lib store key (.str value))
    | .int => (.accepted, setConfiguration lib store key (.int (intOf lib value)))
    | .csl => (.accepted, changeCslConfiguration lib store key value)
    | .bool => (.accepted, setConfiguration lib store key (.bool (boolOf lib value)))
    | .unknown | .other => (.notSupported, false, store)

structure Outcome where
  status : ConfigStatus
  store : Store
  /-- `OCPP_CHARGER_MSG_CONFIGURATION_CHANGED` was sent. -/
  changedSent : Bool

def doChangeConfiguration (store : Store) (key value : Text) : Outcome :=
  match convert lib store key value with
  | (_, true, store) => ⟨.rejected, store, false⟩
  | (status, false, store) =>
      ⟨if isRebootRequiredConfiguration key then .rebootRequired else status, store, true⟩

/-! ### What a text denotes -/

/-- The text is this list of known measurands, separated by commas. -/
structure ListsMeasurands (value : Text) (elements : List Text) : Prop where
  text : value = [44].intercalate elements
  nonempty : elements ≠ []
  known : ∀ e ∈ elements, 44 ∉ e ∧ lib.measurand e ≠ 0

/-- What a value's text says a key of this type is to be. -/
inductive Denotes (value : Text) : DataType → Datum → Prop
  | str : Denotes value .str (.str value)
  | int (n : Int) : decimalInt? value = some n → -2 ^ 31 ≤ n → n < 2 ^ 31 →
      Denotes value .int (.int (BitVec.ofInt 32 n))
  | csl (elements : List Text) : ListsMeasurands lib value elements →
      Denotes value .csl (.int (measurandsOf lib elements))
  | true : value.map toLower = ascii "true" → Denotes value .bool (.bool true)
  | false : value.map toLower = ascii "false" → Denotes value .bool (.bool false)

/-- Either the answer is Accepted and the key has the value its text denotes, or it is not and nothing has changed. -/
def Honest (store : Store) (key value : Text) : Prop :=
  let outcome := doChangeConfiguration lib store key value
  outcome.status = .accepted ∧ Denotes lib value (lib.dataType key) (outcome.store key) ∨
    outcome.status ≠ .accepted ∧ outcome.store = store

/-- The text of an integer or a boolean key is one unless the library refuses the write, and the text of a list key is a list whose mask the library takes or already has. -/
def Converts (store : Store) (key value : Text) : DataType → Prop
  | .int =>
      lib.accepts store key (.int (intOf lib value)) = false ∨
        ∃ n, decimalInt? value = some n ∧ -2 ^ 31 ≤ n ∧ n < 2 ^ 31
  | .bool =>
      lib.accepts store key (.bool (boolOf lib value)) = false ∨
        value.map toLower = ascii "true" ∨ value.map toLower = ascii "false"
  | .csl =>
      key ∉ cslKeys ∨ ∃ elements, ListsMeasurands lib value elements ∧
        (lib.accepts store key (.int (measurandsOf lib elements)) = true ∨
          store key = .int (measurandsOf lib elements))
  | .unknown | .str | .other => True

/-! ### The conversions -/

variable {lib} {store : Store} {key value : Text}

theorem boolOf_eq_true_iff : boolOf lib value = true ↔ value.map toLower = ascii "true" := by
  simp only [boolOf, lib.strlower_eq, decide_eq_true_eq]
  constructor
  · intro h
    -- The four bytes compared are fewer than those copied, so nothing was cut off.
    have hlen : (value.take 8).length = 4 := by simpa [ascii] using congrArg List.length h
    have hshort : value.length ≤ 8 := by
      rw [List.length_take] at hlen
      omega
    rwa [List.take_of_length_le hshort] at h
  · intro h
    have hlen : value.length = 4 := by simpa [ascii] using congrArg List.length h
    rwa [List.take_of_length_le (by omega)]

theorem measurandsOf_fold_ne_zero {chunks : List Text} {measurands : BitVec 32} (h : measurands ≠ 0) :
    chunks.foldl (fun measurands chunk => measurands ||| lib.measurand chunk) measurands ≠ 0 := by
  induction chunks generalizing measurands with
  | nil => exact h
  | cons chunk chunks ih => exact ih fun hzero => h (BitVec.or_eq_zero_iff.1 hzero).1

namespace ListsMeasurands

variable {elements : List Text}

theorem measurandsOf_ne_zero (h : ListsMeasurands lib value elements) : measurandsOf lib elements ≠ 0 := by
  obtain ⟨-, hne, hknown⟩ := h
  cases elements with
  | nil => exact absurd rfl hne
  | cons first rest =>
    have hfirst : (0 : BitVec 32) ||| lib.measurand first ≠ 0 := fun hzero =>
      (hknown first List.mem_cons_self).2 (BitVec.or_eq_zero_iff.1 hzero).2
    rw [measurandsOf, List.foldl_cons]
    exact measurandsOf_fold_ne_zero hfirst

theorem strchunk_eq (h : ListsMeasurands lib value elements) : lib.strchunk.chunks value = elements := by
  rw [h.text]
  refine lib.strchunk.chunks_join elements h.nonempty fun e he => ⟨?_, (h.known e he).1⟩
  rintro rfl
  exact (h.known [] he).2 lib.measurand_nil

end ListsMeasurands

theorem denotes_bool_iff : Denotes lib value .bool (.bool (boolOf lib value)) ↔
    value.map toLower = ascii "true" ∨ value.map toLower = ascii "false" := by
  constructor
  · intro h
    cases hval : boolOf lib value with
    | true => exact .inl (boolOf_eq_true_iff.1 hval)
    | false =>
      rw [hval] at h
      cases h with
      | false hfalse => exact .inr hfalse
  · rintro (htrue | hfalse)
    · rw [boolOf_eq_true_iff.2 htrue]
      exact .true htrue
    · have hval : boolOf lib value = false := by
        rw [Bool.eq_false_iff, Ne, boolOf_eq_true_iff, hfalse]
        decide
      rw [hval]
      exact .false hfalse

theorem denotes_int_iff : Denotes lib value .int (.int (intOf lib value)) ↔
    ∃ n, decimalInt? value = some n ∧ -2 ^ 31 ≤ n ∧ n < 2 ^ 31 := by
  constructor
  · intro h
    generalize hdatum : Datum.int (intOf lib value) = datum at h
    cases h with
    | int n hn hlow hhigh => exact ⟨n, hn, hlow, hhigh⟩
  · rintro ⟨n, hn, hlow, hhigh⟩
    have hint : intOf lib value = BitVec.ofInt 32 n := by
      rw [intOf, strtol_eq_of_decimalInt hn, saturate_eq_self lib.int_le_long hlow hhigh]
    rw [hint]
    exact .int n hn hlow hhigh

/-! ### The answer -/

/-- A conversion that hands its result to the library is honest if the library refuses it, or if it is what the text denotes. -/
theorem honest_write_iff (datum : Datum)
    (h : convert lib store key value = (.accepted, setConfiguration lib store key datum)) :
    Honest lib store key value ↔
      lib.accepts store key datum = false ∨ Denotes lib value (lib.dataType key) datum := by
  cases haccepts : lib.accepts store key datum with
  | false =>
    have hset : setConfiguration lib store key datum = (true, store) := by simp [setConfiguration, haccepts]
    simp [Honest, doChangeConfiguration, h, hset]
  | true =>
    have hset : setConfiguration lib store key datum = (false, Function.update store key datum) := by
      simp [setConfiguration, haccepts]
    simp [Honest, doChangeConfiguration, h, hset, isRebootRequiredConfiguration]

theorem honest_of_untouched (status : ConfigStatus) (err : Bool) (hstatus : status = .accepted → err = true)
    (h : convert lib store key value = (status, err, store)) : Honest lib store key value := by
  refine .inr ?_
  cases err with
  | true => simp [doChangeConfiguration, h]
  | false =>
    have hne : status ≠ .accepted := fun heq => absurd (hstatus heq) Bool.false_ne_true
    simp [doChangeConfiguration, h, isRebootRequiredConfiguration, hne]

theorem changeCsl_of_lists {elements : List Text} (hkey : key ∈ cslKeys)
    (helements : ListsMeasurands lib value elements) :
    changeCslConfiguration lib store key value =
      (false, (setConfiguration lib store key (.int (measurandsOf lib elements))).2) := by
  simp only [changeCslConfiguration, if_pos hkey, helements.strchunk_eq]
  rw [if_pos helements.measurandsOf_ne_zero]

theorem changeCsl_fst (store : Store) (value : Text) (hkey : key ∈ cslKeys) : (changeCslConfiguration lib store key value).1 = false := by
  simp only [changeCslConfiguration, if_pos hkey]
  split <;> rfl

/-- A list is always accepted, whatever the library said of the write. -/
theorem honest_csl_iff (hkey : key ∈ cslKeys) (htype : lib.dataType key = .csl)
    (h : convert lib store key value = (.accepted, changeCslConfiguration lib store key value)) :
    Honest lib store key value ↔ ∃ elements, ListsMeasurands lib value elements ∧
      (lib.accepts store key (.int (measurandsOf lib elements)) = true ∨
        store key = .int (measurandsOf lib elements)) := by
  have houtcome : doChangeConfiguration lib store key value =
      ⟨.accepted, (changeCslConfiguration lib store key value).2, true⟩ := by
    obtain ⟨err, after, heq⟩ : ∃ err after, changeCslConfiguration lib store key value = (err, after) :=
      ⟨_, _, rfl⟩
    have hfst : (changeCslConfiguration lib store key value).1 = false := changeCsl_fst store value hkey
    have herr : err = false := by rwa [heq] at hfst
    subst herr
    simp [doChangeConfiguration, h, heq, isRebootRequiredConfiguration]
  have hhonest : Honest lib store key value ↔
      Denotes lib value .csl ((changeCslConfiguration lib store key value).2 key) := by
    simp [Honest, houtcome, htype]
  rw [hhonest]
  constructor
  · intro hdenotes
    generalize hdatum : (changeCslConfiguration lib store key value).2 key = datum at hdenotes
    cases hdenotes with
    | csl elements helements =>
      refine ⟨elements, helements, ?_⟩
      rw [changeCsl_of_lists hkey helements] at hdatum
      by_cases haccepts : lib.accepts store key (.int (measurandsOf lib elements)) = true
      · exact .inl haccepts
      · refine .inr ?_
        simpa [setConfiguration, haccepts] using hdatum
  · rintro ⟨elements, helements, hstored⟩
    rw [changeCsl_of_lists hkey helements]
    by_cases haccepts : lib.accepts store key (.int (measurandsOf lib elements)) = true
    · simpa [setConfiguration, haccepts] using Denotes.csl elements helements
    · simp only [setConfiguration, if_neg haccepts, hstored.resolve_left haccepts]
      exact .csl elements helements

/-- What a ChangeConfiguration answers is true exactly if the conversion of its key's type fits the text. -/
theorem change_configuration_honest_iff (lib : Library) (store : Store) (key value : Text) :
    Honest lib store key value ↔
      (lib.writable key = true → Converts lib store key value (lib.dataType key)) := by
  cases hwritable : lib.writable key with
  | false =>
    refine iff_of_true ?_ (fun h => absurd h Bool.false_ne_true)
    by_cases htype : lib.dataType key = .unknown
    · exact honest_of_untouched .notSupported false (by simp) (by simp [convert, htype])
    · exact honest_of_untouched .rejected false (by simp)
        (by simp [convert, htype, hwritable])
  | true =>
    simp only [true_implies]
    cases htype : lib.dataType key with
    | unknown =>
      exact iff_of_true (honest_of_untouched .notSupported false (by simp)
        (by simp [convert, htype])) trivial
    | other =>
      exact iff_of_true (honest_of_untouched .notSupported false (by simp)
        (by simp [convert, htype, hwritable])) trivial
    | str =>
      refine iff_of_true ((honest_write_iff (.str value) ?_).2 (.inr ?_)) trivial
      · simp [convert, htype, hwritable]
      · rw [htype]
        exact .str
    | int =>
      rw [honest_write_iff (.int (intOf lib value)) (by simp [convert, htype, hwritable]), htype,
        denotes_int_iff, Converts]
    | bool =>
      rw [honest_write_iff (.bool (boolOf lib value)) (by simp [convert, htype, hwritable]), htype,
        denotes_bool_iff, Converts]
    | csl =>
      by_cases hkey : key ∈ cslKeys
      · rw [honest_csl_iff hkey htype (by simp [convert, htype, hwritable]), Converts]
        simp only [hkey, not_true_eq_false, false_or]
      · refine iff_of_true (honest_of_untouched .accepted true (by simp) ?_) (.inl hkey)
        simp [convert, htype, hwritable, changeCslConfiguration, hkey]

/-- A library with one integer key, which takes every write. -/
def heartbeatOnly : Library where
  dataType key := if key = ascii "HeartbeatInterval" then .int else .unknown
  writable key := key = ascii "HeartbeatInterval"
  accepts _ _ _ := true
  measurand _ := 0
  measurand_nil := rfl
  strchunk := .splitting 44
  strlower text := text.map toLower
  strlower_eq _ := rfl
  longBits := 32
  int_le_long := le_refl 32

/-- A word where an integer belongs is accepted, and the key is set to 0. -/
theorem word_accepted_as_zero :
    (doChangeConfiguration heartbeatOnly (fun _ => .int 3600) (ascii "HeartbeatInterval") (ascii "soon")).status =
        .accepted ∧
      (doChangeConfiguration heartbeatOnly (fun _ => .int 3600) (ascii "HeartbeatInterval") (ascii "soon")).store
        (ascii "HeartbeatInterval") = .int 0 ∧
      ¬ Honest heartbeatOnly (fun _ => .int 3600) (ascii "HeartbeatInterval") (ascii "soon") := by
  refine ⟨by decide, by decide, ?_⟩
  rw [honest_write_iff (.int (intOf heartbeatOnly (ascii "soon"))) (by rfl)]
  rintro (hrefused | hdenotes)
  · exact absurd hrefused (by decide)
  · obtain ⟨n, hn, -⟩ := denotes_int_iff.1 hdenotes
    have hnone : decimalInt? (ascii "soon") = none := by decide
    rw [hnone] at hn
    exact absurd hn (by simp)

/-- Whatever the answer, no other key is touched. -/
theorem doChangeConfiguration_store_of_ne {other : Text} (h : other ≠ key) :
    (doChangeConfiguration lib store key value).store other = store other := by
  have hset (datum : Datum) : (setConfiguration lib store key datum).2 other = store other := by
    simp only [setConfiguration]
    split
    · exact Function.update_of_ne h datum store
    · rfl
  have hcsl : (changeCslConfiguration lib store key value).2 other = store other := by
    simp only [changeCslConfiguration]
    split
    · split
      · exact hset _
      · rfl
    · rfl
  have hconvert : (convert lib store key value).2.2 other = store other := by
    simp only [convert]
    split
    · rfl
    · split
      · rfl
      · split
        · exact hset _
        · exact hset _
        · exact hcsl
        · exact hset _
        · rfl
        · rfl
  simp only [doChangeConfiguration]
  split
  next status after heq => simpa only [heq] using hconvert
  next status after heq => simpa only [heq] using hconvert

end Evse.Ocpp.Configuration
