import Evse.Config.Reset
import Evse.Lib.CString

/-!
# Setting the charger's parameters

The commands of `cmd_config.c` that set one parameter of the charger read the stored parameters, assign the field and store them again. The one for the minimum current stores the defaults where the others read, before it looks at its argument; and the one for the maximum does not look at the minimum.

A command line is the list of its words. A `long` has as many bits as the machine says.
-/

namespace Evse.Cli

open CString Config StepRun

/-- `struct charger_param`. -/
@[ext] structure ChargerParam where
  maxInputCurrentMa : UInt32
  inputVoltage : Int16
  inputFrequency : Int16
  maxOutputCurrentMa : UInt32
  minOutputCurrentMa : UInt32
  deriving DecidableEq, Repr

def defaultInputCurrent : UInt32 := 31818
def defaultInputVoltage : Int16 := 220
def defaultInputFrequency : Int16 := 60
def defaultOutputCurrentMin : UInt32 := defaultInputCurrent
def defaultOutputCurrentMax : UInt32 := defaultOutputCurrentMin

def chargerDefaultParam : ChargerParam where
  maxInputCurrentMa := defaultInputCurrent
  inputVoltage := defaultInputVoltage
  inputFrequency := defaultInputFrequency
  maxOutputCurrentMa := defaultOutputCurrentMax
  minOutputCurrentMa := defaultOutputCurrentMin

namespace ChargerParam

/-- The structure in memory, which has no padding. -/
def encode (param : ChargerParam) : List UInt8 :=
  LittleEndian.encode param.maxInputCurrentMa ++ LittleEndian.encode16 param.inputVoltage.toUInt16 ++
    LittleEndian.encode16 param.inputFrequency.toUInt16 ++ LittleEndian.encode param.maxOutputCurrentMa ++
    LittleEndian.encode param.minOutputCurrentMa

def decode (bytes : List UInt8) : ChargerParam where
  maxInputCurrentMa := LittleEndian.decode (bytes.take 4)
  inputVoltage := (LittleEndian.decode16 ((bytes.drop 4).take 2)).toInt16
  inputFrequency := (LittleEndian.decode16 ((bytes.drop 6).take 2)).toInt16
  maxOutputCurrentMa := LittleEndian.decode ((bytes.drop 8).take 4)
  minOutputCurrentMa := LittleEndian.decode ((bytes.drop 12).take 4)

def sizeof : Nat := 16

theorem decode_encode (param : ChargerParam) : decode param.encode = param := by
  ext1
  · exact LittleEndian.decode_encode _
  · exact congrArg UInt16.toInt16 (LittleEndian.decode16_encode16 _)
  · exact congrArg UInt16.toInt16 (LittleEndian.decode16_encode16 _)
  · exact LittleEndian.decode_encode _
  · exact LittleEndian.decode_encode _

theorem encode_decode {bytes : List UInt8} (h : bytes.length = sizeof) : (decode bytes).encode = bytes := by
  match bytes, h with
  | [a0, a1, a2, a3, b0, b1, c0, c1, d0, d1, d2, d3, e0, e1, e2, e3], _ =>
      have ha := LittleEndian.encode_decode a0 a1 a2 a3
      have hb := LittleEndian.encode16_decode16 b0 b1
      have hc := LittleEndian.encode16_decode16 c0 c1
      have hd := LittleEndian.encode_decode d0 d1 d2 d3
      have he := LittleEndian.encode_decode e0 e1 e2 e3
      simp only [encode, decode, List.take, List.drop, UInt16.toUInt16_toInt16, ha, hb, hc, hd, he]
      rfl

end ChargerParam

/-! ### The commands -/

section Commands

variable (longBits : Nat) (mgr : Mgr) (argv : List Text)

/-- The handlers are registered for a word more than the three that name the parameter. -/
def argcMax : Nat := 4

/-- `charger_default_param`, and `config_get` over it. -/
def getParam : ChargerParam :=
  match (configGet mgr "chg.param" ChargerParam.sizeof).1 with
  | some bytes => ChargerParam.decode bytes
  | none => chargerDefaultParam

def storeParam (param : ChargerParam) : Mgr := (configSet mgr "chg.param" param.encode).1

/-- The number given. -/
def argument : Int := strtol longBits (argv.getD 3 [])

/-- A current in amperes, of which the milliamperes are stored. -/
def milliamperes (cur : Int) : UInt32 := UInt32.ofInt cur * 1000

/-- What most of the handlers do. The usage is printed when the command is refused. -/
def doSetParam (low high : Int) (assign : Int → ChargerParam → ChargerParam) (usage : String) : Mgr × Option String :=
  if argv.length ≠ argcMax then (mgr, some usage)
  else if argument longBits argv < low ∨ argument longBits argv > high then (mgr, some usage)
  else (storeParam mgr (assign (argument longBits argv) (getParam mgr)), none)

def assignInputVoltage (voltage : Int) (param : ChargerParam) : ChargerParam :=
  { param with inputVoltage := Int16.ofInt voltage }

def assignInputFrequency (freq : Int) (param : ChargerParam) : ChargerParam :=
  { param with inputFrequency := Int16.ofInt freq }

def assignInputCurrent (cur : Int) (param : ChargerParam) : ChargerParam :=
  { param with maxInputCurrentMa := milliamperes cur }

def assignOutputMaxCurrent (cur : Int) (param : ChargerParam) : ChargerParam :=
  { param with maxOutputCurrentMa := milliamperes cur }

def assignOutputMinCurrent (cur : Int) (param : ChargerParam) : ChargerParam :=
  { param with minOutputCurrentMa := milliamperes cur }

def doSetInputVoltage : Mgr × Option String := doSetParam longBits mgr argv 100 300 assignInputVoltage "100 ~ 300"

def doSetInputFrequency : Mgr × Option String := doSetParam longBits mgr argv 50 60 assignInputFrequency "50 ~ 60"

def doSetInputCurrent : Mgr × Option String := doSetParam longBits mgr argv 6 50 assignInputCurrent "6 ~ 50"

/-- The parameters are read before the number is checked. -/
def doSetOutputMaxCurrent : Mgr × Option String :=
  if argv.length ≠ argcMax then (mgr, some "6 ~ 50")
  else
    let param := getParam mgr
    if argument longBits argv < 6 ∨ argument longBits argv > 50 then (mgr, some "6 ~ 50")
    else (storeParam mgr (assignOutputMaxCurrent (argument longBits argv) param), none)

/-- The defaults are stored, and the rest goes on from them. -/
def doSetOutputMinCurrent : Mgr × Option String :=
  if argv.length ≠ argcMax then (mgr, some "6 ~ 50, max. output current")
  else
    let param := chargerDefaultParam
    let mgr := storeParam mgr param
    if argument longBits argv < 6 ∨ argument longBits argv > 50 ∨
        UInt32.ofInt (argument longBits argv) > param.maxOutputCurrentMa / 1000 then
      (mgr, some "6 ~ 50, max. output current")
    else (storeParam mgr (assignOutputMinCurrent (argument longBits argv) param), none)

end Commands

inductive Setter where
  | inputVoltage | inputFrequency | inputCurrent | outputMaxCurrent | outputMinCurrent
  deriving DecidableEq, Repr

def Setter.run (longBits : Nat) (mgr : Mgr) (argv : List Text) : Setter → Mgr × Option String
  | inputVoltage => doSetInputVoltage longBits mgr argv
  | inputFrequency => doSetInputFrequency longBits mgr argv
  | inputCurrent => doSetInputCurrent longBits mgr argv
  | outputMaxCurrent => doSetOutputMaxCurrent longBits mgr argv
  | outputMinCurrent => doSetOutputMinCurrent longBits mgr argv

/-- Its own field, set to the given number. -/
def Setter.assign : Setter → Int → ChargerParam → ChargerParam
  | inputVoltage => assignInputVoltage
  | inputFrequency => assignInputFrequency
  | inputCurrent => assignInputCurrent
  | outputMaxCurrent => assignOutputMaxCurrent
  | outputMinCurrent => assignOutputMinCurrent

structure Command where
  setter : Setter
  argv : List Text

def step (longBits : Nat) (mgr : Mgr) (command : Command) : Mgr := (command.setter.run longBits mgr command.argv).1

/-! ### The stored parameters -/

section Stored

variable (mgr : Mgr) (param : ChargerParam)

/-- The parameters are a field of the configuration. -/
theorem getParam_eq :
    getParam mgr = ChargerParam.decode (mgr.basic.slice (offsetof .chargerParam) ChargerParam.sizeof) := rfl

theorem slice_of_getParam (h : getParam mgr = param) :
    mgr.basic.slice (offsetof .chargerParam) ChargerParam.sizeof = param.encode := by
  have hlength : (mgr.basic.slice (offsetof .chargerParam) ChargerParam.sizeof).length = ChargerParam.sizeof := by
    have hfits : offsetof .chargerParam + ChargerParam.sizeof ≤ sizeofConfig := by decide
    rw [ByteBlock.slice, List.length_take, List.length_drop, mgr.basic.size]
    omega
  rw [← h, getParam_eq, ChargerParam.encode_decode hlength]

theorem storeParam_eq :
    storeParam mgr param =
      if getParam mgr = param then mgr else markDirty { mgr with basic := put mgr.basic .chargerParam param.encode } := by
  have hset : storeParam mgr param =
      (if mgr.basic.slice (offsetof .chargerParam) ChargerParam.sizeof ≠ param.encode then
        (markDirty { mgr with basic := put mgr.basic .chargerParam param.encode }, (0 : Int)) else (mgr, 0)).1 := rfl
  rw [hset]
  by_cases hsame : getParam mgr = param
  · rw [if_pos hsame, if_neg (not_not.2 (slice_of_getParam mgr param hsame))]
  · have hne : mgr.basic.slice (offsetof .chargerParam) ChargerParam.sizeof ≠ param.encode := by
      intro hslice
      rw [getParam_eq, hslice, ChargerParam.decode_encode] at hsame
      exact hsame rfl
    rw [if_neg hsame, if_pos hne]

theorem storeParam_of_eq (h : getParam mgr = param) : storeParam mgr param = mgr := by rw [storeParam_eq, if_pos h]

theorem storeParam_basic : (storeParam mgr param).basic = put mgr.basic .chargerParam param.encode := by
  rw [storeParam_eq]
  split_ifs with hsame
  · exact (mgr.basic.put_slice _ (slice_of_getParam mgr param hsame)).symm
  · rfl

@[simp] theorem storeParam_nvs : (storeParam mgr param).nvs = mgr.nvs := by
  rw [storeParam_eq]
  split <;> rfl

theorem getParam_of_put {mgr mgr' : Mgr} {param : ChargerParam}
    (h : mgr'.basic = put mgr.basic .chargerParam param.encode) : getParam mgr' = param := by
  have hfits : offsetof .chargerParam + param.encode.length ≤ sizeofConfig :=
    show offsetof .chargerParam + 16 ≤ sizeofConfig by decide
  rw [getParam_eq, h]
  exact (congrArg ChargerParam.decode (mgr.basic.slice_put _ hfits)).trans param.decode_encode

@[simp] theorem getParam_storeParam : getParam (storeParam mgr param) = param :=
  getParam_of_put (storeParam_basic mgr param)

theorem storeParam_storeParam_basic (param' : ChargerParam) :
    (storeParam (storeParam mgr param) param').basic = put mgr.basic .chargerParam param'.encode := by
  rw [storeParam_basic, storeParam_basic]
  exact ByteBlock.put_put _ _ rfl

end Stored

/-! ### One field -/

/-- `connector_validate_param`, of the currents. -/
def Ordered (mgr : Mgr) : Prop := (getParam mgr).minOutputCurrentMa ≤ (getParam mgr).maxOutputCurrentMa

/-- An accepted command stores the parameters with its own field assigned, and changes nothing else in the configuration; a rejected one changes nothing; and the currents stay in order. -/
structure SetsItsField (longBits : Nat) (mgr : Mgr) (command : Command) : Prop where
  accepted : (command.setter.run longBits mgr command.argv).2 = none →
    (step longBits mgr command).basic = put mgr.basic .chargerParam
        (command.setter.assign (argument longBits command.argv) (getParam mgr)).encode ∧
      (step longBits mgr command).nvs = mgr.nvs
  rejected : (command.setter.run longBits mgr command.argv).2 ≠ none → step longBits mgr command = mgr
  ordered : Ordered mgr → Ordered (step longBits mgr command)

/-- A minimum is set, or refused, where the stored parameters are the defaults, but for the minimum itself when it is set. A maximum is set that is not below the minimum, unless the old one was. -/
def Undisturbed (longBits : Nat) (mgr : Mgr) (command : Command) : Prop :=
  command.argv.length = argcMax →
    match command.setter with
    | .inputVoltage | .inputFrequency | .inputCurrent => True
    | .outputMaxCurrent =>
        6 ≤ argument longBits command.argv → argument longBits command.argv ≤ 50 → Ordered mgr →
          (getParam mgr).minOutputCurrentMa ≤ milliamperes (argument longBits command.argv)
    | .outputMinCurrent =>
        getParam mgr = chargerDefaultParam ∨
          6 ≤ argument longBits command.argv ∧ argument longBits command.argv ≤ 31 ∧
            { getParam mgr with minOutputCurrentMa := defaultOutputCurrentMin } = chargerDefaultParam

instance (mgr : Mgr) : Decidable (Ordered mgr) := inferInstanceAs (Decidable (_ ≤ _))

instance (longBits : Nat) (mgr : Mgr) : DecidablePred (Undisturbed longBits mgr)
  | ⟨.inputVoltage, _⟩ | ⟨.inputFrequency, _⟩ | ⟨.inputCurrent, _⟩ => isTrue fun _ => trivial
  | ⟨.outputMaxCurrent, _⟩ => inferInstanceAs (Decidable (_ = _ → _ → _ → _ → _))
  | ⟨.outputMinCurrent, _⟩ => inferInstanceAs (Decidable (_ = _ → _ ∨ _ ∧ _ ∧ _))

section Steps

variable (longBits : Nat) {mgr : Mgr}

/-- A command that stores the parameters with its field assigned, or does nothing, and keeps the order. -/
theorem setsItsField_of_result (command : Command) {ok : Prop} [Decidable ok] {usage : String}
    (hresult : command.setter.run longBits mgr command.argv =
      if ok then (storeParam mgr (command.setter.assign (argument longBits command.argv) (getParam mgr)), none)
      else (mgr, some usage)) :
    SetsItsField longBits mgr command ↔
      (ok → Ordered mgr →
        (command.setter.assign (argument longBits command.argv) (getParam mgr)).minOutputCurrentMa ≤
          (command.setter.assign (argument longBits command.argv) (getParam mgr)).maxOutputCurrentMa) := by
  by_cases hok : ok
  · rw [if_pos hok] at hresult
    have hstep : step longBits mgr command =
        storeParam mgr (command.setter.assign (argument longBits command.argv) (getParam mgr)) := by rw [step, hresult]
    constructor
    · intro hsets _ hordered
      have hkept := hsets.ordered hordered
      rwa [hstep, Ordered, getParam_storeParam] at hkept
    · intro hkept
      refine ⟨fun _ => ?_, fun hrefused => ?_, fun hordered => ?_⟩
      · rw [hstep]
        exact ⟨storeParam_basic _ _, storeParam_nvs _ _⟩
      · rw [hresult] at hrefused
        exact absurd rfl hrefused
      · rw [hstep, Ordered, getParam_storeParam]
        exact hkept hok hordered
  · rw [if_neg hok] at hresult
    have hstep : step longBits mgr command = mgr := by rw [step, hresult]
    constructor
    · exact fun _ hyes => absurd hyes hok
    · intro _
      refine ⟨fun haccepted => ?_, fun _ => hstep, fun hordered => ?_⟩
      · rw [hresult] at haccepted
        cases haccepted
      · rwa [hstep]

theorem doSetParam_eq (mgr : Mgr) (argv : List Text) (low high : Int) (assign : Int → ChargerParam → ChargerParam)
    (usage : String) :
    doSetParam longBits mgr argv low high assign usage =
      if argv.length = argcMax ∧ low ≤ argument longBits argv ∧ argument longBits argv ≤ high then
        (storeParam mgr (assign (argument longBits argv) (getParam mgr)), none)
      else (mgr, some usage) := by
  unfold doSetParam
  by_cases hargc : argv.length = argcMax
  · simp only [hargc, ne_eq, not_true, if_false, true_and]
    by_cases hout : argument longBits argv < low ∨ argument longBits argv > high
    · rw [if_pos hout, if_neg (by omega)]
    · rw [if_neg hout, if_pos (by omega)]
  · simp only [hargc, ne_eq, not_false_iff, if_true, false_and, if_false]

/-- Reading before the check makes no difference. -/
theorem doSetOutputMaxCurrent_eq (mgr : Mgr) (argv : List Text) :
    doSetOutputMaxCurrent longBits mgr argv = doSetParam longBits mgr argv 6 50 assignOutputMaxCurrent "6 ~ 50" := rfl

theorem setsItsField_outputMaxCurrent_iff (argv : List Text) :
    SetsItsField longBits mgr ⟨.outputMaxCurrent, argv⟩ ↔ Undisturbed longBits mgr ⟨.outputMaxCurrent, argv⟩ := by
  have hresult := doSetParam_eq longBits mgr argv 6 50 assignOutputMaxCurrent "6 ~ 50"
  rw [← doSetOutputMaxCurrent_eq] at hresult
  rw [setsItsField_of_result longBits ⟨.outputMaxCurrent, argv⟩ hresult]
  constructor
  · exact fun hkept hargc hlow hhigh hordered => hkept ⟨hargc, hlow, hhigh⟩ hordered
  · rintro hundisturbed ⟨hargc, hlow, hhigh⟩ hordered
    exact hundisturbed hargc hlow hhigh hordered

theorem toNat_ofInt {cur : Int} (hlow : 6 ≤ cur) (hhigh : cur ≤ 50) : ((UInt32.ofInt cur).toNat : Int) = cur := by
  rw [UInt32.ofInt, UInt32.toNat_ofNat']
  omega

/-- The default maximum is between 31 and 32 A. -/
theorem above_default_iff {cur : Int} (hlow : 6 ≤ cur) (hhigh : cur ≤ 50) :
    UInt32.ofInt cur > chargerDefaultParam.maxOutputCurrentMa / 1000 ↔ 31 < cur := by
  have hlimit : (chargerDefaultParam.maxOutputCurrentMa / 1000).toNat = 31 := by decide
  have hcur := toNat_ofInt hlow hhigh
  rw [gt_iff_lt, UInt32.lt_iff_toNat_lt, hlimit]
  omega

theorem milliamperes_le_default {cur : Int} (hlow : 6 ≤ cur) (hhigh : cur ≤ 31) :
    milliamperes cur ≤ chargerDefaultParam.maxOutputCurrentMa := by
  have hlimit : chargerDefaultParam.maxOutputCurrentMa.toNat = 31818 := by decide
  have hthousand : (1000 : UInt32).toNat = 1000 := rfl
  have hcur := toNat_ofInt hlow (Int.le_trans hhigh (by decide))
  have hfits : (UInt32.ofInt cur).toNat * 1000 < 2 ^ 32 := by omega
  rw [UInt32.le_iff_toNat_le, hlimit, milliamperes, UInt32.toNat_mul, hthousand, Nat.mod_eq_of_lt hfits]
  omega

theorem doSetOutputMinCurrent_eq (mgr : Mgr) {argv : List Text} (hargc : argv.length = argcMax) :
    doSetOutputMinCurrent longBits mgr argv =
      if 6 ≤ argument longBits argv ∧ argument longBits argv ≤ 31 then
        (storeParam (storeParam mgr chargerDefaultParam)
          (assignOutputMinCurrent (argument longBits argv) chargerDefaultParam), none)
      else (storeParam mgr chargerDefaultParam, some "6 ~ 50, max. output current") := by
  unfold doSetOutputMinCurrent
  simp only [hargc, ne_eq, not_true, if_false]
  by_cases hin : 6 ≤ argument longBits argv ∧ argument longBits argv ≤ 50
  · have hlimit := above_default_iff hin.1 hin.2
    by_cases hdefault : argument longBits argv ≤ 31
    · rw [if_neg (by rw [hlimit]; omega), if_pos ⟨hin.1, hdefault⟩]
    · rw [if_pos (by rw [hlimit]; omega), if_neg fun h => hdefault h.2]
  · rw [if_pos (by omega), if_neg (by omega)]

/-- Both leave the default in the other fields. -/
theorem assignOutputMinCurrent_eq_iff {param : ChargerParam} (cur : Int) :
    assignOutputMinCurrent cur chargerDefaultParam = assignOutputMinCurrent cur param ↔
      { param with minOutputCurrentMa := defaultOutputCurrentMin } = chargerDefaultParam := by
  simp only [assignOutputMinCurrent, ChargerParam.ext_iff, chargerDefaultParam]
  tauto

theorem setsItsField_outputMinCurrent_iff (argv : List Text) :
    SetsItsField longBits mgr ⟨.outputMinCurrent, argv⟩ ↔ Undisturbed longBits mgr ⟨.outputMinCurrent, argv⟩ := by
  by_cases hargc : argv.length = argcMax
  · have hresult := doSetOutputMinCurrent_eq longBits mgr hargc
    by_cases hin : 6 ≤ argument longBits argv ∧ argument longBits argv ≤ 31
    · rw [if_pos hin] at hresult
      have hstep : step longBits mgr ⟨.outputMinCurrent, argv⟩ =
          storeParam (storeParam mgr chargerDefaultParam)
            (assignOutputMinCurrent (argument longBits argv) chargerDefaultParam) := congrArg Prod.fst hresult
      have hundisturbed : Undisturbed longBits mgr ⟨.outputMinCurrent, argv⟩ ↔
          { getParam mgr with minOutputCurrentMa := defaultOutputCurrentMin } = chargerDefaultParam := by
        constructor
        · intro h
          obtain hdefault | ⟨-, -, hothers⟩ := h hargc
          · rw [hdefault]
            rfl
          · exact hothers
        · exact fun h _ => .inr ⟨hin.1, hin.2, h⟩
      rw [hundisturbed, ← assignOutputMinCurrent_eq_iff (argument longBits argv)]
      constructor
      · intro hsets
        have hput := (hsets.accepted (by rw [Setter.run, hresult])).1
        have hparam := getParam_of_put hput
        rw [hstep, getParam_storeParam] at hparam
        exact hparam
      · intro hsame
        refine ⟨fun _ => ⟨?_, ?_⟩, fun hrefused => ?_, fun _ => ?_⟩
        · rw [hstep, storeParam_storeParam_basic, hsame]
          rfl
        · rw [hstep, storeParam_nvs, storeParam_nvs]
        · rw [Setter.run, hresult] at hrefused
          exact absurd rfl hrefused
        · rw [hstep, Ordered, getParam_storeParam]
          exact milliamperes_le_default hin.1 hin.2
    · rw [if_neg hin] at hresult
      have hstep : step longBits mgr ⟨.outputMinCurrent, argv⟩ = storeParam mgr chargerDefaultParam :=
        congrArg Prod.fst hresult
      have hundisturbed : Undisturbed longBits mgr ⟨.outputMinCurrent, argv⟩ ↔ getParam mgr = chargerDefaultParam := by
        constructor
        · exact fun h => (h hargc).resolve_right fun hsome => hin ⟨hsome.1, hsome.2.1⟩
        · exact fun h _ => .inl h
      rw [hundisturbed]
      constructor
      · intro hsets
        have hsame := hsets.rejected (by rw [Setter.run, hresult]; exact Option.some_ne_none _)
        rw [hstep] at hsame
        rw [← hsame, getParam_storeParam]
      · intro hdefault
        have hsame : step longBits mgr ⟨.outputMinCurrent, argv⟩ = mgr := by rw [hstep, storeParam_of_eq _ _ hdefault]
        refine ⟨fun haccepted => ?_, fun _ => hsame, fun hordered => by rwa [hsame]⟩
        rw [Setter.run, hresult] at haccepted
        cases haccepted
  · have hresult : doSetOutputMinCurrent longBits mgr argv = (mgr, some "6 ~ 50, max. output current") := if_pos hargc
    have hsame : step longBits mgr ⟨.outputMinCurrent, argv⟩ = mgr := congrArg Prod.fst hresult
    constructor
    · exact fun _ hyes => absurd hyes hargc
    · intro _
      refine ⟨fun haccepted => ?_, fun _ => hsame, fun hordered => by rwa [hsame]⟩
      rw [Setter.run, hresult] at haccepted
      cases haccepted

theorem setsItsField_iff (mgr : Mgr) (command : Command) :
    SetsItsField longBits mgr command ↔ Undisturbed longBits mgr command := by
  obtain ⟨setter, argv⟩ := command
  cases setter with
  | inputVoltage =>
      rw [setsItsField_of_result longBits ⟨.inputVoltage, argv⟩ (doSetParam_eq longBits mgr argv 100 300 _ _)]
      exact ⟨fun _ _ => trivial, fun _ _ hordered => hordered⟩
  | inputFrequency =>
      rw [setsItsField_of_result longBits ⟨.inputFrequency, argv⟩ (doSetParam_eq longBits mgr argv 50 60 _ _)]
      exact ⟨fun _ _ => trivial, fun _ _ hordered => hordered⟩
  | inputCurrent =>
      rw [setsItsField_of_result longBits ⟨.inputCurrent, argv⟩ (doSetParam_eq longBits mgr argv 6 50 _ _)]
      exact ⟨fun _ _ => trivial, fun _ _ hordered => hordered⟩
  | outputMaxCurrent => exact setsItsField_outputMaxCurrent_iff longBits argv
  | outputMinCurrent => exact setsItsField_outputMinCurrent_iff longBits argv

end Steps

/-! ### Runs -/

/-- In a run each command sets its own field only and keeps the currents in order exactly when each is undisturbed; the currents are in order then in every state of the run, if they were at first. -/
theorem commands_set_their_fields_iff (longBits : Nat) (mgr : Mgr) (commands : List Command) :
    (EveryStep (step longBits) (SetsItsField longBits) mgr commands ↔
        EveryStep (step longBits) (Undisturbed longBits) mgr commands) ∧
      (EveryStep (step longBits) (Undisturbed longBits) mgr commands → Ordered mgr →
        EveryState (step longBits) Ordered mgr commands) := by
  constructor
  · exact everyStep_congr (I := fun _ => True) (fun _ _ _ => trivial) (fun mgr command _ => setsItsField_iff longBits mgr command)
      trivial commands
  · intro hundisturbed hordered
    have hstep : ∀ mgr command, Ordered mgr → Undisturbed longBits mgr command → Ordered (step longBits mgr command) :=
      fun mgr command h hkeeps => ((setsItsField_iff longBits mgr command).2 hkeeps).ordered h
    exact everyState_of_conditional_invariant hstep (fun _ h => h) hordered hundisturbed

/-- `config set` with a parameter and a number. -/
def commandLine (option number : String) : List Text := [ascii "config", ascii "set", ascii option, ascii number]

/-- Parameters that are not the defaults, with a range for the output current. -/
def storedRange : Mgr := storeParam ⟨blankStore, .zero, false⟩ ⟨40000, 230, 50, 32000, 10000⟩

/-- The maximum is lowered to the minimum, and one too large is refused. -/
theorem commands_keep_order :
    EveryState (step 32) Ordered storedRange
      [⟨.inputVoltage, commandLine "chg.vol" "220"⟩, ⟨.outputMaxCurrent, commandLine "chg.max_out_curr" "10"⟩,
        ⟨.outputMaxCurrent, commandLine "chg.max_out_curr" "60"⟩] :=
  (commands_set_their_fields_iff 32 storedRange
    [⟨.inputVoltage, commandLine "chg.vol" "220"⟩, ⟨.outputMaxCurrent, commandLine "chg.max_out_curr" "10"⟩,
      ⟨.outputMaxCurrent, commandLine "chg.max_out_curr" "60"⟩]).2 (by decide +kernel) (by decide +kernel)

/-- A minimum that is set and one that is refused put the defaults in the other fields, and a maximum may be set below the minimum. -/
theorem commands_disturb_fields :
    ¬ SetsItsField 32 storedRange ⟨.outputMinCurrent, commandLine "chg.min_out_curr" "12"⟩ ∧
      ¬ SetsItsField 32 storedRange ⟨.outputMinCurrent, commandLine "chg.min_out_curr" "99"⟩ ∧
      ¬ SetsItsField 32 storedRange ⟨.outputMaxCurrent, commandLine "chg.max_out_curr" "6"⟩ ∧
      getParam (step 32 storedRange ⟨.outputMinCurrent, commandLine "chg.min_out_curr" "99"⟩) = chargerDefaultParam := by
  simp only [setsItsField_iff]
  exact ⟨by decide +kernel, by decide +kernel, by decide +kernel, by decide +kernel⟩

end Evse.Cli
