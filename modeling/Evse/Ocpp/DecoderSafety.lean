import Evse.Ocpp.Decoder
import Mathlib.Tactic.Tauto

/-!
# What the decoder takes for a string

The payload decoders look whether an item is there, not what it is: one that is no string has no text, and is read through a null pointer all the same. Nor do they look how long a text is before they copy it to its field. A message is decoded safely exactly if it is refused for another reason, or if it has strings where strings belong and they fit.
-/

namespace Evse.Ocpp.Decoder

open CString Fallible

variable {J : Type} (lib : Library J)

/-! ### What a decoded message is to hold -/

/-- The text is that of a JSON string, and fits in a field of this size with its terminator. -/
structure CopiedFrom (item : Option J) (text : Text) (size : Nat) : Prop where
  isString : ∃ j, item = some j ∧ lib.cjson.isString j = true
  stringValue : lib.cjson.stringValue item = some text
  fits : text.length < size

/-- The strings a payload has in fields of a fixed size. -/
def Payload.copies : Payload → List (Field × Text)
  | .authorizeConf _ parentIdTag _ => parentIdTag.toList.map (.parentIdTag, ·)
  | .startTransactionConf _ _ _ parentIdTag => parentIdTag.toList.map (.parentIdTag, ·)
  | .changeConfiguration key value => [(.key, key), (.value, value)]
  | .remoteStartTransaction idTag _ => [(.idTag, idTag)]
  | .updateFirmware url _ _ _ => [(.url, url)]
  | .none | .bootNotificationConf .. | .changeAvailability .. | .getConfiguration .. | .heartbeatConf _
  | .remoteStopTransaction _ | .reset _ => []

/-- The item of the payload that a field is for. -/
def sourceOf (json : Option J) : Field → Option J
  | .idTag => lib.cjson.objectItem json "idTag"
  | .parentIdTag => lib.cjson.objectItem (lib.cjson.objectItem json "idTagInfo") "parentIdTag"
  | .key => lib.cjson.objectItem json "key"
  | .value => lib.cjson.objectItem json "value"
  | .url => lib.cjson.objectItem json "location"

/-- The keys of a GetConfiguration are those of its array, all of them strings, in the room made for them. -/
structure KeysCopied (json : Option J) (keys : Text) (room : Nat) : Prop where
  copied : ∃ items texts, lib.cjson.objectItem json "key" = some items ∧
    (lib.cjson.children items).map (fun key => lib.cjson.stringValue (some key)) = texts.map some ∧
      (∀ key ∈ lib.cjson.children items, lib.cjson.isString key = true) ∧ keys = Configuration.joinKeys texts
  fits : keys.length < room

structure PayloadFaithful (json : Option J) (payload : Payload) : Prop where
  fields : ∀ copy ∈ payload.copies, CopiedFrom lib (sourceOf lib json copy.1) copy.2 (lib.sizeOf copy.1)
  keys : ∀ keys room, payload = .getConfiguration keys room → KeysCopied lib json keys room

structure Faithful (json : Option J) (message : Message) : Prop where
  id : CopiedFrom lib (lib.cjson.arrayItem json 1) message.id lib.idSize
  payload : PayloadFaithful lib (payloadOf lib json) message.payload

/-- Decoding a text returns an error, or a message all of whose strings are those of the text and fit; it reads through no null pointer. -/
def DecodesSafely (jsonStr : Text) : Prop :=
  Safely (decoderJsonDecode lib jsonStr).1 fun message =>
    ∃ json next, lib.cjson.parse jsonStr = some (json, next) ∧ Faithful lib (some json) message

/-! ### Which texts are decoded so -/

/-- The item is a string that fits the field. -/
def FitsField (field : Field) (item : Option J) : Prop :=
  ∃ text, lib.cjson.stringValue item = some text ∧ text.length < lib.sizeOf field

/-- The item is a string, or the function it goes to takes a null pointer. -/
def Takes {α : Type} (converter : Converter α) (item : Option J) : Prop :=
  (converter.convert (lib.cjson.stringValue item)).isSome = true

/-- The items without which a payload is refused. -/
def needed (json : Option J) : MessageType → List (Option J)
  | .authorize =>
      let id := lib.cjson.objectItem json "idTagInfo"
      [id, lib.cjson.objectItem id "status"]
  | .bootNotification => ["currentTime", "interval", "status"].map (lib.cjson.objectItem json)
  | .changeAvailability => ["connectorId", "type"].map (lib.cjson.objectItem json)
  | .changeConfiguration => ["key", "value"].map (lib.cjson.objectItem json)
  | .heartbeat => ["currentTime"].map (lib.cjson.objectItem json)
  | .remoteStartTransaction => ["idTag"].map (lib.cjson.objectItem json)
  | .remoteStopTransaction => ["transactionId"].map (lib.cjson.objectItem json)
  | .reset => ["type"].map (lib.cjson.objectItem json)
  | .startTransaction =>
      let uid := lib.cjson.objectItem json "idTagInfo"
      [uid, lib.cjson.objectItem json "transactionId", lib.cjson.objectItem uid "status"]
  | .updateFirmware => ["location", "retrieveDate"].map (lib.cjson.objectItem json)
  | .clearCache | .diagnosticsNotification | .firmwareNotification | .getConfiguration | .meterValues
  | .statusNotification | .stopTransaction | .other => []

/-- The payload is refused with an error. -/
def Refused (json : Option J) : MessageType → Prop
  | .changeAvailability =>
      none ∈ needed lib json .changeAvailability ∨
        ∃ type, lib.cjson.stringValue (lib.cjson.objectItem json "type") = some type ∧
          (lib.memory = false ∨ type ≠ ascii "Inoperative" ∧ type ≠ ascii "Operative")
  | .getConfiguration =>
      lib.memory = false ∧ ∃ keys, lib.cjson.objectItem json "key" = some keys ∧
        lib.cjson.arraySize (some keys) ≠ 0 ∧
          ∀ key ∈ lib.cjson.children keys, (lib.cjson.stringValue (some key)).isSome = true
  | .clearCache | .diagnosticsNotification | .firmwareNotification | .meterValues | .statusNotification
  | .stopTransaction => False
  | .other => True
  | type => none ∈ needed lib json type ∨ lib.memory = false

/-- The items of the payload that are to be strings are, and fit. -/
def StringsFit (json : Option J) : MessageType → Prop
  | .authorize | .startTransaction =>
      let id := lib.cjson.objectItem json "idTagInfo"
      Takes lib lib.authStatus (lib.cjson.objectItem id "status") ∧
        (lib.cjson.objectItem id "parentIdTag" ≠ none →
          FitsField lib .parentIdTag (lib.cjson.objectItem id "parentIdTag")) ∧
        (lib.cjson.objectItem id "expiryDate" ≠ none →
          Takes lib lib.iso8601 (lib.cjson.objectItem id "expiryDate"))
  | .bootNotification =>
      Takes lib lib.iso8601 (lib.cjson.objectItem json "currentTime") ∧
        Takes lib lib.bootStatus (lib.cjson.objectItem json "status")
  | .changeAvailability | .reset => (lib.cjson.stringValue (lib.cjson.objectItem json "type")).isSome = true
  | .changeConfiguration =>
      FitsField lib .key (lib.cjson.objectItem json "key") ∧
        FitsField lib .value (lib.cjson.objectItem json "value")
  | .getConfiguration =>
      ∀ keys, lib.cjson.objectItem json "key" = some keys → lib.cjson.arraySize (some keys) ≠ 0 →
        ∀ key ∈ lib.cjson.children keys, (lib.cjson.stringValue (some key)).isSome = true
  | .heartbeat => Takes lib lib.iso8601 (lib.cjson.objectItem json "currentTime")
  | .remoteStartTransaction => FitsField lib .idTag (lib.cjson.objectItem json "idTag")
  | .updateFirmware =>
      FitsField lib .url (lib.cjson.objectItem json "location") ∧
        Takes lib lib.iso8601 (lib.cjson.objectItem json "retrieveDate")
  | .clearCache | .diagnosticsNotification | .firmwareNotification | .meterValues | .remoteStopTransaction
  | .statusNotification | .stopTransaction | .other => True

/-- `type` of `decode`, unless a library function reads through a null pointer. -/
def typeOf (json : Option J) : Option MessageType :=
  if roleOf lib json = roleCall then lib.typeFromString.convert (lib.cjson.stringValue (lib.cjson.arrayItem json 2))
  else lib.typeFromIdstr.convert (lib.cjson.stringValue (lib.cjson.arrayItem json 1))

/-- The message is short or has no proper role, or its id is a string and its payload is refused or has the strings it is to have, with an id that fits. -/
def WellFormed (json : Option J) : Prop :=
  lib.cjson.arraySize json < 3 ∨
    Takes lib lib.typeFromIdstr (lib.cjson.arrayItem json 1) ∧
      (¬ RoleFits lib json ∨
        ∃ type id, typeOf lib json = some type ∧ lib.cjson.stringValue (lib.cjson.arrayItem json 1) = some id ∧
          (Refused lib (payloadOf lib json) type ∨
            id.length < lib.idSize ∧ StringsFit lib (payloadOf lib json) type))

/-! ### Copies -/

variable {lib} {json item : Option J} {text : Text} {size : Nat} {field : Field} {short P : Prop}

theorem copiedFrom_iff :
    CopiedFrom lib item text size ↔ lib.cjson.stringValue item = some text ∧ text.length < size := by
  constructor
  · intro h
    exact ⟨h.stringValue, h.fits⟩
  · rintro ⟨htext, hfits⟩
    exact ⟨lib.cjson.stringValue_eq_some item text htext, htext, hfits⟩

/-- A string read is one copied, if it goes to a field. -/
theorem safely_copy : Safely (readString lib item) (fun text => P ∧ CopiedFrom lib item text (lib.sizeOf field)) ↔
    P ∧ FitsField lib field item := by
  simp only [readString, safely_deref, copiedFrom_iff, FitsField]
  constructor
  · rintro ⟨text, htext, hp, -, hfits⟩
    exact ⟨hp, text, htext, hfits⟩
  · rintro ⟨hp, text, htext, hfits⟩
    exact ⟨text, htext, hp, htext, hfits⟩

theorem safely_copy_unlessNull :
    Safely (unlessNull item fun present => readString lib (some present))
        (fun copy => P ∧ ∀ text ∈ copy, CopiedFrom lib item text (lib.sizeOf field)) ↔
      P ∧ (item ≠ none → FitsField lib field item) := by
  cases item with
  | none => simp [unlessNull, Safely]
  | some present =>
    simp only [safely_unlessNull, reduceCtorEq, false_implies, true_and, Option.some.injEq, forall_eq',
      Option.mem_def, safely_copy, ne_eq, not_false_eq_true, true_implies]

theorem safely_convert {α : Type} {converter : Converter α} :
    Safely (convertString lib converter item) (fun _ => P) ↔ Takes lib converter item ∧ P := by
  rw [convertString, safely_deref, Takes, Option.isSome_iff_exists, exists_and_right]

theorem safely_convert_unlessNull {α : Type} {converter : Converter α} :
    Safely (unlessNull item fun present => convertString lib converter (some present)) (fun _ => P) ↔
      (item ≠ none → Takes lib converter item) ∧ P := by
  cases item with
  | none => simp [unlessNull, Safely]
  | some present => simp [safely_unlessNull, safely_convert]

/-- Only the copies of fields matter unless the payload is a GetConfiguration. -/
theorem payloadFaithful_iff {payload : Payload} (h : ∀ keys room, payload ≠ .getConfiguration keys room) :
    PayloadFaithful lib json payload ↔
      ∀ copy ∈ payload.copies, CopiedFrom lib (sourceOf lib json copy.1) copy.2 (lib.sizeOf copy.1) := by
  constructor
  · exact PayloadFaithful.fields
  · intro hcopies
    exact ⟨hcopies, fun keys room heq => absurd heq (h keys room)⟩

theorem payloadFaithful_of_no_copies {payload : Payload} (hcopies : payload.copies = [])
    (h : ∀ keys room, payload ≠ .getConfiguration keys room) : PayloadFaithful lib json payload := by
  rw [payloadFaithful_iff h, hcopies]
  exact fun _ hcopy => absurd hcopy List.not_mem_nil

/-! ### The payload decoders -/

/-- The beginning most payload decoders have: an error if an item is missing or there is no memory. -/
theorem safely_guarded {missing fit cond : Prop} [Decidable cond] {rest : Result Errno Payload}
    {post : Payload → Prop} (hmissing : ¬ cond ↔ missing) (hrest : Safely rest post ↔ fit) :
    Safely (do
        require cond Errno.ebadmsg
        createMessage lib
        rest) post ↔ (missing ∨ lib.memory = false) ∨ fit := by
  simp only [safely_bind, safely_require, createMessage, hrest, ← hmissing, ← Bool.not_eq_true]
  tauto

theorem missing_one {a : Option J} : ¬ a.isSome = true ↔ none ∈ [a] := by
  rw [Option.not_isSome_iff_eq_none, List.mem_singleton, eq_comm]

theorem missing_cons {a : Option J} {rest : Prop} {items : List (Option J)} (h : ¬ rest ↔ none ∈ items) :
    ¬ (a.isSome = true ∧ rest) ↔ none ∈ a :: items := by
  rw [not_and_or, h, Option.not_isSome_iff_eq_none, List.mem_cons, eq_comm]

/-- Of a payload of this type nothing is read through a null pointer, and it holds what it should with an id that is `short`, exactly if it is refused or its strings fit. -/
def DecoderSpec (lib : Library J) (json : Option J) (short : Prop) (type : MessageType) : Prop :=
  Safely (decoder lib type json) (fun payload => short ∧ PayloadFaithful lib json payload) ↔
    Refused lib json type ∨ short ∧ StringsFit lib json type

theorem doCurrentTime_spec : DecoderSpec lib json short .heartbeat := by
  refine safely_guarded missing_one ?_
  have hfaithful (currentTime : Int) : PayloadFaithful lib json (.heartbeatConf currentTime) :=
    payloadFaithful_of_no_copies rfl (by simp)
  simp only [safely_bind, safely_pure, hfaithful, safely_convert, StringsFit]
  tauto

theorem doAuthorize_spec : DecoderSpec lib json short .authorize := by
  refine safely_guarded (missing_cons missing_one) ?_
  have hfaithful (status : Int) (parentIdTag : Option Text) (expiryDate : Option Int) :
      PayloadFaithful lib json (.authorizeConf status parentIdTag expiryDate) ↔
        ∀ text ∈ parentIdTag, CopiedFrom lib (sourceOf lib json .parentIdTag) text (lib.sizeOf .parentIdTag) := by
    simp [payloadFaithful_iff, Payload.copies]
  simp only [safely_bind, safely_pure, hfaithful, sourceOf, safely_convert_unlessNull, ← and_assoc,
    safely_copy_unlessNull, safely_convert, StringsFit]
  tauto

theorem doBootnotification_spec : DecoderSpec lib json short .bootNotification := by
  refine safely_guarded (missing_cons (missing_cons missing_one)) ?_
  have hfaithful (currentTime interval status : Int) :
      PayloadFaithful lib json (.bootNotificationConf currentTime interval status) :=
    payloadFaithful_of_no_copies rfl (by simp)
  simp only [safely_bind, safely_pure, hfaithful, safely_convert, StringsFit]
  tauto

theorem doChangeConfiguration_spec : DecoderSpec lib json short .changeConfiguration := by
  refine safely_guarded (missing_cons missing_one) ?_
  have hfaithful (key value : Text) : PayloadFaithful lib json (.changeConfiguration key value) ↔
      CopiedFrom lib (sourceOf lib json .key) key (lib.sizeOf .key) ∧
        CopiedFrom lib (sourceOf lib json .value) value (lib.sizeOf .value) := by
    simp [payloadFaithful_iff, Payload.copies]
  have hswap (key : Text) (fits : Prop) :
      (short ∧ CopiedFrom lib (lib.cjson.objectItem json "key") key (lib.sizeOf .key)) ∧ fits ↔
        (short ∧ fits) ∧ CopiedFrom lib (lib.cjson.objectItem json "key") key (lib.sizeOf .key) := and_right_comm
  simp only [safely_bind, safely_pure, hfaithful, sourceOf, ← and_assoc, safely_copy, StringsFit]
  simp only [hswap, safely_copy]
  tauto

theorem doRemoteStart_spec : DecoderSpec lib json short .remoteStartTransaction := by
  refine safely_guarded missing_one ?_
  have hfaithful (idTag : Text) (connectorId : Option Int) :
      PayloadFaithful lib json (.remoteStartTransaction idTag connectorId) ↔
        CopiedFrom lib (sourceOf lib json .idTag) idTag (lib.sizeOf .idTag) := by
    simp [payloadFaithful_iff, Payload.copies]
  simp only [safely_bind, safely_pure, hfaithful, sourceOf, safely_copy, StringsFit]

theorem doRemoteStop_spec : DecoderSpec lib json short .remoteStopTransaction := by
  refine safely_guarded missing_one ?_
  have hfaithful (transactionId : Int) : PayloadFaithful lib json (.remoteStopTransaction transactionId) :=
    payloadFaithful_of_no_copies rfl (by simp)
  simp only [safely_pure, hfaithful, StringsFit]

theorem doStartTransaction_spec : DecoderSpec lib json short .startTransaction := by
  refine safely_guarded (missing_cons (missing_cons missing_one)) ?_
  have hfaithful (status transactionId : Int) (expiryDate : Option Int) (parentIdTag : Option Text) :
      PayloadFaithful lib json (.startTransactionConf status transactionId expiryDate parentIdTag) ↔
        ∀ text ∈ parentIdTag, CopiedFrom lib (sourceOf lib json .parentIdTag) text (lib.sizeOf .parentIdTag) := by
    simp [payloadFaithful_iff, Payload.copies]
  simp only [safely_bind, safely_pure, hfaithful, sourceOf, safely_copy_unlessNull, safely_convert_unlessNull,
    safely_convert, StringsFit]
  tauto

theorem doUpdatefirmware_spec : DecoderSpec lib json short .updateFirmware := by
  refine safely_guarded (missing_cons missing_one) ?_
  have hfaithful (url : Text) (retrieveDate : Int) (retryInterval retries : Option Int) :
      PayloadFaithful lib json (.updateFirmware url retrieveDate retryInterval retries) ↔
        CopiedFrom lib (sourceOf lib json .url) url (lib.sizeOf .url) := by
    simp [payloadFaithful_iff, Payload.copies]
  simp only [safely_bind, safely_pure, hfaithful, sourceOf, safely_convert, ← and_assoc, safely_copy, StringsFit]
  tauto

theorem doReset_spec : DecoderSpec lib json short .reset := by
  refine safely_guarded missing_one ?_
  have hfaithful (hard : Bool) : PayloadFaithful lib json (.reset hard) :=
    payloadFaithful_of_no_copies rfl (by simp)
  simp only [safely_bind, safely_pure, readString, safely_deref, hfaithful, and_true, exists_and_right,
    ← Option.isSome_iff_exists, StringsFit]
  tauto

/-- The type is read before there is a message, so without memory too. -/
theorem doChangeAvailability_spec : DecoderSpec lib json short .changeAvailability := by
  have hfaithful (connectorId : Int) (inoperative : Bool) :
      PayloadFaithful lib json (.changeAvailability connectorId inoperative) :=
    payloadFaithful_of_no_copies rfl (by simp)
  have hmissing : none ∈ needed lib json .changeAvailability ↔
      ¬ ((lib.cjson.objectItem json "connectorId").isSome = true ∧
        (lib.cjson.objectItem json "type").isSome = true) := (missing_cons missing_one).symm
  simp only [DecoderSpec, decoder, doChangeAvailability, safely_bind, safely_require, readString, safely_deref,
    createMessage, safely_pure, hfaithful, and_true, Refused, hmissing, StringsFit]
  cases hread : lib.cjson.stringValue (lib.cjson.objectItem json "type") with
  | none => simp
  | some type =>
    simp only [Option.some.injEq, exists_eq_left', Option.isSome_some, ← Bool.not_eq_true, ← not_or, and_true]
    generalize (type = ascii "Inoperative" ∨ type = ascii "Operative") = known
    tauto

/-- An array all of whose items are strings is the array of their texts. -/
theorem exists_texts_iff {items : List J} :
    (∃ texts : List Text, items.map (fun key => lib.cjson.stringValue (some key)) = texts.map some) ↔
      ∀ key ∈ items, (lib.cjson.stringValue (some key)).isSome = true := by
  constructor
  · rintro ⟨texts, htexts⟩ key hkey
    have hmem : lib.cjson.stringValue (some key) ∈ texts.map some := by
      rw [← htexts]
      exact List.mem_map_of_mem hkey
    obtain ⟨text, -, htext⟩ := List.mem_map.1 hmem
    rw [← htext, Option.isSome_some]
  · intro h
    induction items with
    | nil => exact ⟨[], rfl⟩
    | cons key items ih =>
      obtain ⟨text, htext⟩ := Option.isSome_iff_exists.1 (h key List.mem_cons_self)
      obtain ⟨texts, htexts⟩ := ih fun k hk => h k (List.mem_cons_of_mem _ hk)
      exact ⟨text :: texts, by rw [List.map_cons, htext, htexts, List.map_cons]⟩

theorem payloadFaithful_keys {keys : J} {texts : List Text} (hkeys : lib.cjson.objectItem json "key" = some keys)
    (htexts : (lib.cjson.children keys).map (fun key => lib.cjson.stringValue (some key)) = texts.map some) :
    PayloadFaithful lib json
      (.getConfiguration (Configuration.joinKeys texts) (Configuration.lenWithCommas texts + 1)) where
  fields _ hcopy := absurd hcopy List.not_mem_nil
  keys _ _ heq := by
    cases heq
    refine ⟨⟨keys, texts, hkeys, htexts, fun key hkey => ?_, rfl⟩, ?_⟩
    · obtain ⟨text, htext⟩ := Option.isSome_iff_exists.1 (exists_texts_iff.1 ⟨texts, htexts⟩ key hkey)
      obtain ⟨j, hj, hstring⟩ := lib.cjson.stringValue_eq_some _ _ htext
      rwa [Option.some.inj hj]
    · exact Nat.lt_succ_of_le (Configuration.length_joinKeys_le texts)

theorem safely_doGetConfiguration_some {keys : J} {post : Payload → Prop}
    (hkeys : lib.cjson.objectItem json "key" = some keys) (hsize : lib.cjson.arraySize (some keys) ≠ 0) :
    Safely (doGetConfiguration lib json) post ↔
      ∃ texts, (lib.cjson.children keys).map (fun key => lib.cjson.stringValue (some key)) = texts.map some ∧
        (lib.memory = true →
          post (.getConfiguration (Configuration.joinKeys texts) (Configuration.lenWithCommas texts + 1))) := by
  have hdo : doGetConfiguration lib json = (do
      let keys ← ((lib.cjson.children keys).map fun key => lib.cjson.stringValue (some key)).mapM deref
      createMessage lib
      pure (.getConfiguration (Configuration.joinKeys keys) (Configuration.lenWithCommas keys + 1))) := by
    simp only [doGetConfiguration, hkeys, if_neg hsize]
  simp only [hdo, safely_bind, safely_mapM_deref, createMessage, safely_require, safely_pure]

/-- Every key is read for its length before there is a message. -/
theorem doGetConfiguration_spec : DecoderSpec lib json short .getConfiguration := by
  have hnone : PayloadFaithful lib json .none := payloadFaithful_of_no_copies rfl (by simp)
  simp only [DecoderSpec, decoder, Refused, StringsFit]
  cases hkeys : lib.cjson.objectItem json "key" with
  | none => simp [doGetConfiguration, hkeys, hnone]
  | some keys =>
    by_cases hsize : lib.cjson.arraySize (some keys) = 0
    · simp [doGetConfiguration, hkeys, hsize, hnone]
    · simp only [safely_doGetConfiguration_some hkeys hsize, Option.some.injEq, exists_eq_left', forall_eq', hsize,
        not_false_eq_true, ne_eq, true_and, true_implies, ← exists_texts_iff, ← Bool.not_eq_true]
      constructor
      · rintro ⟨texts, htexts, hpost⟩
        by_cases hmemory : lib.memory = true
        · exact .inr ⟨(hpost hmemory).1, texts, htexts⟩
        · exact .inl ⟨hmemory, texts, htexts⟩
      · rintro (⟨hmemory, texts, htexts⟩ | ⟨hshort, texts, htexts⟩)
        · exact ⟨texts, htexts, fun h => absurd h hmemory⟩
        · exact ⟨texts, htexts, fun _ => ⟨hshort, payloadFaithful_keys hkeys htexts⟩⟩

theorem decoder_spec (lib : Library J) (json : Option J) (short : Prop) (type : MessageType) :
    DecoderSpec lib json short type := by
  have hempty : PayloadFaithful lib json .none := payloadFaithful_of_no_copies rfl (by simp)
  cases type with
  | authorize => exact doAuthorize_spec
  | bootNotification => exact doBootnotification_spec
  | changeAvailability => exact doChangeAvailability_spec
  | changeConfiguration => exact doChangeConfiguration_spec
  | getConfiguration => exact doGetConfiguration_spec
  | heartbeat => exact doCurrentTime_spec
  | remoteStartTransaction => exact doRemoteStart_spec
  | remoteStopTransaction => exact doRemoteStop_spec
  | reset => exact doReset_spec
  | startTransaction => exact doStartTransaction_spec
  | updateFirmware => exact doUpdatefirmware_spec
  | other => exact iff_of_true trivial (.inl trivial)
  | clearCache | diagnosticsNotification | firmwareNotification | meterValues | statusNotification
    | stopTransaction => simp [DecoderSpec, decoder, doEmpty, Safely, Refused, StringsFit, hempty]

/-! ### The message -/

/-- The id that is copied is the whole id if it fits. -/
theorem faithful_iff {type : MessageType} {id : Text} {payload : Payload}
    (hid : lib.cjson.stringValue (lib.cjson.arrayItem json 1) = some id) :
    Faithful lib json ⟨roleOf lib json, type, id.take lib.idSize, payload⟩ ↔
      id.length < lib.idSize ∧ PayloadFaithful lib (payloadOf lib json) payload := by
  constructor
  · rintro ⟨hcopied, hpayload⟩
    obtain ⟨htext, hfits⟩ := copiedFrom_iff.1 hcopied
    have hwhole : id = id.take lib.idSize := Option.some.inj (hid.symm.trans htext)
    refine ⟨?_, hpayload⟩
    rw [hwhole]
    exact hfits
  · rintro ⟨hfits, hpayload⟩
    refine ⟨copiedFrom_iff.2 ?_, hpayload⟩
    rw [List.take_of_length_le hfits.le]
    exact ⟨hid, hfits⟩

theorem safely_messageType {idType : MessageType} {post : MessageType → Prop}
    (hid : lib.typeFromIdstr.convert (lib.cjson.stringValue (lib.cjson.arrayItem json 1)) = some idType) :
    Safely (messageType lib json idType) post ↔ ∃ type, typeOf lib json = some type ∧ post type := by
  by_cases hcall : roleOf lib json = roleCall
  · rw [messageType, typeOf, if_pos hcall, if_pos hcall, convertString, safely_deref]
  · rw [messageType, typeOf, if_neg hcall, if_neg hcall, hid, safely_pure]
    simp only [Option.some.injEq, exists_eq_left']

theorem decode_spec (lib : Library J) (json : Option J) :
    Safely (decode lib json) (Faithful lib json) ↔ WellFormed lib json := by
  have hpayload {type : MessageType} {id : Text}
      (hid : lib.cjson.stringValue (lib.cjson.arrayItem json 1) = some id) :
      Safely (decoder lib type (payloadOf lib json))
          (fun payload => Faithful lib json ⟨roleOf lib json, type, id.take lib.idSize, payload⟩) ↔
        Refused lib (payloadOf lib json) type ∨
          id.length < lib.idSize ∧ StringsFit lib (payloadOf lib json) type := by
    simp only [faithful_iff hid]
    exact decoder_spec lib (payloadOf lib json) (id.length < lib.idSize) type
  simp only [decode, safely_bind, safely_require, safely_pure, readString, safely_deref]
  rw [WellFormed, ← Nat.not_le, ← imp_iff_not_or]
  refine imp_congr_right fun _ => ?_
  constructor
  · intro h
    obtain ⟨idType, hidType, hrest⟩ := safely_deref.1 h
    refine ⟨Option.isSome_iff_exists.2 ⟨idType, hidType⟩, ?_⟩
    rw [← imp_iff_not_or]
    intro hrole
    obtain ⟨type, htype, id, hid, hdecoded⟩ := (safely_messageType hidType).1 (hrest hrole)
    exact ⟨type, id, htype, hid, (hpayload hid).1 hdecoded⟩
  · rintro ⟨htakes, hrest⟩
    obtain ⟨idType, hidType⟩ := Option.isSome_iff_exists.1 htakes
    refine safely_deref.2 ⟨idType, hidType, fun hrole => (safely_messageType hidType).2 ?_⟩
    obtain ⟨type, id, htype, hid, hdecoded⟩ := hrest.resolve_left fun hnot => hnot hrole
    exact ⟨type, htype, id, hid, (hpayload hid).2 hdecoded⟩

/-- Every text is decoded safely exactly if it is empty, not JSON, or a message that is well formed. -/
theorem decodes_safely_iff (lib : Library J) (jsonStr : Text) :
    DecodesSafely lib jsonStr ↔
      (jsonStr ≠ [] → ∀ json next, lib.cjson.parse jsonStr = some (json, next) → WellFormed lib (some json)) := by
  simp only [DecodesSafely, decoderJsonDecode]
  cases hparse : lib.cjson.parse jsonStr with
  | none => simp [Safely]
  | some parsed =>
    obtain ⟨json, next⟩ := parsed
    by_cases hempty : jsonStr = []
    · simp [hempty, Safely]
    · have hlength : jsonStr.length ≠ 0 := fun h => hempty (List.length_eq_zero_iff.1 h)
      have hspec := decode_spec lib (some json)
      simp [hlength, hempty, hspec]

/-! ### An idTag that is no string -/

/-- Values of JSON, as far as the message below has them. -/
inductive Json
  | number (n : Int)
  | string (text : Text)
  | array (items : List Json)
  | object (members : List (String × Json))

def Json.items : Option Json → List Json
  | some (.array items) => items
  | some (.object members) => members.map Prod.snd
  | _ => []

/-- `[2,"7","RemoteStartTransaction",{"idTag":12}]`. -/
def numberedStart : Json :=
  .array [.number 2, .string (ascii "7"), .string (ascii "RemoteStartTransaction"), .object [("idTag", .number 12)]]

def numberedStartText : Text := ascii "[2,\"7\",\"RemoteStartTransaction\",\x7b\"idTag\":12\x7d]"

/-- A parser of that one text. -/
def numberedStartCJson : CJson Json where
  parse text := if text = numberedStartText then some (numberedStart, text.length) else none
  objectItem
    | some (.object members), name => members.lookup name
    | _, _ => none
  arrayItem json i := (Json.items json)[i]?
  arraySize json := (Json.items json).length
  children json := Json.items (some json)
  isString
    | .string _ => true
    | _ => false
  stringValue
    | some (.string text) => some text
    | _ => none
  stringValue_eq_some
    | some (.string text), _, _ => ⟨.string text, rfl, rfl⟩
    | none, _, h | some (.number _), _, h | some (.array _), _, h | some (.object _), _, h => nomatch h
  numberValue
    | some (.number n) => n
    | _ => 0

def numberedStartLibrary : Library Json where
  cjson := numberedStartCJson
  typeFromIdstr := ⟨fun text => text.map fun _ => .other, fun _ => rfl⟩
  typeFromString :=
    ⟨fun text => text.map fun text => if text = ascii "RemoteStartTransaction" then .remoteStartTransaction else .other,
      fun _ => rfl⟩
  authStatus := ⟨fun text => text.map fun _ => 0, fun _ => rfl⟩
  bootStatus := ⟨fun text => text.map fun _ => 0, fun _ => rfl⟩
  iso8601 := ⟨fun text => text.map fun _ => 0, fun _ => rfl⟩
  idSize := 37
  sizeOf _ := 21
  memory := true

/-- A number where the idTag belongs is read through a null pointer. -/
theorem numbered_idTag_dereferenced :
    (decoderJsonDecode numberedStartLibrary numberedStartText).1 = .error .nullDereference ∧
      ¬ DecodesSafely numberedStartLibrary numberedStartText := by
  have hnull : (decoderJsonDecode numberedStartLibrary numberedStartText).1 = .error .nullDereference := by rfl
  refine ⟨hnull, fun h => ?_⟩
  rw [DecodesSafely, hnull] at h
  exact h

end Evse.Ocpp.Decoder
