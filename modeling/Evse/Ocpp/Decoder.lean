import Evse.Lib.Fallible
import Evse.Ocpp.GetConfiguration

/-!
# The message decoder

`decoder_json_decode` reads a message of the central system. Each payload has a decoder of its own, which looks whether the items it needs are there, and then takes the ones that are to be strings for strings and copies them into fields of a fixed size.
-/

namespace Evse.Ocpp.Decoder

open CString Fallible

/-- What the decoder uses of cJSON, over the items of a parsed text. -/
structure CJson (J : Type) where
  /-- `cJSON_ParseWithLengthOpts`: the text's value and where it ends. -/
  parse : Text → Option (J × Nat)
  /-- `cJSON_GetObjectItem`. -/
  objectItem : Option J → String → Option J
  /-- `cJSON_GetArrayItem`. -/
  arrayItem : Option J → Nat → Option J
  /-- `cJSON_GetArraySize`. -/
  arraySize : Option J → Nat
  /-- The items `cJSON_ArrayForEach` goes through. -/
  children : J → List J
  isString : J → Bool
  /-- `cJSON_GetStringValue`. -/
  stringValue : Option J → Option Text
  stringValue_eq_some : ∀ item text, stringValue item = some text → ∃ j, item = some j ∧ isString j = true
  /-- `cJSON_GetNumberValue`, as the integer it is converted to. -/
  numberValue : Option J → Int

/-- A function of the libraries that reads a string: `none` if it reads through a null pointer. -/
structure Converter (α : Type) where
  convert : Option Text → Option α
  converts : ∀ text, (convert (some text)).isSome = true

/-- `ocpp_message_t`, as far as `decoders` tells it apart. -/
inductive MessageType
  | authorize
  | bootNotification
  | changeAvailability
  | changeConfiguration
  | clearCache
  | diagnosticsNotification
  | firmwareNotification
  | getConfiguration
  | heartbeat
  | meterValues
  | remoteStartTransaction
  | remoteStopTransaction
  | reset
  | startTransaction
  | statusNotification
  | stopTransaction
  | updateFirmware
  | other
  deriving DecidableEq, Repr

/-- The fields of a fixed size that strings are copied to. -/
inductive Field
  | idTag
  | parentIdTag
  | key
  | value
  | url
  deriving DecidableEq, Repr

inductive Errno
  | einval
  | enomsg
  | eproto
  | ebadmsg
  | enomem
  | enotsup
  deriving DecidableEq, Repr

/-- What the decoder uses of its libraries, and whether there is memory for the message. -/
structure Library (J : Type) where
  cjson : CJson J
  typeFromIdstr : Converter MessageType
  typeFromString : Converter MessageType
  authStatus : Converter Int
  bootStatus : Converter Int
  iso8601 : Converter Int
  /-- `sizeof` of the message's id. -/
  idSize : Nat
  /-- `sizeof` of a field. -/
  sizeOf : Field → Nat
  memory : Bool

/-- What a payload decoder leaves in the message. A field it does not write is 0 or empty, as `calloc` left it. -/
inductive Payload
  | none
  | authorizeConf (status : Int) (parentIdTag : Option Text) (expiryDate : Option Int)
  | bootNotificationConf (currentTime interval status : Int)
  | changeAvailability (connectorId : Int) (inoperative : Bool)
  | changeConfiguration (key value : Text)
  | getConfiguration (keys : Text) (room : Nat)
  | heartbeatConf (currentTime : Int)
  | remoteStartTransaction (idTag : Text) (connectorId : Option Int)
  | remoteStopTransaction (transactionId : Int)
  | reset (hard : Bool)
  | startTransactionConf (status transactionId : Int) (expiryDate : Option Int) (parentIdTag : Option Text)
  | updateFirmware (url : Text) (retrieveDate : Int) (retryInterval retries : Option Int)
  deriving DecidableEq, Repr

structure Message where
  role : Int
  type : MessageType
  id : Text
  payload : Payload
  deriving DecidableEq, Repr

variable {J : Type} (lib : Library J)

/-! ### The payload decoders -/

/-- `create_message`. -/
def createMessage : Result Errno Unit := require (lib.memory = true) .enomem

/-- `cJSON_GetStringValue` where the string is read. -/
def readString (item : Option J) : Result Errno Text := deref (lib.cjson.stringValue item)

/-- `cJSON_GetStringValue` where the string goes to a library function. -/
def convertString {α : Type} (converter : Converter α) (item : Option J) : Result Errno α :=
  deref (converter.convert (lib.cjson.stringValue item))

def doError (_json : Option J) : Result Errno Payload := .error (.errno .enotsup)

def doEmpty (_json : Option J) : Result Errno Payload := .ok .none

def doCurrentTime (json : Option J) : Result Errno Payload := do
  let datetime := lib.cjson.objectItem json "currentTime"
  require (datetime.isSome = true) .ebadmsg
  createMessage lib
  let currentTime ← convertString lib lib.iso8601 datetime
  pure (.heartbeatConf currentTime)

def doAuthorize (json : Option J) : Result Errno Payload := do
  let id := lib.cjson.objectItem json "idTagInfo"
  let status := lib.cjson.objectItem id "status"
  let expiry := lib.cjson.objectItem id "expiryDate"
  let pid := lib.cjson.objectItem id "parentIdTag"
  require (id.isSome = true ∧ status.isSome = true) .ebadmsg
  createMessage lib
  let status ← convertString lib lib.authStatus status
  let parentIdTag ← unlessNull pid fun pid => readString lib (some pid)
  let expiryDate ← unlessNull expiry fun expiry => convertString lib lib.iso8601 (some expiry)
  pure (.authorizeConf status parentIdTag expiryDate)

def doBootnotification (json : Option J) : Result Errno Payload := do
  let datetime := lib.cjson.objectItem json "currentTime"
  let interval := lib.cjson.objectItem json "interval"
  let status := lib.cjson.objectItem json "status"
  require (datetime.isSome = true ∧ interval.isSome = true ∧ status.isSome = true) .ebadmsg
  createMessage lib
  let currentTime ← convertString lib lib.iso8601 datetime
  let status ← convertString lib lib.bootStatus status
  pure (.bootNotificationConf currentTime (lib.cjson.numberValue interval) status)

def doChangeAvailability (json : Option J) : Result Errno Payload := do
  let connector := lib.cjson.objectItem json "connectorId"
  let type := lib.cjson.objectItem json "type"
  require (connector.isSome = true ∧ type.isSome = true) .ebadmsg
  let type ← readString lib type
  require (type = ascii "Inoperative" ∨ type = ascii "Operative") .ebadmsg
  createMessage lib
  pure (.changeAvailability (lib.cjson.numberValue connector) (type = ascii "Inoperative"))

def doChangeConfiguration (json : Option J) : Result Errno Payload := do
  let key := lib.cjson.objectItem json "key"
  let value := lib.cjson.objectItem json "value"
  require (key.isSome = true ∧ value.isSome = true) .ebadmsg
  createMessage lib
  let key ← readString lib key
  let value ← readString lib value
  pure (.changeConfiguration key value)

/-- The keys are read once for their length, before the message is created, and once to be copied. -/
def doGetConfiguration (json : Option J) : Result Errno Payload :=
  match lib.cjson.objectItem json "key" with
  | none => pure .none
  | some keys =>
      if lib.cjson.arraySize (some keys) = 0 then pure .none
      else do
        let keys ← ((lib.cjson.children keys).map fun key => lib.cjson.stringValue (some key)).mapM deref
        createMessage lib
        pure (.getConfiguration (Configuration.joinKeys keys) (Configuration.lenWithCommas keys + 1))

def doRemoteStart (json : Option J) : Result Errno Payload := do
  let cid := lib.cjson.objectItem json "connectorId"
  let uid := lib.cjson.objectItem json "idTag"
  require (uid.isSome = true) .ebadmsg
  createMessage lib
  let idTag ← readString lib uid
  pure (.remoteStartTransaction idTag (cid.map fun cid => lib.cjson.numberValue (some cid)))

def doRemoteStop (json : Option J) : Result Errno Payload := do
  let tid := lib.cjson.objectItem json "transactionId"
  require (tid.isSome = true) .ebadmsg
  createMessage lib
  pure (.remoteStopTransaction (lib.cjson.numberValue tid))

def doReset (json : Option J) : Result Errno Payload := do
  let type := lib.cjson.objectItem json "type"
  require (type.isSome = true) .ebadmsg
  createMessage lib
  let type ← readString lib type
  pure (.reset (type = ascii "Hard"))

def doStartTransaction (json : Option J) : Result Errno Payload := do
  let uid := lib.cjson.objectItem json "idTagInfo"
  let tid := lib.cjson.objectItem json "transactionId"
  let status := lib.cjson.objectItem uid "status"
  let expiry := lib.cjson.objectItem uid "expiryDate"
  let pid := lib.cjson.objectItem uid "parentIdTag"
  require (uid.isSome = true ∧ tid.isSome = true ∧ status.isSome = true) .ebadmsg
  createMessage lib
  let status ← convertString lib lib.authStatus status
  let expiryDate ← unlessNull expiry fun expiry => convertString lib lib.iso8601 (some expiry)
  let parentIdTag ← unlessNull pid fun pid => readString lib (some pid)
  pure (.startTransactionConf status (lib.cjson.numberValue tid) expiryDate parentIdTag)

def doUpdatefirmware (json : Option J) : Result Errno Payload := do
  let location := lib.cjson.objectItem json "location"
  let retries := lib.cjson.objectItem json "retries"
  let due := lib.cjson.objectItem json "retrieveDate"
  let interval := lib.cjson.objectItem json "retryInterval"
  require (location.isSome = true ∧ due.isSome = true) .ebadmsg
  createMessage lib
  let url ← readString lib location
  let retrieveDate ← convertString lib lib.iso8601 due
  pure (.updateFirmware url retrieveDate (interval.map fun item => lib.cjson.numberValue (some item))
    (retries.map fun item => lib.cjson.numberValue (some item)))

/-- `decoder`, with the table `decoders`. -/
def decoder : MessageType → Option J → Result Errno Payload
  | .authorize => doAuthorize lib
  | .bootNotification => doBootnotification lib
  | .changeAvailability => doChangeAvailability lib
  | .changeConfiguration => doChangeConfiguration lib
  | .getConfiguration => doGetConfiguration lib
  | .heartbeat => doCurrentTime lib
  | .remoteStartTransaction => doRemoteStart lib
  | .remoteStopTransaction => doRemoteStop lib
  | .reset => doReset lib
  | .startTransaction => doStartTransaction lib
  | .updateFirmware => doUpdatefirmware lib
  | .clearCache | .diagnosticsNotification | .firmwareNotification | .meterValues | .statusNotification
  | .stopTransaction => doEmpty
  | .other => doError

/-! ### The message -/

/-- `OCPP_MSG_ROLE_CALL`, the first of the three roles. -/
def roleCall : Int := 2

/-- `OCPP_MSG_ROLE_CALLERROR`, the last. -/
def roleCallError : Int := 4

def roleOf (json : Option J) : Int := lib.cjson.numberValue (lib.cjson.arrayItem json 0)

def payloadOf (json : Option J) : Option J := lib.cjson.arrayItem json (lib.cjson.arraySize json - 1)

/-- The role is one of the three, and a call has a payload. -/
def RoleFits (json : Option J) : Prop :=
  roleCall ≤ roleOf lib json ∧ roleOf lib json ≤ roleCallError ∧
    (roleOf lib json = roleCall → (payloadOf lib json).isSome = true)

instance (json : Option J) : Decidable (RoleFits lib json) := inferInstanceAs (Decidable (_ ∧ _))

/-- The type of a call is in the message; that of an answer is the one its id was sent with. -/
def messageType (json : Option J) (idType : MessageType) : Result Errno MessageType :=
  if roleOf lib json = roleCall then convertString lib lib.typeFromString (lib.cjson.arrayItem json 2)
  else pure idType

def decode (json : Option J) : Result Errno Message := do
  require (3 ≤ lib.cjson.arraySize json) .eproto
  let id := lib.cjson.arrayItem json 1
  let idType ← convertString lib lib.typeFromIdstr id
  require (RoleFits lib json) .ebadmsg
  let type ← messageType lib json idType
  let id ← readString lib id
  let payload ← decoder lib type (payloadOf lib json)
  -- `memcpy` of as many bytes as the message's id has at most, into an id that is all zeros.
  pure ⟨roleOf lib json, type, id.take lib.idSize, payload⟩

/-- The result, and how much of the text is consumed. -/
def decoderJsonDecode (jsonStr : Text) : Result Errno Message × Nat :=
  match lib.cjson.parse jsonStr with
  | none => (.error (.errno (if jsonStr.length = 0 then .enomsg else .einval)), jsonStr.length)
  | some (json, next) =>
      if jsonStr.length = 0 then (.error (.errno .enomsg), jsonStr.length) else (decode lib (some json), next)

end Evse.Ocpp.Decoder
