import Evse.Connector
import Evse.Lib.Run
import Evse.Lib.RowTable

/-!
# The data of an OCPP connector

The session, the messages and the tables of `ocpp_connector_internal.h`, `ocpp_connector.h`, `uid.h` and `adapter.c`, and what one call reads from outside: the readings every connector has, the OCPP configuration, the meter and the connection to the CSMS.
-/

namespace Evse.Ocpp

/-- An id as its 21-byte field holds it: a NUL-terminated string, the rest of the field zero. -/
structure IdToken where
  bytes : List UInt8
  fits : bytes.length ≤ 20
  noNul : 0 ∉ bytes
  deriving DecidableEq

/-- The all-zero field. -/
def IdToken.empty : IdToken := ⟨[], by decide, by decide⟩

/-- `ocpp_connector_state_t`. -/
inductive OcppState where
  | booting | faulted | available | preparing | charging | suspendedEV | suspendedEVSE | finishing
  | reserved | unavailable
  deriving DecidableEq, Repr

/-- `ocpp_connector_map_state_to_common`; the table has no entry for Booting, which reads as 0. -/
def mapStateToCommon : OcppState → ConnectorState
  | .booting => .e
  | .faulted => .f
  | .available => .a
  | .preparing => .b
  | .charging => .c
  | .suspendedEV => .b
  | .suspendedEVSE => .f
  | .finishing => .b
  | .reserved => .f
  | .unavailable => .f

/-- `uid_status_t`. -/
inductive UidStatus where
  | unknown | accepted | blocked | expired | invalid | noEntry
  deriving DecidableEq, Repr

/-- `ocpp_auth_status_t`, the status of an `idTagInfo`. -/
inductive AuthStatus where
  | unknown | accepted | blocked | expired | invalid | concurrentTx
  deriving DecidableEq, Repr

/-- The cast to `uid_status_t`. -/
def AuthStatus.toUidStatus : AuthStatus → UidStatus
  | .unknown => .unknown
  | .accepted => .accepted
  | .blocked => .blocked
  | .expired => .expired
  | .invalid => .invalid
  | .concurrentTx => .noEntry

structure IdTagInfo where
  status : AuthStatus
  expiryDate : Int := 0
  parentIdTag : IdToken := .empty
  deriving DecidableEq

/-- `ocpp_session_result_t`. -/
inductive SessionResult where
  | ok | rejected | notAllowed | alreadyOccupied | notMatched | notSupported | timeout | pending | error
  deriving DecidableEq, Repr

/-- The table of `do_auth`. -/
def AuthStatus.toSessionResult : AuthStatus → SessionResult
  | .unknown => .error
  | .accepted => .ok
  | .blocked => .rejected
  | .expired => .notAllowed
  | .invalid => .error
  | .concurrentTx => .notSupported

/-! ### The uid stores -/

structure UidEntry where
  pid : IdToken
  status : UidStatus
  expiry : Int
  deriving DecidableEq

/-- A store as its callers see it: what it has on each id. `Uid.connector_store` says when the cache slots and files of `uid.c` answer as such a map. -/
abbrev UidStore := IdToken → Option UidEntry

def uidStatus (store : UidStore) (id : IdToken) : UidStatus :=
  match store id with
  | none => .noEntry
  | some entry => entry.status

/-- The parent id `uid_status` writes over a zeroed buffer. -/
def uidParent (store : UidStore) (id : IdToken) : IdToken :=
  match store id with
  | none => .empty
  | some entry => entry.pid

def uidUpdate (store : UidStore) (id pid : IdToken) (status : UidStatus) (expiry : Int) : UidStore :=
  fun other => if other = id then some ⟨pid, status, expiry⟩ else store other

/-! ### The session -/

/-- `ocpp_reading_context_t`, as far as it is set. -/
inductive ReadingContext where
  | unset | samplePeriodic | sampleClock
  deriving DecidableEq, Repr

structure SessionMetering where
  timeSamplePeriodic : Int := 0
  timeClockPeriodic : Int := 0
  startWh : Nat := 0
  stopWh : Nat := 0
  wh : Nat := 0
  millivolt : Int := 0
  milliamp : Int := 0
  pfCenti : Int := 0
  centiHertz : Int := 0
  watt : Int := 0
  context : ReadingContext := .unset
  deriving DecidableEq

/-- `struct auth`. -/
structure Auth where
  uid : IdToken := .empty
  pid : IdToken := .empty
  deriving DecidableEq

/-- `struct charging_session`; the defaults are what `memset` leaves. -/
structure Session where
  transactionId : Int := 0
  reservationId : Nat := 0
  metering : SessionMetering := {}
  current : Auth := {}
  trial : Auth := {}
  authTimestamp : Int := 0
  expiry : Int := 0
  remoteStop : Bool := false
  deriving DecidableEq

/-- `struct ocpp_connector_checkpoint`, kept over a power loss. -/
structure Checkpoint where
  transactionId : Int := 0
  unavailable : Bool := false
  deriving DecidableEq

/-! ### Messages -/

/-- `ocpp_stop_reason_t`, as far as it is sent. -/
inductive StopReason where
  | emergencyStop | evDisconnected | hardReset | localStop | other | powerLoss | remote | softReset
  deriving DecidableEq, Repr

/-- `ocpp_error_t`, as far as it is sent. -/
inductive OcppError where
  | none | evCommunication | other
  deriving DecidableEq, Repr

def mapErrorToOcpp : ConnectorError → OcppError
  | .none => .none
  | .evSide => .evCommunication
  | _ => .other

/-- The requests a connector sends, with the fields `adapter.c` fills in. -/
inductive Payload where
  | authorize (idTag : IdToken)
  | startTransaction (connectorId : Nat) (idTag : IdToken) (meterStart : Nat) (timestamp : Int)
      (reservationId : Nat)
  | stopTransaction (idTag : IdToken) (meterStop : Nat) (timestamp : Int) (transactionId : Int)
      (reason : StopReason)
  | statusNotification (connectorId : Nat) (status : OcppState) (errorCode : OcppError) (timestamp : Int)
      (info : Option String)
  | meterValues (connectorId : Nat) (transactionId : Int) (timestamp : Int) (measurands : Nat)
      (values : SessionMetering)
  deriving DecidableEq

/-- A request that has neither been answered nor dropped. `sentIn` counts the times the session had been cleared when it was sent. -/
structure Request where
  id : Nat
  payload : Payload
  sentIn : Nat
  deriving DecidableEq

/-- The charger's message queue, `OCPP_CHARGER_MSG_*`. A message about billing also notes the transaction it was raised for. -/
inductive ChargerMsg where
  | availabilityChanged
  | configurationChanged
  | billingStarted (transactionId : Int)
  | billingEnded
  | csmsUp
  | remoteReset (forced : Bool)
  deriving DecidableEq, Repr

/-! ### What a call reads -/

/-- The OCPP configuration keys that are read. -/
structure Configuration where
  localPreAuthorize : Bool := false
  localAuthListEnabled : Bool := false
  authorizationCacheEnabled : Bool := false
  authorizeRemoteTxRequests : Bool := false
  localAuthorizeOffline : Bool := false
  allowOfflineTxForUnknownId : Bool := false
  connectionTimeOut : Nat := 60
  meterValueSampleInterval : Nat := 0
  meterValuesSampledData : Nat := 0
  clockAlignedDataInterval : Nat := 0
  meterValuesAlignedData : Nat := 0
  deriving DecidableEq

/-- The meter's answers; a read that fails leaves its target alone. -/
structure Meter where
  energy : Option Nat := none
  power : Option Int := none
  current : Option Int := none
  voltage : Option Int := none
  powerFactor : Option Int := none
  frequency : Option Int := none
  deriving DecidableEq

structure Env extends Readings where
  config : Configuration := {}
  meter : Meter := {}
  /-- `csms_is_up`: the connection, not the acceptance of the boot notification. -/
  csmsConnected : Bool := true
  /-- What `ocpp_count_pending_requests` counts besides this connector's own requests. -/
  pendingOthers : Nat := 0
  /-- `time(NULL)` in `ocpp_connector_set_session_pending`. -/
  trialTime : Int := 0
  /-- `time(NULL)` in `ocpp_connector_occupy`. -/
  occupyTime : Int := 0
  /-- Whether the connector's event queue and the charger's message queue have room. -/
  evtqRoom : Bool := true
  msgqRoom : Bool := true
  deriving DecidableEq

end Evse.Ocpp
