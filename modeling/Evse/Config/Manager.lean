import Evse.Lib.ByteBlock
import Mathlib.Algebra.Ring.Nat
import Mathlib.Logic.Function.Basic

/-!
# The configuration manager

`config.c` keeps the basic configuration in RAM as a packed structure whose last field is a checksum of the rest, and stores it as one blob in a key-value store. Settings are read and written by key, through a table that gives each its place in the structure and who may write it; a few large ones live in the store under keys of their own. A flag says that RAM was changed since the last save.

The store fails writes and clears as scripted. The checksum and the level of the debug log come from elsewhere and are parameters.
-/

namespace Evse.Config

def EPERM : Int := 1
def ENOENT : Int := 2
def EIO : Int := 5
def ENOMEM : Int := 12

/-! ### The structure -/

/-- The fields of `struct config` and of the structures in it, with one connector. -/
inductive Member where
  | version | deviceId | deviceName | deviceMode | logMode | logLevel | dfuRebootManually
  | chargerMode | chargerParam | connectorMetering | connectorPilot | connectorPlcMac | connectorCount
  | healthCheckInterval | pingInterval | serverUrl | serverId | serverPass | mac | netOpt
  | ocppVersion | ocppConfig | ocppCheckpoint | ocppVendor | ocppModel
  | crc
  deriving DecidableEq, Repr

def Member.size : Member → Nat
  | .version | .crc | .healthCheckInterval | .pingInterval | .ocppVersion => 4
  | .deviceId => 24
  | .deviceName | .serverId => 32
  | .deviceMode | .logMode | .logLevel | .dfuRebootManually | .connectorCount | .netOpt => 1
  | .chargerMode => 8
  | .chargerParam | .connectorMetering | .ocppCheckpoint => 16
  | .connectorPilot => 30
  | .connectorPlcMac | .mac => 6
  | .serverUrl => 256
  | .serverPass => 40
  | .ocppConfig => 546
  | .ocppVendor | .ocppModel => 21

/-- The order of the fields in memory, with nothing between them. -/
def members : List Member :=
  [.version, .deviceId, .deviceName, .deviceMode, .logMode, .logLevel, .dfuRebootManually,
    .chargerMode, .chargerParam, .connectorMetering, .connectorPilot, .connectorPlcMac, .connectorCount,
    .healthCheckInterval, .pingInterval, .serverUrl, .serverId, .serverPass, .mac, .netOpt,
    .ocppVersion, .ocppConfig, .ocppCheckpoint, .ocppVendor, .ocppModel, .crc]

def offsetof (member : Member) : Nat := ((members.takeWhile (· ≠ member)).map Member.size).sum

def sizeofConfig : Nat := (members.map Member.size).sum

/-- The assertion on the size of the structure. -/
example : sizeofConfig = 1096 := by decide

abbrev Config := ByteBlock sizeofConfig

section Fields

variable (cfg : Config)

def put (member : Member) (data : List UInt8) : Config := cfg.put (offsetof member) data

/-- `strcpy` writes the terminator too, and leaves what is behind it. -/
def strcpy (member : Member) (text : String) : Config :=
  put cfg member (text.toList.map (fun c => .ofNat c.toNat) ++ [0])

def version : UInt32 := LittleEndian.decode (cfg.slice (offsetof .version) 4)
def crc : UInt32 := LittleEndian.decode (cfg.slice (offsetof .crc) 4)

def setVersion (version : UInt32) : Config := put cfg .version (LittleEndian.encode version)
def setCrc (crc : UInt32) : Config := put cfg .crc (LittleEndian.encode crc)

end Fields

def makeVersion (major minor patch : UInt32) : UInt32 := major <<< 16 ||| minor <<< 8 ||| patch

def configVersion : UInt32 := makeVersion 0 0 1

/-! ### The tables -/

/-- Who may write an entry, in the order of the source. -/
inductive Permission where
  | R | RFW | W | RW
  deriving DecidableEq, Repr

def Permission.rank : Permission → Nat
  | .R => 0
  | .RFW => 1
  | .W => 2
  | .RW => 3

structure ConfigEntry where
  key : String
  member : Member
  permission : Permission

structure CustomEntry where
  key : String
  size : Nat

def configMap : List ConfigEntry :=
  [⟨"version", .version, .R⟩,
    ⟨"crc", .crc, .R⟩,
    ⟨"device.id", .deviceId, .RFW⟩,
    ⟨"device.name", .deviceName, .RW⟩,
    ⟨"device.mode", .deviceMode, .RW⟩,
    ⟨"log.mode", .logMode, .RW⟩,
    ⟨"log.level", .logLevel, .RW⟩,
    ⟨"dfu.reboot_manually", .dfuRebootManually, .RW⟩,
    ⟨"chg.mode", .chargerMode, .RW⟩,
    ⟨"chg.param", .chargerParam, .RW⟩,
    ⟨"chg.count", .connectorCount, .RW⟩,
    ⟨"chg.c1.cp", .connectorPilot, .RW⟩,
    ⟨"chg.c1.metering", .connectorMetering, .RW⟩,
    ⟨"chg.c1.plc_mac", .connectorPlcMac, .RW⟩,
    ⟨"net.mac", .mac, .RW⟩,
    ⟨"net.health", .healthCheckInterval, .RW⟩,
    ⟨"net.server.url", .serverUrl, .RW⟩,
    ⟨"net.server.id", .serverId, .RW⟩,
    ⟨"net.server.pass", .serverPass, .RW⟩,
    ⟨"net.server.ping", .pingInterval, .RW⟩,
    ⟨"net.opt", .netOpt, .RW⟩,
    ⟨"ocpp.version", .ocppVersion, .RW⟩,
    ⟨"ocpp.config", .ocppConfig, .RW⟩,
    ⟨"ocpp.checkpoint", .ocppCheckpoint, .RW⟩,
    ⟨"ocpp.vendor", .ocppVendor, .RFW⟩,
    ⟨"ocpp.model", .ocppModel, .RFW⟩]

def configX509Maxlen : Nat := 2048
def meteringCalibrationTotalSize : Nat := 22

def customConfigMap : List CustomEntry :=
  [⟨"x509.ca", configX509Maxlen⟩,
    ⟨"x509.cert", configX509Maxlen⟩,
    ⟨"mtr.cal.ch1", meteringCalibrationTotalSize⟩]

def findConfigEntry (key : String) : Option ConfigEntry := configMap.find? (·.key = key)

def findCustomConfigEntry (key : String) : Option CustomEntry := customConfigMap.find? (·.key = key)

/-! ### The key-value store -/

def basicConfigKey : String := "basic"

structure Kvstore where
  values : String → Option (List UInt8)
  /-- What opening the namespace returns, and what a read that finds its key does. -/
  openReturns : Int := 0
  readReturns : Int := 0
  /-- Which of the coming writes and clears fail. -/
  fails : List Bool := []

namespace Kvstore

variable (nvs : Kvstore) (key : String)

/-- A write that fails leaves the value as it was. -/
def write (value : List UInt8) : Kvstore × Bool :=
  match nvs.fails with
  | true :: rest => ({ nvs with fails := rest }, false)
  | fails => ({ nvs with values := Function.update nvs.values key (some value), fails := fails.tail }, true)

def clear : Kvstore :=
  match nvs.fails with
  | true :: rest => { nvs with fails := rest }
  | fails => { nvs with values := Function.update nvs.values key none, fails := fails.tail }

/-- What is found goes to the front of the buffer. -/
def read (buf : Config) : Int × Config :=
  match nvs.values key with
  | none => (-ENOENT, buf)
  | some value => (nvs.readReturns, buf.put 0 value)

end Kvstore

/-! ### Defaults -/

def logWriterAll : UInt8 := 0x01 ||| 0x02
def configEthernetEnabled : UInt8 := 0x01

/-- `LOGGING_TYPE_DEBUG`, and `crc32_cksum`. -/
structure Externals where
  loggingTypeDebug : UInt8
  crc32Cksum : List UInt8 → UInt32

section Defaults

variable (ext : Externals) (cfg : Config)

def setDefaultChgMode : Config := strcpy cfg .chargerMode "free"
def setDefaultChgCCnt : Config := put cfg .connectorCount [1]
def setDefaultNetMac : Config := put cfg .mac [0x00, 0xf2, 0x00, 0x00, 0x00, 0x00]
def setDefaultNetHealthcheck : Config := put cfg .healthCheckInterval (LittleEndian.encode 60000)
def setDefaultPingInterval : Config := put cfg .pingInterval (LittleEndian.encode 120)
def setDefaultServerUrl : Config := strcpy cfg .serverUrl "wss://ocpp.pazzk.net:9000"
def setDefaultNetOpt : Config := put cfg .netOpt [configEthernetEnabled]
def setDefaultVendor : Config := strcpy cfg .ocppVendor "net.pazzk"
def setDefaultModel : Config := strcpy cfg .ocppModel "EVSE-7S"
def setDefaultLogMode : Config := put cfg .logMode [logWriterAll]
def setDefaultLogLevel : Config := put cfg .logLevel [ext.loggingTypeDebug]

def defaultHandlers : List (String × (Config → Config)) :=
  [("chg.mode", setDefaultChgMode),
    ("chg.count", setDefaultChgCCnt),
    ("net.mac", setDefaultNetMac),
    ("net.health", setDefaultNetHealthcheck),
    ("net.server.ping", setDefaultPingInterval),
    ("net.server.url", setDefaultServerUrl),
    ("net.opt", setDefaultNetOpt),
    ("ocpp.vendor", setDefaultVendor),
    ("ocpp.model", setDefaultModel),
    ("log.mode", setDefaultLogMode),
    ("log.level", setDefaultLogLevel ext)]

def configSetDefault (key : String) : Option Config :=
  ((defaultHandlers ext).find? (·.1 = key)).map fun handler => handler.2 cfg

def setDefaultOrZero (entry : ConfigEntry) : Config :=
  if entry.permission.rank < Permission.RFW.rank then cfg
  else (configSetDefault ext cfg entry.key).getD (put cfg entry.member (List.replicate entry.member.size 0))

def applyDefaults : Config := setVersion (configMap.foldl (setDefaultOrZero ext) cfg) configVersion

end Defaults

/-! ### Loading and saving -/

structure Mgr where
  nvs : Kvstore
  basic : Config
  dirty : Bool

section Manager

variable (ext : Externals)

def computeCrc (cfg : Config) : UInt32 := ext.crc32Cksum (cfg.bytes.take (sizeofConfig - Member.crc.size))

variable (mgr : Mgr)

def markDirty : Mgr := { mgr with dirty := true }
def clearDirty : Mgr := { mgr with dirty := false }

/-- The checksum is in RAM before the write, whether it succeeds or not. -/
def saveBasicConfig : Mgr × Int :=
  if mgr.dirty = false then (mgr, 0)
  else
    let cfg := setCrc mgr.basic (computeCrc ext mgr.basic)
    match mgr.nvs.write basicConfigKey cfg.bytes with
    | (nvs, false) => ({ mgr with nvs := nvs, basic := cfg }, - EIO)
    | (nvs, true) => (clearDirty { mgr with nvs := nvs, basic := cfg }, 0)

def migrateConfig : Mgr :=
  if version mgr.basic = configVersion then mgr
  else
    let cfg := if version mgr.basic > configVersion then applyDefaults ext mgr.basic else mgr.basic
    let cfg := if version cfg < makeVersion 0 0 1 then applyDefaults ext cfg else cfg
    (saveBasicConfig ext (markDirty { mgr with basic := setVersion cfg configVersion })).1

def loadConfig : Mgr :=
  let (err, cfg) := mgr.nvs.read basicConfigKey mgr.basic
  let cfg := if err < 0 then applyDefaults ext cfg else cfg
  let mgr := migrateConfig ext { mgr with basic := cfg }
  if crc mgr.basic ≠ computeCrc ext mgr.basic then
    let mgr := { mgr with basic := applyDefaults ext mgr.basic }
    if err = 0 then markDirty mgr else mgr
  else mgr

/-- The namespace is loaded even when it could not be opened. -/
def configInit (nvs : Kvstore) : Mgr × Int :=
  (loadConfig ext { nvs := nvs, basic := .zero, dirty := false }, nvs.openReturns)

/-! ### The interface -/

def writeCustomConfig (key : String) (data : List UInt8) : Mgr × Int :=
  match findCustomConfigEntry key with
  | none => (mgr, -ENOENT)
  | some entry =>
      if data.length > entry.size then (mgr, -ENOMEM)
      else
        match mgr.nvs.write key data with
        | (nvs, false) => ({ mgr with nvs := nvs }, - EIO)
        | (nvs, true) => ({ mgr with nvs := nvs }, 0)

/-- What goes to the buffer, and the result. -/
def readCustomConfig (key : String) (bufsize : Nat) : Option (List UInt8) × Int :=
  match findCustomConfigEntry key with
  | none => (none, -ENOENT)
  | some entry =>
      if bufsize < entry.size then (none, -ENOMEM)
      else
        match mgr.nvs.values key with
        | none => (none, -ENOENT)
        | some value =>
            (some (value.take entry.size),
              if mgr.nvs.readReturns < 0 then
                if mgr.nvs.readReturns = -ENOENT then -ENOENT else - EIO
              else 0)

def configGet (key : String) (bufsize : Nat) : Option (List UInt8) × Int :=
  match findConfigEntry key with
  | none => readCustomConfig mgr key bufsize
  | some entry =>
      if bufsize < entry.member.size then (none, -ENOMEM)
      else (some (mgr.basic.slice (offsetof entry.member) entry.member.size), 0)

/-- Data shorter than the entry is compared and written over its first bytes only. -/
def setConfig (key : String) (data : List UInt8) : Mgr × Int :=
  match findConfigEntry key with
  | none => writeCustomConfig mgr key data
  | some entry =>
      if entry.permission.rank ≤ Permission.RFW.rank then (mgr, -EPERM)
      else if data.length > entry.member.size then (mgr, -ENOMEM)
      else if mgr.basic.slice (offsetof entry.member) data.length ≠ data then
        (markDirty { mgr with basic := put mgr.basic entry.member data }, 0)
      else (mgr, 0)

def configSet (key : String) (data : List UInt8) : Mgr × Int := setConfig mgr key data

def configWriteAll (cfg : Config) : Mgr := markDirty { mgr with basic := cfg }

def configSave : Mgr × Int := saveBasicConfig ext mgr

def configSetAndSave (key : String) (data : List UInt8) : Mgr × Int :=
  let (mgr, err) := setConfig mgr key data
  if err = 0 then saveBasicConfig ext mgr else (mgr, err)

def clearCustomConfigs : Kvstore := customConfigMap.foldl (fun nvs entry => nvs.clear entry.key) mgr.nvs

/-- No key stands for all settings. -/
def applyDefault : Option String → Option Mgr
  | none => some { mgr with basic := applyDefaults ext mgr.basic, nvs := clearCustomConfigs mgr }
  | some key =>
      match findConfigEntry key with
      | some entry => some { mgr with basic := setDefaultOrZero ext mgr.basic entry }
      | none => (findCustomConfigEntry key).map fun _ => { mgr with nvs := mgr.nvs.clear key }

def configReset (key : Option String) : Mgr × Int :=
  match applyDefault ext mgr key with
  | some mgr => (markDirty mgr, 0)
  | none => (mgr, -ENOENT)

end Manager

inductive Op where
  | set (key : String) (data : List UInt8)
  | writeAll (cfg : Config)
  | reset (key : Option String)
  | save
  | setAndSave (key : String) (data : List UInt8)

def step (ext : Externals) (mgr : Mgr) : Op → Mgr
  | .set key data => (configSet mgr key data).1
  | .writeAll cfg => configWriteAll mgr cfg
  | .reset key => (configReset ext mgr key).1
  | .save => (configSave ext mgr).1
  | .setAndSave key data => (configSetAndSave ext mgr key data).1

end Evse.Config
