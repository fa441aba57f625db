import Evse.Lib.Run
import Evse.Lib.RowTable
import Evse.Lib.Ledger
import Evse.Lib.RecordFile
import Evse.Lib.RingBuffer
import Evse.Lib.CString
import Evse.Lib.Fallible
import Evse.Lib.Buffer
import Evse.Lib.Printf
import Evse.Iec61851
import Evse.Safety
import Evse.Metering
import Evse.Updater.Process
import Evse.Updater.Events
import Evse.Updater.Chunks
import Evse.Updater.Downloaders
import Evse.Connector
import Evse.EventText
import Evse.Attachment
import Evse.Free.Connector
import Evse.Free.Power
import Evse.Free.Events
import Evse.Free.Faults
import Evse.RelayCoil
import Evse.Ocpp.Session
import Evse.Uid
import Evse.UidFile
import Evse.UidFailures
import Evse.Ocpp.Connector
import Evse.Ocpp.Authorize
import Evse.Ocpp.System
import Evse.Ocpp.Moves
import Evse.Ocpp.Frame
import Evse.Ocpp.Calls
import Evse.Ocpp.Power
import Evse.Enabled
import Evse.Ocpp.Transactions
import Evse.Ocpp.Stops
import Evse.Ocpp.Ownership
import Evse.Ocpp.Matching
import Evse.Ocpp.Caching
import Evse.Ocpp.Identity
import Evse.Ocpp.Refusal
import Evse.Ocpp.Stopper
import Evse.Ocpp.Faults
import Evse.Ocpp.Told
import Evse.Ocpp.Charger
import Evse.Ocpp.Reboot
import Evse.Ocpp.Receive
import Evse.Pilot
import Evse.Lib.Deviation
import Evse.PilotMeasure
import Evse.PilotRoot
import Evse.PowerSafety
import Evse.MainsFrequency
import Evse.Net.Manager
import Evse.Net.Steps
import Evse.Net.Stream
import Evse.Net.Address
import Evse.Net.Interfaces
import Evse.Net.Util
import Evse.Net.Url
import Evse.Net.Ipv4
import Evse.Net.MacText
import Evse.Fs.Logfs
import Evse.Fs.Contents
import Evse.Fs.Retention
import Evse.Fs.Appending
import Evse.Fs.Unlimited
import Evse.Fs.Failures
import Evse.Fs.LogList
import Evse.Fs.Lfs
import Evse.Fs.LfsPaths
import Evse.Fs.LfsFiles
import Evse.Config.Manager
import Evse.Config.Persistence
import Evse.Config.Reset
import Evse.Cli.ChargerParam
import Evse.Cli.Certificate
import Evse.Updater.Xmodem
import Evse.Ocpp.RemoteStop
import Evse.Ocpp.Availability
import Evse.Ocpp.Offline
import Evse.Ocpp.ChangeConfiguration
import Evse.Ocpp.GetConfiguration
import Evse.Ocpp.Decoder
import Evse.Ocpp.DecoderSafety
import Evse.Ocpp.MeterValues
import Evse.Ocpp.MessageId
import Evse.Lib.DurableLedger
import Evse.Config.Restart
import Evse.Config.Field
import Evse.SavedEnergy
import Evse.Ocpp.Checkpoint
import Evse.Ocpp.PowerCut
import Evse.Ocpp.Recovery
import Evse.Ocpp.Durable
import Evse.Ocpp.StatusView
import Evse.Ocpp.Progress
import Evse.Cli.LogCommand
import Evse.Free.Mains
import Evse.Ocpp.Registration
