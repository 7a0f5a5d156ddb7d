import Lager.Lib.Run
import Lager.Lib.Split
import Lager.Lib.Rank
import Lager.Py.Json
import Lager.Py.Text
import Lager.Py.Sha256
import Lager.Py.Path
import Lager.Py.Datetime
import Lager.Lock.State
import Lager.Lock.Exclusion
import Lager.Lock.Reservation
import Lager.Lock.Sessions
import Lager.Lock.Requests
import Lager.Lock.Ownership
import Lager.Lock.CiScope
import Lager.Lock.Answers
import Lager.Lock.Ttl
import Lager.Lock.Handover
import Lager.Wire.Frame
import Lager.Wire.RoundTrip
import Lager.Wire.Channel
import Lager.Wire.Delivery
import Lager.RunRecord.LogHash
import Lager.Exec.Drain
import Lager.Exec.Reattach
import Lager.RunRecord.Store
import Lager.RunRecord.System
import Lager.RunRecord.Effect
import Lager.RunRecord.Ownership
import Lager.RunRecord.Publication
import Lager.RunRecord.Sequence
import Lager.RunRecord.Final
import Lager.RunRecord.Outbox
import Lager.RunRecord.SameId
import Lager.RunRecord.Fetch
import Lager.RunRecord.Retention
import Lager.RunRecord.Blobs
import Lager.Lib.Fold
import Lager.Lib.Ends
import Lager.Py.Number
import Lager.Nets.ScopeMigration
import Lager.Nets.Bench
import Lager.Nets.Store
import Lager.Nets.Unique
import Lager.Nets.Concurrent
import Lager.Nets.Servers
import Lager.Lib.Heap
import Lager.Lib.Tree
import Lager.Lib.Frame
import Lager.Lib.Assoc
import Lager.Lib.Collect
import Lager.Lib.Outputs
import Lager.Lib.Pacer
import Lager.Nets.Cache
import Lager.Nets.Writes
import Lager.Nets.Atomic
import Lager.Safety.Interlock
import Lager.Safety.Coverage
import Lager.Safety.Passed
import Lager.Safety.RateCap
import Lager.Device.Lock
import Lager.Lib.Regex
import Lager.BoxConfig.Format
import Lager.BoxConfig.Validate
import Lager.BoxConfig.Accepted
import Lager.BoxConfig.Paths
import Lager.Py.Sorted
import Lager.Py.Dumps
import Lager.BoxConfig.Config
import Lager.BoxConfig.Load
import Lager.BoxConfig.RoundTrip
import Lager.Lib.Command
import Lager.BoxConfig.Verbs
import Lager.BoxConfig.Store
import Lager.Lib.Group
import Lager.Nets.Probe
import Lager.Nets.Sweep
import Lager.Nets.Reports
import Lager.Hardware.Invoke
import Lager.Lib.Bytes
import Lager.Scope.Lscp
import Lager.Scope.RoundTrip
import Lager.Lib.Cache
import Lager.Scope.Driver
import Lager.Scope.Loop
import Lager.Scope.Records
import Lager.Scope.Samples
import Lager.Scope.Published
import Lager.Scope.Thread
import Lager.Scope.Config
import Lager.Scope.Restore
import Lager.Scope.Reopened
import Lager.Scope.Arming
import Lager.Scope.Requests
import Lager.Lib.Broadcast
import Lager.Scope.Connection
import Lager.Scope.Replies
import Lager.Scope.Credit
import Lager.Scope.Pipelining
import Lager.Scope.Scpi
import Lager.Scope.Roll
import Lager.Scope.Average
import Lager.Scope.Pacing
import Lager.Scope.Screenshot
import Lager.Lib.Triple
import Lager.Lib.Nearest
import Lager.Pico.Settings
import Lager.Pico.Ps2000
import Lager.Pico.TriggerLevel
import Lager.Pico.Refused
import Lager.Pico.Timebase
import Lager.Pico.Modern
import Lager.Pico.Buffers
import Lager.Scope.Measure
import Lager.Scope.RiseTime
import Lager.Scope.Timing
import Lager.Scope.UsbTmc
import Lager.Scope.Reassembly
import Lager.Scope.Unending
import Lager.Blufi.Frames
import Lager.Blufi.RoundTrip
import Lager.Blufi.ScanList
import Lager.Blufi.Faults
import Lager.Exec.Quiesce
import Lager.Device.SerialId
import Lager.Device.Address
import Lager.Device.CustomStore
import Lager.Device.Assign
import Lager.Device.Identity
import Lager.Debug.ProbeLock
import Lager.Debug.GdbServer
import Lager.Debug.PortWindows
import Lager.Debug.OpenOcd
import Lager.Debug.EraseAll
import Lager.Debug.UncachedVerify
import Lager.Debug.LoaderSymbols
import Lager.Debug.FlashLoader
import Lager.Debug.FlashPlan
import Lager.Cli.BoxStorage
import Lager.Cli.Matchers
import Lager.Cli.RunDownload
import Lager.Cli.ZipDir
import Lager.Py.Links
import Lager.Binaries.Store
import Lager.Lib.Shell
import Lager.BoxConfig.Render
import Lager.BoxConfig.Snapshot
import Lager.BoxConfig.Applied
import Lager.Lib.Decimal
import Lager.Py.Loads
import Lager.Util.JcsNumber
import Lager.Util.Jcs
import Lager.Util.JcsIdentity
import Lager.Util.JcsEcmaScript
import Lager.Drivers.Store
import Lager.Drivers.Extract
import Lager.Drivers.Swap
import Lager.Drivers.Calls
import Lager.Drivers.Fields
import Lager.Drivers.Schema
import Lager.Drivers.NormalForm
import Lager.Drivers.Arguments
import Lager.Debug.Scripts
import Lager.Io.UdHandles
import Lager.Io.UdRegistry
