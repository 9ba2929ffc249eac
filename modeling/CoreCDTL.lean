import CoreCDTL.Lib.Machine
import CoreCDTL.Lib.Ring
import CoreCDTL.Lib.Sync
import CoreCDTL.Utils.Strcmp
import CoreCDTL.HeapKit.RoundTrip
import CoreCDTL.HeapKit.Injection
import CoreCDTL.HeapKit.SetField
import CoreCDTL.HeapKit.SetTelemetry
import CoreCDTL.HeapKit.Assign
import CoreCDTL.HeapKit.Serialize
import CoreCDTL.HeapKit.Registry
import CoreCDTL.Scheduler.Timers
import CoreCDTL.Scheduler.Waiting
import CoreCDTL.Scheduler.Ownership
import CoreCDTL.Scheduler.Cancel
import CoreCDTL.Scheduler.Final
import CoreCDTL.Scheduler.Creator
import CoreCDTL.Scheduler.Telemetry
import CoreCDTL.Scheduler.Deadline
import CoreCDTL.Scheduler.Ids
import CoreCDTL.Log.NoLoss
import CoreCDTL.Log.Capacity
import CoreCDTL.Log.Drain
import CoreCDTL.Crash.Recovery
import CoreCDTL.Gateway.Arena
import CoreCDTL.Gateway.Ctl
import CoreCDTL.Gateway.Stream
import CoreCDTL.Lib.Framing
import CoreCDTL.Gateway.Frames
import CoreCDTL.Gateway.Release
import CoreCDTL.Gateway.Listings
import CoreCDTL.Gateway.Lines
import CoreCDTL.Plugin.FailedLoad
import CoreCDTL.Plugin.TypesGrammar
import CoreCDTL.Plugin.TypesBounds
import CoreCDTL.Plugin.LongLines
import CoreCDTL.Plugin.Alive
import CoreCDTL.Plugin.Results
import CoreCDTL.Plugin.Params
import CoreCDTL.Plugin.Names
import CoreCDTL.Plugin.Growth
import CoreCDTL.EventBus.Deadlock
import CoreCDTL.EventBus.Delivery
import CoreCDTL.EventBus.Publish
import CoreCDTL.EventBus.Reclaim
import CoreCDTL.EventBus.Restart
import CoreCDTL.Runtime.Callbacks
import CoreCDTL.Lib.Exchange
import CoreCDTL.Control.Server
import CoreCDTL.Control.Client
import CoreCDTL.Control.Protocol
import CoreCDTL.Lib.Progress
import CoreCDTL.Control.Daemon
import CoreCDTL.Lib.Simulation
import CoreCDTL.Lib.LockOrder
import CoreCDTL.Lib.Ssa
import CoreCDTL.Plugin.Stubs
import CoreCDTL.Runtime.Lifecycle
import CoreCDTL.Runtime.Mutexes
