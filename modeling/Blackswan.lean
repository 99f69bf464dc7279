import Blackswan.Lib.Loop
import Blackswan.Lib.Outcome
import Blackswan.Lib.Wrap
import Blackswan.Core
import Blackswan.Replay.Schedule
import Blackswan.Replay.Scheduler
import Blackswan.Replay.Runner
import Blackswan.Replay.Play
import Blackswan.Replay.Timing
import Blackswan.Replay.Halting
import Blackswan.Replay.Teardown
import Blackswan.Fix.Message
import Blackswan.Lib.Extraction
import Blackswan.Fix.Framing
import Blackswan.Fix.Adapter
import Blackswan.Fix.Proxy
import Blackswan.Fix.Session
import Blackswan.Fix.Injector
import Blackswan.Fix.Throttle
import Blackswan.Kernel.Xdp
import Blackswan.Kernel.Setup
import Blackswan.Kernel.Switch
import Blackswan.Kernel.Partition
import Blackswan.Kernel.Cgroup
import Blackswan.Kernel.TimeSkew
import Blackswan.Cli.Build
import Blackswan.Cli.Execute
import Blackswan.Toggles
import Blackswan.Kernel.PacketLoss
import Blackswan.Kernel.SkewProcess
import Blackswan.Fix.Header
import Blackswan.Fix.Drain
import Blackswan.Fix.Rewrite
import Blackswan.Fix.Grammar
import Blackswan.Replay.Advance
import Blackswan.Lib.Words
import Blackswan.Replay.Rng
import Blackswan.Kernel.Verdict
import Blackswan.Kernel.VlanTags
import Blackswan.Kernel.Corruption
import Blackswan.Lib.Threads
import Blackswan.Fix.Thread
import Blackswan.Fix.Directed
import Blackswan.Fix.Lifecycle
import Blackswan.Fix.Stopping
import Blackswan.Fix.Chain
import Blackswan.Replay.Isolation
import Blackswan.Replay.Realtime
import Blackswan.Replay.Reports
import Blackswan.Cli.Main
import Blackswan.Kernel.CgroupTree
import Blackswan.Kernel.Object
import Blackswan.Cli.Traffic
import Blackswan.Cli.Cells
import Blackswan.Kernel.Race
import Blackswan.Lib.Binary64
import Blackswan.Replay.Draws
import Blackswan.Fix.Flags
import Blackswan.Cli.Clients
import Blackswan.Kernel.Moments
