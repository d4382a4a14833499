import Sysmon.Library.BoundedMap
import Sysmon.Library.History
import Sysmon.Library.Interleaving
import Sysmon.Library.KeyedList
import Sysmon.Library.Machine
import Sysmon.Library.Contract
import Sysmon.Library.Program
import Sysmon.Library.Proportions
import Sysmon.Library.Replay
import Sysmon.Library.Rounding
import Sysmon.Library.Words
import Sysmon.Go.Values
import Sysmon.Go.Strings
import Sysmon.Go.Strconv
import Sysmon.Go.Bufio
import Sysmon.Go.Fmt
import Sysmon.Go.Reading
import Sysmon.Ebpf.BlockLatency
import Sysmon.Ebpf.Tracer
import Sysmon.Ebpf.Requests
import Sysmon.Ebpf.Measurement
import Sysmon.Ebpf.Loader
import Sysmon.Ebpf.Collector
import Sysmon.Ebpf.Labels
import Sysmon.Ebpf.Render
import Sysmon.Ebpf.Refresh
import Sysmon.Ebpf.Handlers
import Sysmon.Ebpf.Pointers
import Sysmon.Ebpf.Monitor
import Sysmon.Ebpf.Watch
import Sysmon.Ebpf.Overlap
import Sysmon.Ebpf.Provenance
import Sysmon.Ebpf.Serialisation
import Sysmon.Stats.Cpu
import Sysmon.Stats.Net
import Sysmon.Stats.Usage
import Sysmon.Stats.Proc
import Sysmon.Stats.ProcStat
import Sysmon.Stats.CpuRange
import Sysmon.Stats.ProcMeminfo
import Sysmon.Stats.ProcDiskstats
import Sysmon.Stats.ProcNetDev
import Sysmon.Stats.Pieces
import Sysmon.Cmd.Run
import Sysmon.Cmd.HumanBytes
import Sysmon.Cmd.Screen
import Sysmon.Cmd.Figures
import Sysmon.Cmd.Terminal
import Sysmon.Cmd.Process
import Sysmon.Cmd.Conduct
import Sysmon.Cmd.Shutdown
import Sysmon.Cmd.Cadence
import Sysmon.Cmd.Playback
import Sysmon.Cmd.Interruption
import Sysmon.Cmd.Rates
