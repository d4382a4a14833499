import Sysmon.Cmd.Terminal
import Sysmon.Ebpf.Collector
import Sysmon.Library.Interleaving
import Sysmon.Stats.ProcMeminfo
import Sysmon.Stats.ProcNetDev
import Sysmon.Stats.ProcStat

/-!
# The process

This file embeds `main` and `run` of `main.go` with the order of their effects:
the writes to the terminal, the files of `/proc`, the collector, the ticker,
the deferred calls and the goroutine that waits for a signal. The readers of
`internal/stats` are embedded with the files that they open and close. What
`flag.Parse` makes of the command line is an input.

Both goroutines are programs over system operations, so that the process is
any interleaving of the two, with signals that may arrive at any time. What
the operations answer is up to the environment. The loop of `run` is unfolded
for the ticks that are still to come; when there are none left, `run` waits.
-/

namespace Sysmon.Cmd

open Sysmon.Go Sysmon.Stats Sysmon.Ebpf

namespace Process

inductive SysOp where
  | print (s : GoString)
  | printErr (s : GoString)
  | notify
  | spawn
  | receiveSignal
  | collector (operation : CollectorOp)
  | hist (operation : HistOp)
  | openFile (path : GoString)
  | closeFile (path : GoString)
  | statfs (path : GoString)
  | now
  | newTicker (interval : ℤ)
  | waitTick
  | stopTicker
  | range (net : GoMap NetThroughput)
  | exit (code : ℕ)

/-- What an operation answers. A file that is opened stands for the text that it yields, and a loop
over a map for the order of its entries. -/
@[reducible]
def SysOp.Answer : SysOp → Type
  | collector operation => operation.Answer
  | hist operation => operation.Answer
  | openFile _ => Except GoString GoString
  | statfs _ => Except GoString Statfs
  | now => ℤ
  | range net => Iteration net
  | _ => Unit

abbrev SysProgram := Program SysOp.Answer

/-- What depends on the machine and on the build: the verb `%q`, the text of the error for a
missing key, the conversion of numbers that are out of range, and whether the collector is
compiled in. -/
structure Platform where
  quote : GoString → GoString
  errKeyNotExist : GoString
  outOfRange : ℚ → UInt64
  ebpf : Bool

/-- How `flag.Parse` ends the process: it prints the usage when it is asked to, and an error with
the usage when the command line is wrong. -/
inductive Refusal where
  | help (usage : GoString)
  | invalid (message : GoString)

namespace Refusal

def message : Refusal → GoString
  | help usage => usage
  | invalid message => message

def status : Refusal → ℕ
  | help _ => 0
  | invalid _ => 2

end Refusal

/-- The flags as `flag.Parse` leaves them, and how it ends the process if it does. The interval is
in nanoseconds. -/
structure Flags where
  interval : ℤ := 2 * 10 ^ 9
  mountPath : GoString := text "/"
  useEBPF : Bool := false
  refused : Option Refusal := none

/-- How `run` has ended, if it does not wait for a tick that is still to come. -/
inductive Ending where
  | waiting
  | returned (err : GoString)
  | panicked
deriving DecidableEq

abbrev onCollector {Result : Type} (program : CollectorProgram Result) : SysProgram Result :=
  program.translate .collector fun _ => Equiv.refl _

abbrev onHist {Result : Type} (program : HistProgram Result) : SysProgram Result :=
  program.translate .hist fun _ => Equiv.refl _

abbrev perform (operation : SysOp) : SysProgram operation.Answer := Program.perform operation

section Readers

variable (platform : Platform)

/-- The readers of files of `/proc`: the file is opened, parsed and closed. -/
def readProc {Value : Type} (path : GoString) (parse : GoString → Value × Option ProcError) :
    SysProgram (Except GoString Value) := do
  match ← perform (.openFile path) with
  | .error err => return .error (text "opening " ++ path ++ text ": " ++ err)
  | .ok r =>
    let (value, err) := parse r
    perform (.closeFile path)
    match err with
    | some err => return .error (err.error platform.quote)
    | none => return .ok value

def readCPUTimes : SysProgram (Except GoString (List CPUTimes)) :=
  readProc platform (text "/proc/stat") parseCPUTimes

def readMemInfo : SysProgram (Except GoString MemInfo) :=
  readProc platform (text "/proc/meminfo") parseMemInfo

def readNetIO : SysProgram (Except GoString (List NetIO)) :=
  readProc platform (text "/proc/net/dev") parseNetIO

def readDiskUsage (path : GoString) : SysProgram (Except GoString DiskUsage) := do
  match ← perform (.statfs path) with
  | .error err => return .error (text "statfs " ++ platform.quote path ++ text ": " ++ err)
  | .ok stat => return .ok (stat.diskUsage path)

end Readers

/-- `if err != nil { return err }` -/
def orReturn {Value : Type} (reading : SysProgram (Except GoString Value))
    (following : Value → SysProgram Ending) : SysProgram Ending := do
  match ← reading with
  | .error err => return .returned err
  | .ok value => following value

/-- A deferred call takes place when the function returns or panics. -/
def deferring (body : SysProgram Ending) (deferred : SysProgram Unit) : SysProgram Ending := do
  match ← body with
  | .waiting => return .waiting
  | ended =>
    deferred
    return ended

section Run

variable (platform : Platform) (flags : Flags)

/-- The histogram is read and reset if there is a collector. -/
def readLatency (bpfCol : Bool) : SysProgram (List LatencyBucket) :=
  if bpfCol then onHist (refreshLatency platform.errKeyNotExist) else return []

/-- The part of an iteration that follows the readings, and what follows it. -/
def display (bpfCol : Bool) (prev : Sample) (curCPU : List CPUTimes) (mem : MemInfo)
    (diskUsage : DiskUsage) (curNet : List NetIO) (following : Sample → SysProgram Ending) :
    SysProgram Ending := do
  let now ← perform .now
  let elapsed := elapsedSeconds prev.time now
  let cpuPct := cpuPercent prev.cpu curCPU
  let netRates := computeNetThroughput prev.net curNet elapsed
  let latencyBuckets ← readLatency platform bpfCol
  let visited ← perform (.range netRates)
  let frame : Frame := ⟨cpuPct, mem, diskUsage, netRates, latencyBuckets⟩
  match render platform.outOfRange frame visited.order with
  | none => return .panicked
  | some screen =>
    perform (.print screen)
    following ⟨curCPU, curNet, now⟩

/-- The loop of `run` for a number of ticks, where `bpfCol` says whether there is a collector. -/
def loop (bpfCol : Bool) : ℕ → Sample → SysProgram Ending
  | 0, _ => return .waiting
  | ticks + 1, prev => do
    perform .waitTick
    orReturn (readCPUTimes platform) fun curCPU =>
      orReturn (readMemInfo platform) fun mem =>
      orReturn (readDiskUsage platform flags.mountPath) fun diskUsage =>
      orReturn (Process.readNetIO platform) fun curNet =>
      display platform bpfCol prev curCPU mem diskUsage curNet (loop bpfCol ticks)

/-- The part of `run` that takes samples. -/
def sampling (bpfCol : Bool) (ticks : ℕ) : SysProgram Ending :=
  orReturn (readCPUTimes platform) fun prevCPU =>
    orReturn (Process.readNetIO platform) fun prevNet => do
      let lastSample ← perform .now
      if flags.interval ≤ 0 then
        return .panicked -- `time.NewTicker` panics
      else
        perform (.newTicker flags.interval)
        deferring (loop platform flags bpfCol ticks ⟨prevCPU, prevNet, lastSample⟩)
          (perform .stopTicker)

def attached : GoString :=
  text "eBPF: attached to block_rq_issue and block_rq_complete tracepoints\n"

/-- The part of `run` that follows the start of the goroutine, the collector first if it is
requested. -/
def collecting (ticks : ℕ) : SysProgram Ending :=
  if flags.useEBPF then do
    match ← onCollector (if platform.ebpf then newCollector else stubCollector) with
    | .error err =>
      return .returned (text "eBPF collector: " ++ err ++
        text "\n(tip: run as root, and ensure kernel 5.8+ with BTF)")
    | .ok c =>
      deferring (do
          perform (.printErr attached)
          sampling platform flags true ticks)
        (onCollector c.close)
  else sampling platform flags false ticks

def run (ticks : ℕ) : SysProgram Ending := do
  perform (.print hideCursor)
  deferring (do
      perform .notify
      perform .spawn
      collecting platform flags ticks)
    (perform (.print showCursor))

/-- The part of `main` that follows `flag.Parse`. A panic ends the process with status 2. -/
def runToEnd (ticks : ℕ) : SysProgram Unit := do
  match ← run platform flags ticks with
  | .waiting => return ()
  | .returned err =>
    perform (.printErr (text "sysmon: " ++ err ++ text "\n"))
    perform (.exit 1)
  | .panicked => perform (.exit 2)

def main (ticks : ℕ) : SysProgram Unit :=
  match flags.refused with
  | some refusal => do
    perform (.printErr refusal.message)
    perform (.exit refusal.status)
  | none => runToEnd platform flags ticks

/-- The goroutine that `run` starts. -/
def handleSignal : SysProgram Unit := do
  perform .receiveSignal
  perform (.print showCursor)
  perform (.exit 0)

end Run

/-! ## The process in its environment -/

/-- The signals that end a process which has not asked for them, at once or through the runtime.
`run` asks for the first two, and `other` stands for all the rest, such as `SIGHUP`, `SIGQUIT` and
`SIGKILL`. -/
inductive Signal where
  | interrupt
  | terminate
  | other
deriving DecidableEq

/-- The signal is one of the arguments of `signal.Notify`. -/
def Signal.Requested (signal : Signal) : Prop := signal ≠ .other

instance : DecidablePred Signal.Requested := fun _ => inferInstanceAs (Decidable (_ ≠ _))

/-- The process has ended itself with a status, or a signal has ended it. -/
inductive Exit where
  | code (status : ℕ)
  | killed (signal : Signal)
deriving DecidableEq

/-- The process as the outside sees it: what it has written, one write after the other, what it
has still to close, and how it has ended. `pending` says whether the channel of `signal.Notify` is
full. -/
structure Host where
  written : List GoString
  errors : List GoString
  notified : Bool
  pending : Bool
  spawned : Bool
  files : List GoString
  held : Holdings
  ticking : Bool
  exit : Option Exit

def Host.initial : Host where
  written := []
  errors := []
  notified := false
  pending := false
  spawned := false
  files := []
  held := .none
  ticking := false
  exit := none

/-- A link or an object counts as closed once `Close` has been called on it. -/
def calledAtAll (_ : CollectorOp) : Bool := true

/-- What an operation with its answer does to the process. -/
def SysOp.advance : (operation : SysOp) → operation.Answer → Host → Host
  | .print s, _, host => { host with written := host.written ++ [s] }
  | .printErr s, _, host => { host with errors := host.errors ++ [s] }
  | .notify, _, host => { host with notified := true }
  | .spawn, _, host => { host with spawned := true }
  | .receiveSignal, _, host => { host with pending := false }
  | .collector operation, answer, host =>
    { host with held := CollectorOp.advance calledAtAll operation answer host.held }
  | .openFile path, .ok _, host => { host with files := path :: host.files }
  | .closeFile path, _, host => { host with files := host.files.erase path }
  | .newTicker _, _, host => { host with ticking := true }
  | .stopTicker, _, host => { host with ticking := false }
  | .exit code, _, host => { host with exit := some (.code code) }
  | _, _, host => host

/-- A signal fills the channel, or kills a process that has not asked for it. -/
def Host.signal (signal : Signal) (host : Host) : Host :=
  if signal.Requested ∧ host.notified = true then { host with pending := true }
  else { host with exit := some (.killed signal) }

inductive Goroutine where
  | main
  | signals
deriving DecidableEq

/-- What the environment answers, whatever it is asked. -/
abbrev Answers := (operation : SysOp) → operation.Answer

inductive Label where
  | signal (signal : Signal)
  | goroutine (goroutine : Goroutine) (answers : Answers)

abbrev State := Pool Goroutine SysOp.Answer Unit Host

def interpret (answers : Answers) (operation : SysOp) (host : Host) :
    operation.Answer × Host :=
  (answers operation, operation.advance (answers operation) host)

/-- The goroutine waits for a signal. -/
def Blocked (host : Host) : SysProgram Unit → Prop
  | .call .receiveSignal _ => host.pending = false
  | _ => False

instance (host : Host) : DecidablePred (Blocked host)
  | .call .receiveSignal _ => inferInstanceAs (Decidable (host.pending = false))
  | .call (.print _) _ | .call (.printErr _) _ | .call .notify _ | .call .spawn _
  | .call (.collector _) _ | .call (.hist _) _ | .call (.openFile _) _ | .call (.closeFile _) _
  | .call (.statfs _) _ | .call .now _ | .call (.newTicker _) _ | .call .waitTick _
  | .call .stopTicker _ | .call (.range _) _ | .call (.exit _) _ | .done _ => isFalse id

/-- The goroutine exists and can go on. -/
def Runs (goroutine : Goroutine) (state : State) : Prop :=
  (goroutine = .signals → state.shared.spawned = true) ∧
    ¬Blocked state.shared (state.programs goroutine)

instance (goroutine : Goroutine) : DecidablePred (Runs goroutine) := fun _ =>
  inferInstanceAs (Decidable (_ ∧ _))

/-- One step of the process, as long as it has not ended. A step of a goroutine outputs the
operation that is performed. -/
def step : Machine State Label (Option (Performed SysOp.Answer)) := fun state label =>
  if state.shared.exit ≠ none then none
  else
    match label with
    | .signal signal => some (none, { state with shared := state.shared.signal signal })
    | .goroutine goroutine answers =>
      if Runs goroutine state then
        (Pool.step interpret state (goroutine, answers)).map fun (performed, next) =>
          (some performed, next)
      else none

def start (platform : Platform) (flags : Flags) (ticks : ℕ) : State where
  programs
    | .main => main platform flags ticks
    | .signals => handleSignal
  shared := .initial

/-! ## Examples of an environment -/

def plain : Platform where
  quote := id
  errKeyNotExist := text "key does not exist"
  outOfRange := fun _ => 0
  ebpf := false

def everySecond : Flags where
  interval := 10 ^ 9

noncomputable def anyOrder (net : GoMap NetThroughput) : Iteration net where
  order := net.entries.toList
  visits := Multiset.coe_toList _

end Process

end Sysmon.Cmd
