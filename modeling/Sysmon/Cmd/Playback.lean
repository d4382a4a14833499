import Sysmon.Cmd.Process

/-!
# The process without interruption

`Cmd.run` says which frames a run shows for given readings. This file connects
it to the process: when the main goroutine is not interrupted, it writes these
frames, drawn by `render`, between the two control sequences for the cursor,
and ends with the same error.

The environment of such a run is a script: what is read before the first tick,
and what is read at each tick.
-/

namespace Sysmon.Cmd.Process

open Sysmon.Go Sysmon.Stats Sysmon.Ebpf

/-- What is read at a tick: the texts of the files or the errors of opening them, the filesystem,
the time, the histogram with the failing operations, and the order in which a loop visits a map. -/
structure Reading where
  stat : Except GoString GoString
  meminfo : Except GoString GoString
  netDev : Except GoString GoString
  statfs : Except GoString Statfs
  now : ℤ
  kernel : KernelState
  fault : HistOp → Option GoString
  visit : ∀ net, Iteration net

structure Script where
  collectorFault : CollectorOp → Option GoString
  first : Reading
  later : List Reading

/-- The process, the reading of the current tick, and the readings of the ticks to come. -/
structure Scene where
  host : Host
  collectorFault : CollectorOp → Option GoString
  current : Reading
  kernel : KernelState
  later : List Reading

def Script.scene (script : Script) : Scene where
  host := .initial
  collectorFault := script.collectorFault
  current := script.first
  kernel := script.first.kernel
  later := script.later

def Scene.advance (operation : SysOp) (answer : operation.Answer) (scene : Scene) :
    operation.Answer × Scene :=
  (answer, { scene with host := operation.advance answer scene.host })

/-- What the environment answers. -/
def play : (operation : SysOp) → Scene → operation.Answer × Scene
  | .collector operation, scene =>
    scene.advance (.collector operation) (scene.collectorFault operation)
  | .hist operation, scene =>
    let (answer, kernel) := operation.interpret scene.current.fault scene.kernel
    (answer, { scene with kernel := kernel })
  | .openFile path, scene =>
    scene.advance (.openFile path)
      (if path = text "/proc/stat" then scene.current.stat
      else if path = text "/proc/meminfo" then scene.current.meminfo
      else scene.current.netDev)
  | .statfs path, scene => scene.advance (.statfs path) scene.current.statfs
  | .now, scene => scene.advance .now scene.current.now
  | .range net, scene => scene.advance (.range net) (scene.current.visit net)
  | .waitTick, scene =>
    match scene.later with
    | [] => ((), scene)
    | reading :: later =>
      ((), { scene with current := reading, kernel := reading.kernel, later := later })
  | .print s, scene => scene.advance (.print s) ()
  | .printErr s, scene => scene.advance (.printErr s) ()
  | .notify, scene => scene.advance .notify ()
  | .spawn, scene => scene.advance .spawn ()
  | .receiveSignal, scene => scene.advance .receiveSignal ()
  | .closeFile path, scene => scene.advance (.closeFile path) ()
  | .newTicker interval, scene => scene.advance (.newTicker interval) ()
  | .stopTicker, scene => scene.advance .stopTicker ()
  | .exit code, scene => scene.advance (.exit code) ()

/-! ## The inputs of `Cmd.run` -/

section Inputs

variable (platform : Platform)

/-- What a reader of a file returns. -/
def opened {Value : Type} (path : GoString) (parse : GoString → Value × Option ProcError) :
    Except GoString GoString → Except GoString Value
  | .error err => .error (text "opening " ++ path ++ text ": " ++ err)
  | .ok r =>
    match parse r with
    | (_, some err) => .error (err.error platform.quote)
    | (value, none) => .ok value

namespace Reading

def cpu (reading : Reading) : Except GoString (List CPUTimes) :=
  opened platform (text "/proc/stat") parseCPUTimes reading.stat

def mem (reading : Reading) : Except GoString MemInfo :=
  opened platform (text "/proc/meminfo") parseMemInfo reading.meminfo

def net (reading : Reading) : Except GoString (List NetIO) :=
  opened platform (text "/proc/net/dev") parseNetIO reading.netDev

def disk (path : GoString) (reading : Reading) : Except GoString DiskUsage :=
  match reading.statfs with
  | .error err => .error (text "statfs " ++ platform.quote path ++ text ": " ++ err)
  | .ok stat => .ok (stat.diskUsage path)

def tick (path : GoString) (reading : Reading) : Tick where
  cpu := reading.cpu platform
  mem := reading.mem platform
  disk := reading.disk platform path
  net := reading.net platform
  now := reading.now
  kernel := reading.kernel
  fault := reading.fault

end Reading

/-- The result of `NewCollector`. -/
def Script.collector (script : Script) : Except GoString Collector :=
  ((if platform.ebpf then newCollector else stubCollector).exec
    (CollectorOp.interpret script.collectorFault calledAtAll) .none).1

end Inputs

/-! ## Uninterrupted steps -/

section Steps

variable {platform : Platform} {flags : Flags} {scene : Scene}

theorem exec_perform_bind {Result : Type} (operation : SysOp)
    (following : operation.Answer → SysProgram Result) (scene : Scene) :
    (perform operation >>= following).exec play scene =
      (following (play operation scene).1).exec play (play operation scene).2 := rfl

theorem exec_readProc {Value : Type} {path : GoString}
    {parse : GoString → Value × Option ProcError} {answer : Except GoString GoString}
    (answers : play (.openFile path) scene = scene.advance (.openFile path) answer) :
    (readProc platform path parse).exec play scene =
      (opened platform path parse answer, scene) := by
  rw [readProc, exec_perform_bind, answers]
  cases answer with
  | error err => rfl
  | ok r =>
      have restored : SysOp.advance (.closeFile path) ()
          (SysOp.advance (.openFile path) (.ok r) scene.host) = scene.host := by
        simp [SysOp.advance]
      have back : ((scene.advance (.openFile path) (.ok r)).2.advance (.closeFile path) ()).2 =
          scene := by
        rw [Scene.advance, Scene.advance]
        dsimp only
        rw [restored]
      simp only [Scene.advance, opened]
      rcases parse r with ⟨value, rejected⟩
      rw [exec_perform_bind]
      cases rejected with
      | some err => exact congrArg (Prod.mk _) back
      | none => exact congrArg (Prod.mk _) back

theorem exec_readCPUTimes :
    (readCPUTimes platform).exec play scene = (scene.current.cpu platform, scene) := by
  apply exec_readProc
  rw [play, if_pos rfl]

theorem exec_readMemInfo :
    (readMemInfo platform).exec play scene = (scene.current.mem platform, scene) := by
  apply exec_readProc
  have different : text "/proc/meminfo" ≠ text "/proc/stat" := by decide
  rw [play, if_neg different, if_pos rfl]

theorem exec_readNetIO :
    (Process.readNetIO platform).exec play scene = (scene.current.net platform, scene) := by
  apply exec_readProc
  have different : text "/proc/net/dev" ≠ text "/proc/stat" ∧
      text "/proc/net/dev" ≠ text "/proc/meminfo" := by
    decide
  rw [play, if_neg different.1, if_neg different.2]

theorem exec_readDiskUsage (path : GoString) :
    (readDiskUsage platform path).exec play scene =
      (scene.current.disk platform path, scene) := by
  rw [readDiskUsage, exec_perform_bind, play, Scene.advance, Reading.disk]
  cases scene.current.statfs <;> rfl

theorem exec_orReturn {Value : Type} {reading : SysProgram (Except GoString Value)}
    {following : Value → SysProgram Ending} {result : Except GoString Value} :
    reading.exec play scene = (result, scene) →
      (orReturn reading following).exec play scene =
        match result with
        | .error err => (.returned err, scene)
        | .ok value => (following value).exec play scene := by
  intro reads
  rw [orReturn, Program.exec_bind, reads]
  cases result <;> rfl

theorem exec_readLatency (platform : Platform) (bpfCol : Bool) (scene : Scene) :
    ∃ kernel, (readLatency platform bpfCol).exec play scene =
      (if bpfCol then ((refreshLatency platform.errKeyNotExist).exec
        (HistOp.interpret scene.current.fault) scene.kernel).1 else [],
        { scene with kernel := kernel }) := by
  cases bpfCol with
  | false => exact ⟨scene.kernel, rfl⟩
  | true =>
      refine ⟨((refreshLatency platform.errKeyNotExist).exec
        (HistOp.interpret scene.current.fault) scene.kernel).2, ?_⟩
      rw [readLatency, if_pos rfl, if_pos rfl, Program.exec_translate]
      refine Program.exec_focus (fun kernel => { scene with kernel := kernel }) ?_ _ scene.kernel
      exact fun _ _ => rfl

def Scene.holding (held : Holdings) (scene : Scene) : Scene :=
  { scene with host := { scene.host with held := held } }

theorem exec_onCollector {Result : Type} (program : CollectorProgram Result) (scene : Scene) :
    ∃ held, (onCollector program).exec play scene =
      ((program.exec (CollectorOp.interpret scene.collectorFault calledAtAll) scene.host.held).1,
        scene.holding held) := by
  refine ⟨(program.exec (CollectorOp.interpret scene.collectorFault calledAtAll)
    scene.host.held).2, ?_⟩
  rw [Program.exec_translate]
  refine Program.exec_focus (fun held => scene.holding held) ?_ _ scene.host.held
  exact fun _ _ => rfl

end Steps

/-! ## Uninterrupted runs -/

section Runs

variable (platform : Platform) (flags : Flags)

def endingOf : Option GoString → Ending
  | none => .waiting
  | some err => .returned err

/-- The screens of the frames, each drawn in the order of its reading. -/
def shown (frames : List Frame) (readings : List Reading) : List GoString :=
  List.zipWith (fun frame reading =>
    screen platform.outOfRange frame (reading.visit frame.netRates).order) frames readings

variable {platform flags}

/-- The frames and the error of the loop for the given readings. -/
def played (platform : Platform) (flags : Flags) (bpfCol : Bool) (prev : Sample)
    (readings : List Reading) : List Frame × Option GoString :=
  Cmd.loop platform.errKeyNotExist bpfCol prev
    (readings.map (Reading.tick platform flags.mountPath))

/-- The frame of a refresh whose readings have succeeded. -/
def frameAt (platform : Platform) (bpfCol : Bool) (prev : Sample) (curCPU : List CPUTimes)
    (mem : MemInfo) (diskUsage : DiskUsage) (curNet : List NetIO) (scene : Scene) : Frame where
  cpuPct := cpuPercent prev.cpu curCPU
  mem := mem
  diskUsage := diskUsage
  netRates := computeNetThroughput prev.net curNet (elapsedSeconds prev.time scene.current.now)
  latencyBuckets :=
    if bpfCol then
      ((refreshLatency platform.errKeyNotExist).exec (HistOp.interpret scene.current.fault)
        scene.kernel).1
    else []

def Scene.draw (platform : Platform) (frame : Frame) (scene : Scene) : Host :=
  { scene.host with written := scene.host.written ++
    [screen platform.outOfRange frame (scene.current.visit frame.netRates).order] }

/-- A frame is computed and drawn, and the loop goes on. -/
theorem exec_display (platform : Platform) (bpfCol : Bool) (prev : Sample)
    (curCPU : List CPUTimes) (mem : MemInfo) (diskUsage : DiskUsage) (curNet : List NetIO)
    (following : Sample → SysProgram Ending) (scene : Scene) :
    ∃ next : Scene,
      (display platform bpfCol prev curCPU mem diskUsage curNet following).exec play scene =
        (following ⟨curCPU, curNet, scene.current.now⟩).exec play next ∧
      next.later = scene.later ∧ next.collectorFault = scene.collectorFault ∧
      next.host = scene.draw platform
        (frameAt platform bpfCol prev curCPU mem diskUsage curNet scene) := by
  rcases exec_readLatency platform bpfCol scene with ⟨kernel, latency⟩
  have isNow : play .now scene = (scene.current.now, scene) := rfl
  have visits : ∀ net scene', play (.range net) scene' = (scene'.current.visit net, scene') :=
    fun _ _ => rfl
  refine ⟨{ scene with
    kernel := kernel
    host := scene.draw platform
      (frameAt platform bpfCol prev curCPU mem diskUsage curNet scene) }, ?_, rfl, rfl, rfl⟩
  rw [display, exec_perform_bind, isNow]
  dsimp only
  rw [Program.exec_bind, latency]
  dsimp only
  rw [exec_perform_bind, visits]
  simp only [render_eq]
  rfl

theorem exec_loop (platform : Platform) (flags : Flags) (bpfCol : Bool) (readings : List Reading)
    (prev : Sample) (scene : Scene) (isLater : scene.later = readings) :
    ∃ final, (loop platform flags bpfCol readings.length prev).exec play scene =
        (endingOf (played platform flags bpfCol prev readings).2, final) ∧
      final.collectorFault = scene.collectorFault ∧
      final.host.written = scene.host.written ++
        shown platform (played platform flags bpfCol prev readings).1 readings ∧
      final.host = { scene.host with written := final.host.written } := by
  induction readings generalizing prev scene with
  | nil => exact ⟨scene, rfl, rfl, (List.append_nil _).symm, rfl⟩
  | cons reading readings ih =>
      have ticked : play .waitTick scene = ((), { scene with
          current := reading
          kernel := reading.kernel
          later := readings }) := by
        rw [play, isLater]
      rw [List.length_cons, loop, exec_perform_bind, ticked, played, List.map_cons, Cmd.loop]
      rw [exec_orReturn exec_readCPUTimes]
      simp only [Cmd.refresh, Reading.tick]
      cases reading.cpu platform with
      | error err => exact ⟨_, rfl, rfl, (List.append_nil _).symm, rfl⟩
      | ok curCPU =>
          dsimp only
          rw [exec_orReturn exec_readMemInfo]
          dsimp only
          cases reading.mem platform with
          | error err => exact ⟨_, rfl, rfl, (List.append_nil _).symm, rfl⟩
          | ok mem =>
              dsimp only
              rw [exec_orReturn (exec_readDiskUsage _)]
              dsimp only
              cases reading.disk platform flags.mountPath with
              | error err => exact ⟨_, rfl, rfl, (List.append_nil _).symm, rfl⟩
              | ok diskUsage =>
                  dsimp only
                  rw [exec_orReturn exec_readNetIO]
                  dsimp only
                  cases reading.net platform with
                  | error err => exact ⟨_, rfl, rfl, (List.append_nil _).symm, rfl⟩
                  | ok curNet =>
                      dsimp only
                      rcases exec_display platform bpfCol prev curCPU mem diskUsage curNet
                        (loop platform flags bpfCol readings.length)
                        { scene with
                          current := reading
                          kernel := reading.kernel
                          later := readings } with ⟨next, displayed, isRest, sameFault, drawn⟩
                      rw [displayed]
                      rcases ih ⟨curCPU, curNet, reading.now⟩ next isRest with
                        ⟨final, ran, fault, written, host⟩
                      rw [drawn] at written host
                      refine ⟨final, ran, fault.trans sameFault, ?_, host⟩
                      rw [written]
                      exact List.append_assoc _ [_] _

theorem exec_deferring {body : SysProgram Ending} {scene next : Scene} {ending : Ending}
    (ran : body.exec play scene = (ending, next)) (deferred : SysProgram Unit) :
    (deferring body deferred).exec play scene =
      (ending, if ending = .waiting then next else (deferred.exec play next).2) := by
  rw [deferring, Program.exec_bind, ran]
  cases ending with
  | waiting => rfl
  | returned err => exact Program.exec_bind _ _ _
  | panicked => exact Program.exec_bind _ _ _

/-- The part of `Cmd.run` that takes samples. -/
def sampled (platform : Platform) (flags : Flags) (bpfCol : Bool) (first : Reading)
    (later : List Reading) : List Frame × Option GoString :=
  match first.cpu platform with
  | .error err => ([], some err)
  | .ok prevCPU =>
    match first.net platform with
    | .error err => ([], some err)
    | .ok prevNet => played platform flags bpfCol ⟨prevCPU, prevNet, first.now⟩ later

theorem exec_sampling (platform : Platform) (positive : 0 < flags.interval) (bpfCol : Bool)
    (scene : Scene) :
    ∃ final, (sampling platform flags bpfCol scene.later.length).exec play scene =
        (endingOf (sampled platform flags bpfCol scene.current scene.later).2, final) ∧
      final.collectorFault = scene.collectorFault ∧
      final.host.written = scene.host.written ++
        shown platform (sampled platform flags bpfCol scene.current scene.later).1 scene.later ∧
      final.host =
        { scene.host with written := final.host.written, ticking := final.host.ticking } := by
  rw [sampling, exec_orReturn exec_readCPUTimes, sampled]
  cases scene.current.cpu platform with
  | error err => exact ⟨scene, rfl, rfl, (List.append_nil _).symm, rfl⟩
  | ok prevCPU =>
      dsimp only
      rw [exec_orReturn exec_readNetIO]
      cases scene.current.net platform with
      | error err => exact ⟨scene, rfl, rfl, (List.append_nil _).symm, rfl⟩
      | ok prevNet =>
          dsimp only
          rw [exec_perform_bind, if_neg positive.not_ge, exec_perform_bind]
          rcases exec_loop platform flags bpfCol scene.later
            ⟨prevCPU, prevNet, (play .now scene).1⟩
            (play (.newTicker flags.interval) (play .now scene).2).2 rfl with
            ⟨final, ran, fault, written, host⟩
          rw [exec_deferring ran]
          refine ⟨_, rfl, ?_⟩
          split
          · refine ⟨fault, written, host.trans ?_⟩
            rw [host]
            rfl
          · refine ⟨fault, written, ?_⟩
            change { final.host with ticking := false } =
              { scene.host with written := final.host.written, ticking := false }
            rw [host]
            rfl

/-- The frames and the error of `Cmd.run` for the readings of a script. -/
def Script.outcome (platform : Platform) (flags : Flags) (script : Script) :
    List Frame × Option GoString :=
  Cmd.run platform.errKeyNotExist flags.useEBPF ((script.collector platform).map fun _ => ())
    (script.first.cpu platform) (script.first.net platform) script.first.now
    (script.later.map (Reading.tick platform flags.mountPath))

/-- What is written to the standard error when the collector is attached. -/
def Script.announced (platform : Platform) (flags : Flags) (script : Script) : List GoString :=
  if flags.useEBPF && (script.collector platform).isOk then [attached] else []

theorem outcome_of_not_requested {script : Script} (notRequested : flags.useEBPF = false) :
    script.outcome platform flags = sampled platform flags false script.first script.later := by
  unfold Script.outcome Cmd.run
  rw [notRequested]
  rfl

theorem outcome_of_ok {script : Script} (requested : flags.useEBPF = true) {c : Collector}
    (started : script.collector platform = .ok c) :
    script.outcome platform flags = sampled platform flags true script.first script.later := by
  unfold Script.outcome Cmd.run
  rw [requested, started]
  rfl

theorem outcome_of_error {script : Script} (requested : flags.useEBPF = true) {err : GoString}
    (failed : script.collector platform = .error err) :
    script.outcome platform flags = ([], some (text "eBPF collector: " ++ err ++
      text "\n(tip: run as root, and ensure kernel 5.8+ with BTF)")) := by
  unfold Script.outcome Cmd.run
  rw [requested, failed]
  rfl

theorem exec_collecting (platform : Platform) (positive : 0 < flags.interval) (script : Script)
    (scene : Scene) (same : scene = { script.scene with host := scene.host })
    (holds : scene.host.held = .none) :
    ∃ final, (collecting platform flags script.later.length).exec play scene =
        (endingOf (script.outcome platform flags).2, final) ∧
      final.host.written = scene.host.written ++
        shown platform (script.outcome platform flags).1 script.later ∧
      final.host.errors = scene.host.errors ++ script.announced platform flags ∧
      final.host.exit = scene.host.exit := by
  have isLater : scene.later = script.later := congrArg Scene.later same
  have isFirst : scene.current = script.first := congrArg Scene.current same
  rw [collecting, Script.announced]
  cases requested : flags.useEBPF with
  | false =>
      rcases exec_sampling platform positive false scene with ⟨final, ran, _, written, host⟩
      rw [isLater, isFirst] at ran written
      rw [outcome_of_not_requested requested]
      refine ⟨final, ran, written, ?_, ?_⟩
      · rw [host]
        exact (List.append_nil _).symm
      · rw [host]
  | true =>
      rw [if_pos rfl, Program.exec_bind]
      rcases exec_onCollector (if platform.ebpf then newCollector else stubCollector) scene with
        ⟨held, setup⟩
      have isResult : ((if platform.ebpf then newCollector else stubCollector).exec
          (CollectorOp.interpret scene.collectorFault calledAtAll) scene.host.held).1 =
            script.collector platform := by
        rw [holds, congrArg Scene.collectorFault same]
        rfl
      rw [setup, isResult]
      cases started : script.collector platform with
      | error err =>
          rw [outcome_of_error requested started]
          exact ⟨_, rfl, (List.append_nil _).symm, (List.append_nil _).symm, rfl⟩
      | ok c =>
          rw [outcome_of_ok requested started]
          dsimp only
          rcases exec_sampling platform positive true
            (play (.printErr attached) (scene.holding held)).2 with ⟨last, ran, _, written, host⟩
          change (sampling platform flags true scene.later.length).exec play _ =
            (endingOf (sampled platform flags true scene.current scene.later).2, last) at ran
          change last.host.written = scene.host.written ++
            shown platform (sampled platform flags true scene.current scene.later).1
              scene.later at written
          rw [isLater, isFirst] at ran written
          have body : (perform (.printErr attached) >>= fun _ =>
              sampling platform flags true script.later.length).exec play (scene.holding held) =
              (endingOf (sampled platform flags true script.first script.later).2, last) := ran
          rcases exec_onCollector c.close last with ⟨left, closed⟩
          rw [exec_deferring body, closed]
          refine ⟨_, rfl, ?_⟩
          split
          · rw [host]
            exact ⟨written, rfl, rfl⟩
          · rw [Scene.holding, host]
            exact ⟨written, rfl, rfl⟩

theorem exec_run (platform : Platform) (positive : 0 < flags.interval) (script : Script) :
    ∃ final, (run platform flags script.later.length).exec play script.scene =
        (endingOf (script.outcome platform flags).2, final) ∧
      final.host.written = hideCursor ::
        (shown platform (script.outcome platform flags).1 script.later ++
          if (script.outcome platform flags).2 = none then [] else [showCursor]) ∧
      final.host.errors = script.announced platform flags ∧ final.host.exit = none := by
  rw [run, exec_perform_bind]
  rcases exec_collecting platform positive script { script.scene with host :=
    { Host.initial with written := [hideCursor], notified := true, spawned := true } } rfl rfl
    with ⟨last, ran, written, errors, exit⟩
  have body : (do
      perform .notify
      perform .spawn
      collecting platform flags script.later.length : SysProgram Ending).exec play
      (play (.print hideCursor) script.scene).2 =
        (endingOf (script.outcome platform flags).2, last) := ran
  rw [exec_deferring body]
  refine ⟨_, rfl, ?_⟩
  cases ended : (script.outcome platform flags).2 with
  | none =>
      rw [if_pos (show endingOf none = .waiting from rfl), if_pos rfl, List.append_nil]
      exact ⟨written, errors, exit⟩
  | some err =>
      rw [if_neg (show endingOf (some err) ≠ .waiting from nofun), if_neg (Option.some_ne_none err)]
      exact ⟨congrArg (· ++ [showCursor]) written, errors, exit⟩

/-- The process writes the frames that `Cmd.run` makes of the readings, in order and nothing else,
between the control sequences for the cursor. It ends if and only if `Cmd.run` ends with an
error. -/
theorem exec_main (platform : Platform) (accepted : flags.refused = none)
    (positive : 0 < flags.interval) (script : Script) :
    ∃ final, (main platform flags script.later.length).exec play script.scene = ((), final) ∧
      final.host.written = hideCursor ::
        (shown platform (script.outcome platform flags).1 script.later ++
          if (script.outcome platform flags).2 = none then [] else [showCursor]) ∧
      final.host.errors = script.announced platform flags ++
        ((script.outcome platform flags).2.map fun err =>
          text "sysmon: " ++ err ++ text "\n").toList ∧
      final.host.exit = (script.outcome platform flags).2.map fun _ => .code 1 := by
  rcases exec_run platform positive script with ⟨last, ran, written, errors, exit⟩
  rw [main, accepted]
  dsimp only
  rw [runToEnd, Program.exec_bind, ran]
  refine ⟨_, rfl, ?_⟩
  cases ended : (script.outcome platform flags).2 with
  | none =>
      rw [ended] at written
      exact ⟨written, errors.trans (List.append_nil _).symm, exit⟩
  | some err =>
      rw [ended] at written
      exact ⟨written, congrArg (· ++ [_]) errors, rfl⟩

end Runs

end Sysmon.Cmd.Process
