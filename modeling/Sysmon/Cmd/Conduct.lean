import Sysmon.Cmd.Process

/-!
# The conduct of the main goroutine

This file says what the main goroutine may do to the process, and that it does
nothing else. Files are closed before the next one is opened, links are
detached before the objects are closed, the histogram is used only while it is
loaded, and the process is ended only after everything has been given back and
the cursor is shown again.

Two things rest on the environment. Objects stay loaded if one of them cannot
be closed, and a frame contains what the mount path and the names of the
interfaces contain. The contract has a condition for each.
-/

namespace Sysmon.Cmd.Process

open Sysmon.Go Sysmon.Stats Sysmon.Ebpf

/-- The operation does not misuse what the process holds, and what ends the process with an error
comes after everything has been given back. -/
def Orderly (operation : SysOp) (host : Host) : Prop :=
  match operation with
  | .collector (.attach _) => host.held.objects = closeOrder
  | .collector (.closeLink link) => link ∈ host.held.links
  | .collector (.closeObject object) => host.held.links = [] ∧ object ∈ host.held.objects
  | .hist _ => .ioLatencyHist ∈ host.held.objects
  | .openFile _ => host.files = []
  | .closeFile path => path ∈ host.files
  | .newTicker interval => 0 < interval ∧ host.ticking = false
  | .waitTick => host.ticking = true ∧ host.files = []
  | .exit code => code = 0 ∨ host.files = [] ∧ host.held.links = [] ∧ host.ticking = false
  | _ => True

/-- The text of an error names what has failed. -/
def NamesSource (platform : Platform) (flags : Flags) (err : GoString) : Prop :=
  ∃ source ∈ [text "/proc/stat", text "/proc/meminfo", text "/proc/net/dev",
    text "statfs " ++ platform.quote flags.mountPath, text "eBPF collector: "], source <:+: err

/-- The last error that was written says why `run` has returned. -/
def Reported (platform : Platform) (flags : Flags) (errors : List GoString) : Prop :=
  ∃ err, NamesSource platform flags err ∧
    errors.getLast? = some (text "sysmon: " ++ err ++ text "\n")

/-- What the main goroutine may do, as far as the outside is concerned. Before `signal.Notify`, it
may only hide the cursor, or end the process without having done anything, as `flag.Parse` asks. -/
def Outward (platform : Platform) (flags : Flags) (clean reliable : Prop) : SysOp → Host → Prop
  | .notify, _ => True
  | .print s, host =>
    if host.notified then s = showCursor ∨ (clean → IsScreen s)
    else s = hideCursor ∧ host.written = []
  | .printErr s, host =>
    host.notified = true ∨ ∃ refusal ∈ flags.refused, s = refusal.message
  | .receiveSignal, _ => False
  | .exit code, host =>
    (∃ refusal ∈ flags.refused, code = refusal.status ∧ host.notified = false ∧
      host.written = [] ∧ host.held = .none) ∨
      host.notified = true ∧ host.written.getLast? = some showCursor ∧
        (reliable → host.held.objects = []) ∧
        (code = 1 ∧ Reported platform flags host.errors ∨ code = 2 ∧ flags.interval ≤ 0)
  | _, host => host.notified = true

/-- What the environment promises: under the condition `reliable`, objects can be closed, and under
the condition `clean`, there are no escape bytes in the names of interfaces. -/
def Promised (clean reliable : Prop) : (operation : SysOp) → operation.Answer → Prop
  | .collector (.closeObject _), answer => reliable → answer = none
  | .openFile path, .ok r => path = text "/proc/net/dev" → clean → escape ∉ r
  | _, _ => True

def mainContract (platform : Platform) (flags : Flags) (clean reliable : Prop) :
    Contract SysOp.Answer Host where
  allowed operation host :=
    Orderly operation host ∧ Outward platform flags clean reliable operation host
  expected := Promised clean reliable
  advance := SysOp.advance

section Main

variable {platform : Platform} {flags : Flags} {clean reliable : Prop} {host : Host}

/-! ## Control flow -/

section Control

variable {Ghost : Type*} {contract : Contract SysOp.Answer Ghost} {post : Ending → Ghost → Prop}
  {ghost : Ghost}

/-- What reads and leaves the ghost variable alone is followed by what the reading allows. -/
theorem meets_orReturn {Value : Type} {reading : SysProgram (Except GoString Value)}
    {following : Value → SysProgram Ending} {holds : Value → Prop} {names : GoString → Prop}
    (reads : reading.Meets contract (fun result next => next = ghost ∧
      (∀ err, result = .error err → names err) ∧ ∀ value, result = .ok value → holds value) ghost)
    (returns : ∀ err, names err → post (.returned err) ghost)
    (continues : ∀ value, holds value → (following value).Meets contract post ghost) :
    (orReturn reading following).Meets contract post ghost := by
  apply Program.Meets.bind reads
  rintro (err | value) next ⟨rfl, fails, succeeds⟩
  · exact returns err (fails err rfl)
  · exact continues value (succeeds value rfl)

theorem meets_deferring {body : SysProgram Ending} {deferred : SysProgram Unit}
    {middle : Ending → Ghost → Prop} (meets : body.Meets contract middle ghost)
    (waits : ∀ next, middle .waiting next → post .waiting next)
    (ends : ∀ ended next, ended ≠ .waiting → middle ended next →
      deferred.Meets contract (fun _ final => post ended final) next) :
    (deferring body deferred).Meets contract post ghost := by
  apply Program.Meets.bind meets
  rintro (_ | err | _) next reached
  · exact waits next reached
  · exact Program.meets_bind.mpr (ends (.returned err) next (by simp) reached)
  · exact Program.meets_bind.mpr (ends .panicked next (by simp) reached)

end Control

/-! ## Readings -/

section Readings

variable (notified : host.notified = true) (closed : host.files = [])

include notified closed in
theorem meets_readProc {Value : Type} {path : GoString}
    {parse : GoString → Value × Option ProcError}
    (names : ∀ {r err}, (parse r).2 = some err → err.Names path) :
    (readProc platform path parse).Meets (mainContract platform flags clean reliable)
      (fun result next => next = host ∧ (∀ err, result = .error err → path <:+: err) ∧
        ∀ value, result = .ok value →
          ∃ r, parse r = (value, none) ∧ (path = text "/proc/net/dev" → clean → escape ∉ r))
      host := by
  rw [readProc, Program.meets_perform_bind]
  refine ⟨⟨closed, notified⟩, ?_⟩
  rintro (err | r) promised
  · refine ⟨rfl, ?_, nofun⟩
    rintro _ ⟨⟩
    rw [List.append_assoc]
    exact List.infix_append _ _ _
  · dsimp only
    rw [Program.meets_perform_bind]
    refine ⟨⟨List.mem_cons_self, notified⟩, ?_⟩
    intro _ _
    have restored : SysOp.advance (.closeFile path) ()
        (SysOp.advance (.openFile path) (.ok r) host) = host := by
      simp [SysOp.advance]
    cases parsed : parse r with
    | mk value rejected =>
        cases rejected with
        | some err =>
            refine ⟨restored, ?_, nofun⟩
            rintro _ ⟨⟩
            apply names (r := r)
            rw [parsed]
        | none =>
            refine ⟨restored, nofun, ?_⟩
            rintro _ ⟨⟩
            exact ⟨r, parsed, promised⟩

include notified in
theorem meets_readDiskUsage {path : GoString} :
    (readDiskUsage platform path).Meets (mainContract platform flags clean reliable)
      (fun result next => next = host ∧
        (∀ err, result = .error err → text "statfs " ++ platform.quote path <:+: err) ∧
        ∀ value, result = .ok value → value.path = path) host := by
  rw [readDiskUsage, Program.meets_perform_bind]
  refine ⟨⟨trivial, notified⟩, ?_⟩
  rintro (err | stat) _
  · refine ⟨rfl, ?_, nofun⟩
    rintro _ ⟨⟩
    rw [List.append_assoc]
    exact (List.prefix_append _ _).isInfix
  · refine ⟨rfl, nofun, ?_⟩
    rintro _ ⟨⟩
    rfl

theorem escape_notMem_bucketLabel (i : UInt32) : escape ∉ bucketLabel i := by
  have literals : escape ∉ text "<1 µs" ∧ escape ∉ text "–" ∧ escape ∉ text " µs" := by
    decide
  rw [bucketLabel]
  split
  · exact literals.1
  · simp [literals, escape_notMem_formatDecimal]

theorem escape_notMem_label_readBucket {buckets : List LatencyBucket}
    (labels : ∀ b ∈ buckets, escape ∉ b.label) (i : Fin histBuckets) (count : UInt64) :
    ∀ b ∈ buckets ++ [readBucket i count], escape ∉ b.label := by
  intro b present
  rcases List.mem_append.mp present with before | last
  · exact labels b before
  · rw [List.mem_singleton.mp last]
    exact escape_notMem_bucketLabel _

section Histogram

variable {contract : Contract HistOp.Answer Host} {errKeyNotExist : GoString}
  (allowed : ∀ operation, contract.allowed operation host)
  (unchanged : ∀ operation answer, contract.advance operation answer host = host)

include allowed unchanged

theorem meets_readBuckets (indices : List (Fin histBuckets)) {buckets : List LatencyBucket}
    (labels : ∀ b ∈ buckets, escape ∉ b.label) :
    (readBuckets errKeyNotExist buckets indices).Meets contract
      (fun result next => next = host ∧
        ∀ read, result = .ok read → ∀ b ∈ read, escape ∉ b.label) host := by
  induction indices generalizing buckets with
  | nil =>
      refine ⟨rfl, ?_⟩
      rintro _ ⟨⟩
      exact labels
  | cons i indices ih =>
      rw [readBuckets_cons, Program.meets_call]
      refine ⟨allowed _, fun answer _ => ?_⟩
      rw [unchanged]
      rcases answer with err | count
      · dsimp only
        split
        · exact ih (escape_notMem_label_readBucket labels i 0)
        · exact ⟨rfl, nofun⟩
      · exact ih (escape_notMem_label_readBucket labels i count)

theorem meets_refreshLatency :
    (refreshLatency errKeyNotExist).Meets contract
      (fun latencyBuckets next => next = host ∧ ∀ b ∈ latencyBuckets, escape ∉ b.label) host := by
  rw [refreshLatency]
  apply Program.Meets.bind
    (meets_readBuckets allowed unchanged (List.finRange histBuckets) (by simp))
  rintro result next ⟨rfl, labels⟩
  apply Program.Meets.bind (Program.meets_of_unchanged allowed unchanged _)
  rintro _ _ rfl
  refine ⟨rfl, ?_⟩
  cases result with
  | error err => simp
  | ok read => exact labels read rfl

end Histogram

end Readings

/-! ## The loop -/

section Loop

/-- The loop only writes, and does not panic. -/
def LoopEnds (platform : Platform) (flags : Flags) (host : Host) (ending : Ending) (next : Host) :
    Prop :=
  next = { host with written := next.written } ∧ ending ≠ .panicked ∧
    ∀ err, ending = .returned err → NamesSource platform flags err

theorem loopEnds_of_names {err : GoString} (names : NamesSource platform flags err) :
    LoopEnds platform flags host (.returned err) host := by
  refine ⟨rfl, nofun, ?_⟩
  rintro _ ⟨⟩
  exact names

theorem meets_readLatency (notified : host.notified = true) {bpfCol : Bool}
    (loaded : bpfCol = true → .ioLatencyHist ∈ host.held.objects) :
    (readLatency platform bpfCol).Meets (mainContract platform flags clean reliable)
      (fun latencyBuckets next => next = host ∧ ∀ b ∈ latencyBuckets, escape ∉ b.label) host := by
  cases bpfCol with
  | false => exact ⟨rfl, by simp⟩
  | true =>
      apply (Program.meets_translate _ _).mpr
      exact meets_refreshLatency (fun _ => ⟨loaded rfl, notified⟩) (fun _ _ => rfl)

theorem outward_print (notified : host.notified = true) {s : GoString}
    (writes : s = showCursor ∨ (clean → IsScreen s)) :
    Outward platform flags clean reliable (.print s) host := by
  rw [Outward, if_pos notified]
  exact writes

theorem meets_display (notified : host.notified = true) {bpfCol : Bool}
    (loaded : bpfCol = true → .ioLatencyHist ∈ host.held.objects) {prev : Sample}
    {curCPU : List CPUTimes} {mem : MemInfo} {diskUsage : DiskUsage} {curNet : List NetIO}
    {following : Sample → SysProgram Ending} {post : Ending → Host → Prop}
    (path : clean → escape ∉ diskUsage.path)
    (names : clean → ∀ item ∈ curNet, escape ∉ item.interface)
    (continues : ∀ cur written, (following cur).Meets
      (mainContract platform flags clean reliable) post { host with written := written }) :
    (display platform bpfCol prev curCPU mem diskUsage curNet following).Meets
      (mainContract platform flags clean reliable) post host := by
  rw [display, Program.meets_perform_bind]
  refine ⟨⟨trivial, notified⟩, fun now _ => ?_⟩
  apply Program.Meets.bind (meets_readLatency notified loaded)
  rintro latencyBuckets _ ⟨rfl, labels⟩
  rw [Program.meets_perform_bind]
  refine ⟨⟨trivial, notified⟩, fun visited _ => ?_⟩
  simp only [render_eq]
  rw [Program.meets_perform_bind]
  refine ⟨⟨trivial, outward_print notified (Or.inr ?_)⟩, fun _ _ => continues _ _⟩
  intro isClean
  apply isScreen_screen platform.outOfRange (path isClean) _ labels
  intro entry isEntry inName
  have isKey := (mem_map_fst_iff visited _).mp (List.mem_map_of_mem isEntry)
  rcases exists_of_mem_computeNetThroughput isKey with ⟨item, present, isName⟩
  rw [← isName] at inName
  exact names isClean item present inName

theorem meets_loop (cleanPath : clean → escape ∉ flags.mountPath) (bpfCol : Bool) (ticks : ℕ)
    (prev : Sample) (notified : host.notified = true) (closed : host.files = [])
    (ticking : host.ticking = true)
    (loaded : bpfCol = true → .ioLatencyHist ∈ host.held.objects) :
    (loop platform flags bpfCol ticks prev).Meets (mainContract platform flags clean reliable)
      (LoopEnds platform flags host) host := by
  induction ticks generalizing host prev with
  | zero => exact ⟨rfl, nofun, nofun⟩
  | succ ticks ih =>
      rw [loop, Program.meets_perform_bind]
      refine ⟨⟨⟨ticking, closed⟩, notified⟩, fun _ _ => ?_⟩
      apply meets_orReturn (meets_readProc notified closed names_of_parseCPUTimes)
      · exact fun err names => loopEnds_of_names ⟨_, by simp, names⟩
      intro curCPU _
      apply meets_orReturn (meets_readProc notified closed names_of_parseMemInfo)
      · exact fun err names => loopEnds_of_names ⟨_, by simp, names⟩
      intro mem _
      apply meets_orReturn (meets_readDiskUsage notified)
      · exact fun err names => loopEnds_of_names ⟨_, by simp, names⟩
      intro diskUsage path
      apply meets_orReturn (meets_readProc notified closed names_of_parseNetIO)
      · exact fun err names => loopEnds_of_names ⟨_, by simp, names⟩
      rintro curNet ⟨r, parsed, cleanText⟩
      apply meets_display notified loaded
      · rw [path]
        exact cleanPath
      · exact fun isClean item present inName =>
          cleanText rfl isClean (mem_of_mem_interface parsed present inName)
      · intro cur written
        apply Program.Meets.mono (ih cur _ _ _ _)
        · exact fun _ _ ended => ended
        · exact notified
        · exact closed
        · exact ticking
        · exact loaded

end Loop

/-! ## The collector -/

section Collecting

abbrev collectorContract (platform : Platform) (flags : Flags) (clean reliable : Prop) :
    Contract CollectorOp.Answer Host :=
  (mainContract platform flags clean reliable).comap .collector fun _ => Equiv.refl _

/-- No link is held, and no object either if all of them could be closed. -/
def GivenBack (reliable : Prop) (host next : Host) : Prop :=
  ∃ left, next = { host with held := ⟨[], left⟩ } ∧ (reliable → left = [])

variable (notified : host.notified = true)

include notified

theorem meets_closeLinks (links : List Tracepoint) (objects : List BpfObject)
    (holds : host.held = ⟨links, objects⟩) :
    (closeLinks links).Meets (collectorContract platform flags clean reliable)
      (fun _ next => next = { host with held := ⟨[], objects⟩ }) host := by
  induction links generalizing host with
  | nil =>
      rw [← holds]
      rfl
  | cons link links ih =>
      rw [closeLinks, Program.meets_perform_bind]
      refine ⟨⟨?_, notified⟩, fun answer _ => ?_⟩
      · rw [Orderly, holds]
        exact List.mem_cons_self
      · have detached : SysOp.advance (.collector (.closeLink link)) answer host =
            { host with held := ⟨links, objects⟩ } := by
          simp [SysOp.advance, CollectorOp.advance, GivenUp, calledAtAll, holds]
        apply Program.Meets.mono (ih _ _)
        · exact fun _ _ closed => closed
        · exact notified
        · exact congrArg Host.held detached

theorem meets_closeEach (objects rest : List BpfObject)
    (holds : host.held = ⟨[], objects ++ rest⟩) :
    (blockLatencyClose (objects.map fun object => request (.closeObject object))).Meets
      (collectorContract platform flags clean reliable)
      (fun err next => ∃ left, next = { host with held := ⟨[], left⟩ } ∧
        (err = none → left = rest) ∧ (err ≠ none → ¬reliable)) host := by
  induction objects generalizing host with
  | nil =>
      refine ⟨rest, ?_, fun _ => rfl, fun failed => absurd rfl failed⟩
      rw [← List.nil_append rest, ← holds]
  | cons object objects ih =>
      rw [List.map_cons, blockLatencyClose, Program.meets_perform_bind]
      refine ⟨⟨?_, notified⟩, fun answer promised => ?_⟩
      · rw [Orderly, holds]
        exact ⟨rfl, List.mem_cons_self⟩
      · have unloaded : SysOp.advance (.collector (.closeObject object)) answer host =
            { host with held := ⟨[], objects ++ rest⟩ } := by
          simp [SysOp.advance, CollectorOp.advance, GivenUp, calledAtAll, holds]
        cases answer with
        | some err =>
            refine ⟨objects ++ rest, unloaded, by simp, fun _ isReliable => ?_⟩
            exact absurd (promised isReliable) (by simp)
        | none =>
            apply Program.Meets.mono (ih _ _)
            · rintro err next ⟨left, rfl, closed, failed⟩
              exact ⟨left, rfl, closed, failed⟩
            · exact notified
            · exact congrArg Host.held unloaded

theorem meets_closeObjects (holds : host.held = ⟨[], closeOrder⟩) :
    closeObjects.Meets (collectorContract platform flags clean reliable)
      (fun _ next => GivenBack reliable host next) host := by
  rw [closeObjects, blockLatencyClose]
  apply Program.Meets.bind (meets_closeEach notified [.traceRqComplete, .traceRqIssue]
    [.ioLatencyHist, .startTimes] holds)
  rintro (_ | err) _ ⟨left, rfl, closed, failed⟩
  · rw [closed rfl]
    dsimp only
    rw [blockLatencyClose]
    apply Program.Meets.bind (meets_closeEach (by exact notified) [.ioLatencyHist, .startTimes] []
      rfl)
    rintro (_ | err) _ ⟨leftOfMaps, rfl, mapsClosed, mapsFailed⟩
    · exact ⟨leftOfMaps, rfl, fun _ => mapsClosed rfl⟩
    · exact ⟨leftOfMaps, rfl, fun isReliable => absurd isReliable (mapsFailed (by simp))⟩
  · exact ⟨left, rfl, fun isReliable => absurd isReliable (failed (by simp))⟩

theorem meets_close {c : Collector} (holds : host.held = ⟨c.links, closeOrder⟩) :
    c.close.Meets (collectorContract platform flags clean reliable)
      (fun _ next => GivenBack reliable host next) host := by
  rw [Collector.close]
  apply Program.Meets.bind (meets_closeLinks notified _ _ holds)
  rintro _ _ rfl
  apply Program.Meets.bind (meets_closeObjects (by exact notified) rfl)
  exact fun _ _ givenBack => givenBack

/-- What `NewCollector` leaves behind. -/
def Started (reliable : Prop) (host : Host) (result : Except GoString Collector) (next : Host) :
    Prop :=
  match result with
  | .error _ => GivenBack reliable host next
  | .ok c => next = { host with held := ⟨c.links, closeOrder⟩ }

theorem meets_loadBlockLatencyObjects :
    loadBlockLatencyObjects.Meets (collectorContract platform flags clean reliable)
      (fun err next => next = match err with
        | none => { host with held := ⟨host.held.links, closeOrder⟩ }
        | some _ => host) host := by
  have specified : loadBlockLatency.Meets (collectorContract platform flags clean reliable)
      (fun _ next => next = host) host := by
    rw [loadBlockLatency, Program.meets_perform_bind]
    refine ⟨⟨trivial, notified⟩, ?_⟩
    rintro (_ | err) _ <;> rfl
  rw [loadBlockLatencyObjects]
  apply Program.Meets.bind specified
  rintro (_ | err) _ rfl
  · refine ⟨⟨trivial, notified⟩, ?_⟩
    rintro (_ | err) _ <;> rfl
  · rfl

theorem meets_newCollector (holds : host.held = .none) :
    newCollector.Meets (collectorContract platform flags clean reliable)
      (Started reliable host) host := by
  have untouched : ∀ err, Started reliable host (.error err) host :=
    fun err => ⟨[], by rw [← Holdings.none, ← holds], fun _ => rfl⟩
  rw [newCollector, Program.meets_perform_bind]
  refine ⟨⟨trivial, notified⟩, ?_⟩
  rintro (_ | err) _
  · dsimp only
    apply Program.Meets.bind (meets_loadBlockLatencyObjects (by exact notified))
    rintro (_ | err) loaded isLoaded
    · change loaded = { host with held := ⟨host.held.links, closeOrder⟩ } at isLoaded
      rw [holds] at isLoaded
      subst isLoaded
      dsimp only
      rw [Program.meets_perform_bind]
      refine ⟨⟨rfl, notified⟩, ?_⟩
      rintro (_ | err) _
      · dsimp only
        rw [Program.meets_perform_bind]
        refine ⟨⟨rfl, notified⟩, ?_⟩
        rintro (_ | err) _
        · rfl
        · dsimp only
          apply Program.Meets.bind (meets_closeLinks (by exact notified) [.blockRqIssue]
            closeOrder rfl)
          rintro _ _ rfl
          apply Program.Meets.bind (meets_closeObjects (by exact notified) rfl)
          exact fun _ _ givenBack => givenBack
      · dsimp only
        apply Program.Meets.bind (meets_closeObjects (by exact notified) rfl)
        exact fun _ _ givenBack => givenBack
    · subst isLoaded
      exact untouched _
  · exact untouched _

end Collecting

/-! ## `run` and `main` -/

section Whole

/-- Everything has been given back, and an error names what has failed. -/
structure Settled (platform : Platform) (flags : Flags) (reliable : Prop) (ending : Ending)
    (host : Host) : Prop where
  notified : host.notified = true
  files : host.files = []
  links : host.held.links = []
  objects : reliable → host.held.objects = []
  ticking : host.ticking = false
  names : ∀ err, ending = .returned err → NamesSource platform flags err
  panics : ending = .panicked → flags.interval ≤ 0

/-- What is left to do when the part of `run` that samples has ended. -/
structure Sampled (platform : Platform) (flags : Flags) (host : Host) (ending : Ending)
    (next : Host) : Prop where
  written : next = { host with written := next.written }
  names : ∀ err, ending = .returned err → NamesSource platform flags err
  panics : ending = .panicked → flags.interval ≤ 0

theorem sampled_of_names {err : GoString} (names : NamesSource platform flags err) :
    Sampled platform flags host (.returned err) host := by
  refine ⟨rfl, ?_, nofun⟩
  rintro _ ⟨⟩
  exact names

theorem meets_sampling (cleanPath : clean → escape ∉ flags.mountPath) (bpfCol : Bool) (ticks : ℕ)
    (notified : host.notified = true) (closed : host.files = []) (idle : host.ticking = false)
    (loaded : bpfCol = true → .ioLatencyHist ∈ host.held.objects) :
    (sampling platform flags bpfCol ticks).Meets (mainContract platform flags clean reliable)
      (fun ending next => ending ≠ .waiting → Sampled platform flags host ending next) host := by
  apply meets_orReturn (meets_readProc notified closed names_of_parseCPUTimes)
  · exact fun err names _ => sampled_of_names ⟨_, by simp, names⟩
  intro prevCPU _
  apply meets_orReturn (meets_readProc notified closed names_of_parseNetIO)
  · exact fun err names _ => sampled_of_names ⟨_, by simp, names⟩
  intro prevNet _
  rw [Program.meets_perform_bind]
  refine ⟨⟨trivial, notified⟩, fun lastSample _ => ?_⟩
  split
  · rename_i notPositive
    exact fun _ => ⟨rfl, nofun, fun _ => notPositive⟩
  · rename_i positive
    rw [Program.meets_perform_bind]
    refine ⟨⟨⟨not_le.mp positive, idle⟩, notified⟩, fun _ _ => ?_⟩
    apply meets_deferring (meets_loop cleanPath bpfCol ticks _ _ _ _ _)
    · exact fun _ _ waits => absurd rfl waits
    · rintro ended next _ ⟨written, notPanicked, names⟩
      have stillNotified : next.notified = true := by
        rw [written]
        exact notified
      refine ⟨⟨trivial, stillNotified⟩, fun _ _ _ => ⟨?_, names, fun panicked => ?_⟩⟩
      · change { next with ticking := false } = { host with written := next.written }
        rw [written]
        simp [SysOp.advance, mainContract, idle]
      · exact absurd panicked notPanicked
    · exact notified
    · exact closed
    · rfl
    · exact loaded

theorem Sampled.settled {ending : Ending} {next : Host}
    (sampled : Sampled platform flags host ending next) (notified : host.notified = true)
    (closed : host.files = []) (idle : host.ticking = false) (unlinked : host.held.links = [])
    (unloaded : reliable → host.held.objects = []) :
    Settled platform flags reliable ending next := by
  have written := sampled.written
  refine ⟨?_, ?_, ?_, ?_, ?_, sampled.names, sampled.panics⟩ <;> rw [written] <;> assumption

theorem meets_attached (cleanPath : clean → escape ∉ flags.mountPath) (ticks : ℕ)
    (notified : host.notified = true) (closed : host.files = []) (idle : host.ticking = false)
    {c : Collector} (holds : host.held = ⟨c.links, closeOrder⟩) :
    (deferring (do
          perform (.printErr attached)
          sampling platform flags true ticks)
        (onCollector c.close)).Meets (mainContract platform flags clean reliable)
      (fun ending next => ending ≠ .waiting → Settled platform flags reliable ending next)
      host := by
  have loaded : true = true → .ioLatencyHist ∈ host.held.objects := by
    intro _
    rw [holds]
    change BpfObject.ioLatencyHist ∈ closeOrder
    decide
  have samples : (perform (.printErr attached) >>= fun _ =>
        sampling platform flags true ticks).Meets
      (mainContract platform flags clean reliable) (fun ending next => ending ≠ .waiting →
        Sampled platform flags { host with errors := host.errors ++ [attached] } ending next)
      host := by
    rw [Program.meets_perform_bind]
    exact ⟨⟨trivial, Or.inl notified⟩, fun _ _ =>
      meets_sampling cleanPath true ticks (by exact notified) closed idle loaded⟩
  apply meets_deferring samples
  · exact fun _ _ waits => absurd rfl waits
  · intro ended next isEnd sampled
    have written := (sampled isEnd).written
    apply (Program.meets_translate _ _).mpr
    apply Program.Meets.mono (meets_close (c := c) _ _)
    · rintro _ final ⟨left, rfl, unloaded⟩ _
      refine ⟨?_, ?_, rfl, unloaded, ?_, (sampled isEnd).names, (sampled isEnd).panics⟩ <;>
        rw [written] <;> assumption
    · rw [written]
      exact notified
    · rw [written]
      exact holds

theorem meets_collecting (cleanPath : clean → escape ∉ flags.mountPath) (ticks : ℕ)
    (notified : host.notified = true) (closed : host.files = []) (idle : host.ticking = false)
    (holds : host.held = .none) :
    (collecting platform flags ticks).Meets (mainContract platform flags clean reliable)
      (fun ending next => ending ≠ .waiting → Settled platform flags reliable ending next)
      host := by
  rw [collecting]
  split
  · have started : (onCollector (if platform.ebpf then newCollector else stubCollector)).Meets
        (mainContract platform flags clean reliable) (Started reliable host) host := by
      apply (Program.meets_translate _ _).mpr
      split
      · exact meets_newCollector notified holds
      · exact ⟨[], by rw [← Holdings.none, ← holds], fun _ => rfl⟩
    apply Program.Meets.bind started
    rintro (err | c) next isStarted
    · rcases isStarted with ⟨left, rfl, unloaded⟩
      intro _
      refine ⟨notified, closed, rfl, unloaded, idle, ?_, by simp⟩
      rintro _ ⟨⟩
      exact ⟨text "eBPF collector: ", by simp, by simp only [List.append_assoc]; exact
        (List.prefix_append _ _).isInfix⟩
    · change next = { host with held := ⟨c.links, closeOrder⟩ } at isStarted
      subst isStarted
      apply meets_attached cleanPath ticks _ _ _ (c := c) _
      · exact notified
      · exact closed
      · exact idle
      · rfl
  · rename_i notRequested
    apply Program.Meets.mono (meets_sampling cleanPath false ticks notified closed idle (by simp))
    intro ending next sampled ended
    apply (sampled ended).settled notified closed idle
    · rw [holds]
      rfl
    · rw [holds]
      exact fun _ => rfl

theorem meets_run (cleanPath : clean → escape ∉ flags.mountPath) (ticks : ℕ) :
    (run platform flags ticks).Meets (mainContract platform flags clean reliable)
      (fun ending next => ending ≠ .waiting → Settled platform flags reliable ending next ∧
        next.written.getLast? = some showCursor) .initial := by
  rw [run, Program.meets_perform_bind]
  refine ⟨⟨trivial, rfl, rfl⟩, fun _ _ => ?_⟩
  have body : (do
      perform .notify
      perform .spawn
      collecting platform flags ticks : SysProgram Ending).Meets
      (mainContract platform flags clean reliable)
      (fun ending next => ending ≠ .waiting → Settled platform flags reliable ending next)
      { Host.initial with written := [hideCursor] } := by
    rw [Program.meets_perform_bind]
    refine ⟨⟨trivial, trivial⟩, fun _ _ => ?_⟩
    rw [Program.meets_perform_bind]
    refine ⟨⟨trivial, rfl⟩, fun _ _ => ?_⟩
    apply meets_collecting cleanPath ticks <;> rfl
  apply meets_deferring body
  · exact fun _ _ waits => absurd rfl waits
  · intro ended next isEnd settles
    have settled := settles isEnd
    refine ⟨⟨trivial, outward_print settled.notified (Or.inl rfl)⟩, fun _ _ _ => ⟨?_, ?_⟩⟩
    · exact ⟨settled.notified, settled.files, settled.links, settled.objects, settled.ticking,
        settled.names, settled.panics⟩
    · exact List.getLast?_concat

theorem meets_runToEnd (cleanPath : clean → escape ∉ flags.mountPath) (ticks : ℕ) :
    (runToEnd platform flags ticks).Meets (mainContract platform flags clean reliable)
      (fun _ _ => True) .initial := by
  apply Program.Meets.bind (meets_run cleanPath ticks)
  rintro (_ | err | _) next ends
  · trivial
  · rcases ends nofun with ⟨settled, shown⟩
    dsimp only
    rw [Program.meets_perform_bind]
    refine ⟨⟨trivial, Or.inl settled.notified⟩, fun _ _ => ?_⟩
    refine ⟨⟨Or.inr ⟨settled.files, settled.links, settled.ticking⟩, Or.inr ⟨settled.notified,
      shown, settled.objects, Or.inl ⟨rfl, err, settled.names err rfl, ?_⟩⟩⟩, fun _ _ => trivial⟩
    exact List.getLast?_concat
  · rcases ends nofun with ⟨settled, shown⟩
    exact ⟨⟨Or.inr ⟨settled.files, settled.links, settled.ticking⟩, Or.inr ⟨settled.notified,
      shown, settled.objects, Or.inr ⟨rfl, settled.panics rfl⟩⟩⟩, fun _ _ => trivial⟩

/-- The main goroutine keeps its contract. -/
theorem meets_main (cleanPath : clean → escape ∉ flags.mountPath) (ticks : ℕ) :
    (main platform flags ticks).Meets (mainContract platform flags clean reliable)
      (fun _ _ => True) .initial := by
  rw [main]
  split
  · rename_i refusal refused
    rw [Program.meets_perform_bind]
    refine ⟨⟨trivial, Or.inr ⟨refusal, refused, rfl⟩⟩, fun _ _ => ?_⟩
    refine ⟨⟨Or.inr ⟨rfl, rfl, rfl⟩, Or.inl ⟨refusal, refused, rfl, rfl, rfl, rfl⟩⟩,
      fun _ _ => trivial⟩
  · exact meets_runToEnd cleanPath ticks

end Whole

end Main

end Sysmon.Cmd.Process
