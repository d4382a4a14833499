import Sysmon.Cmd.Shutdown
import Sysmon.Library.Replay

/-!
# One frame for every tick

What the main goroutine writes has a fixed form: the cursor is hidden, then
come the frames, and the cursor is shown again if `run` ends. Between two
frames, exactly one tick is awaited. A tick leads to a frame or to the end of
the process, and as long as the process has not ended, the main goroutine can
go on, or has shown a frame for every tick there was. When the next tick is
awaited, all earlier ones have been served.

The invariant is a contract whose ghost variable counts the ticks and the
frames.
-/

namespace Sysmon.Cmd.Process

open Sysmon.Go Sysmon.Stats Sysmon.Ebpf

/-- A text that `render` makes of some frame. -/
def IsFrame (platform : Platform) (s : GoString) : Prop :=
  ∃ (frame : Frame) (iteration : Iteration frame.netRates),
    render platform.outOfRange frame iteration.order = some s

theorem isFrame_screen (platform : Platform) (frame : Frame)
    (iteration : Iteration frame.netRates) :
    IsFrame platform (screen platform.outOfRange frame iteration.order) :=
  ⟨frame, iteration, render_eq platform.outOfRange frame iteration.order⟩

theorem ne_showCursor_of_isFrame {platform : Platform} {s : GoString}
    (isFrame : IsFrame platform s) : s ≠ showCursor := by
  rcases isFrame with ⟨frame, iteration, rendered⟩
  rw [render_eq, Option.some.injEq] at rendered
  rw [← rendered, screen, heading, cursorHome_append_clearDown, showCursor_eq]
  simp

theorem ne_hideCursor_of_isFrame {platform : Platform} {s : GoString}
    (isFrame : IsFrame platform s) : s ≠ hideCursor := by
  rcases isFrame with ⟨frame, iteration, rendered⟩
  rw [render_eq, Option.some.injEq] at rendered
  rw [← rendered, screen, heading, cursorHome_append_clearDown, hideCursor_eq]
  simp

/-! ## The contract -/

inductive Phase where
  | starting
  | running
  | restored
  | exited
deriving DecidableEq

/-- How far the main goroutine has come. -/
structure Progress where
  phase : Phase
  waited : ℕ
  frames : ℕ

def Progress.initial : Progress := ⟨.starting, 0, 0⟩

def Progress.await (progress : Progress) : Progress :=
  { progress with waited := progress.waited + 1 }

/-- The first write hides the cursor, and the write of `showCursor` is the last one. -/
def Progress.print (s : GoString) (progress : Progress) : Progress :=
  match progress.phase with
  | .starting => { progress with phase := .running }
  | .running =>
    if s = showCursor then { progress with phase := .restored }
    else { progress with frames := progress.frames + 1 }
  | _ => progress

section Contract

variable (platform : Platform) (ticks : ℕ)

/-- What may be written. -/
def MayPrint (s : GoString) (progress : Progress) : Prop :=
  match progress.phase with
  | .starting => s = hideCursor
  | .running => s = showCursor ∨ progress.waited = progress.frames + 1 ∧ IsFrame platform s
  | _ => False

def cadence : Contract SysOp.Answer Progress where
  allowed
    | .print s, progress => MayPrint platform s progress
    | .waitTick, progress =>
      progress.phase = .running ∧ progress.waited = progress.frames ∧ progress.waited < ticks
    | .exit _, progress => progress.phase = .starting ∨ progress.phase = .restored
    | .receiveSignal, _ => False
    | _, progress => progress.phase ≠ .exited
  expected _ _ := True
  advance
    | .print s, _, progress => progress.print s
    | .waitTick, _, progress => progress.await
    | .exit _, _, progress => { progress with phase := .exited }
    | _, _, progress => progress

/-- Where a part of `run` ends that does not restore the cursor. -/
def Served (ending : Ending) (progress : Progress) : Prop :=
  progress.phase = .running ∧
    (ending = .waiting → progress.waited = ticks ∧ progress.frames = ticks)

/-- Where `main` ends. -/
def Finished (progress : Progress) : Prop :=
  progress.phase = .exited ∨ Served ticks .waiting progress

end Contract

section Main

variable {platform : Platform} {flags : Flags} {ticks : ℕ} {progress : Progress}

theorem ongoing_of_running (running : progress.phase = .running) : progress.phase ≠ .exited := by
  simp [running]

theorem served_of_ne {ending : Ending} (ended : ending ≠ .waiting)
    (running : progress.phase = .running) : Served ticks ending progress :=
  ⟨running, fun waiting => absurd waiting ended⟩

/-! ## Readings -/

theorem cadence_readProc {Value : Type} (ongoing : progress.phase ≠ .exited) (path : GoString)
    (parse : GoString → Value × Option ProcError) :
    (readProc platform path parse).Meets (cadence platform ticks)
      (fun result next => next = progress ∧ (∀ err, result = .error err → True) ∧
        ∀ value, result = .ok value → True) progress := by
  rw [readProc, Program.meets_perform_bind]
  refine ⟨ongoing, ?_⟩
  rintro (err | r) _
  · simp [cadence]
  · dsimp only
    rw [Program.meets_perform_bind]
    refine ⟨ongoing, fun _ _ => ?_⟩
    cases (parse r).2 <;> simp [cadence]

theorem cadence_readDiskUsage (ongoing : progress.phase ≠ .exited) (path : GoString) :
    (readDiskUsage platform path).Meets (cadence platform ticks)
      (fun result next => next = progress ∧ (∀ err, result = .error err → True) ∧
        ∀ value, result = .ok value → True) progress := by
  rw [readDiskUsage, Program.meets_perform_bind]
  refine ⟨ongoing, ?_⟩
  rintro (err | stat) _ <;> simp [cadence]

theorem cadence_onCollector {Result : Type} (ongoing : progress.phase ≠ .exited)
    (program : CollectorProgram Result) :
    (onCollector program).Meets (cadence platform ticks) (fun _ next => next = progress)
      progress := by
  apply (Program.meets_translate _ _).mpr
  exact Program.meets_of_unchanged (fun _ => ongoing) (fun _ _ => rfl) program

theorem cadence_readLatency (ongoing : progress.phase ≠ .exited) (bpfCol : Bool) :
    (readLatency platform bpfCol).Meets (cadence platform ticks) (fun _ next => next = progress)
      progress := by
  cases bpfCol with
  | false => rfl
  | true =>
      apply (Program.meets_translate _ _).mpr
      exact Program.meets_of_unchanged (fun _ => ongoing) (fun _ _ => rfl) _

/-! ## The loop -/

theorem cadence_print (running : progress.phase = .running)
    (due : progress.waited = progress.frames + 1) {s : GoString} (isFrame : IsFrame platform s)
    {following : SysProgram Ending} {post : Ending → Progress → Prop}
    (continues : following.Meets (cadence platform ticks) post
      { progress with frames := progress.frames + 1 }) :
    (perform (.print s) >>= fun _ => following).Meets (cadence platform ticks) post progress := by
  have shown : progress.print s = { progress with frames := progress.frames + 1 } := by
    simp [Progress.print, running, ne_showCursor_of_isFrame isFrame]
  have allowed : MayPrint platform s progress := by
    simp [MayPrint, running, due, isFrame]
  rw [Program.meets_perform_bind]
  refine ⟨allowed, fun _ _ => ?_⟩
  change following.Meets (cadence platform ticks) post (progress.print s)
  rwa [shown]

theorem cadence_display (running : progress.phase = .running)
    (due : progress.waited = progress.frames + 1) {bpfCol : Bool} {prev : Sample}
    {curCPU : List CPUTimes} {mem : MemInfo} {diskUsage : DiskUsage} {curNet : List NetIO}
    {following : Sample → SysProgram Ending} {post : Ending → Progress → Prop}
    (continues : ∀ cur, (following cur).Meets (cadence platform ticks) post
      { progress with frames := progress.frames + 1 }) :
    (display platform bpfCol prev curCPU mem diskUsage curNet following).Meets
      (cadence platform ticks) post progress := by
  have ongoing := ongoing_of_running running
  rw [display, Program.meets_perform_bind]
  refine ⟨ongoing, fun now _ => ?_⟩
  apply Program.Meets.bind (cadence_readLatency ongoing bpfCol)
  rintro latencyBuckets _ rfl
  rw [Program.meets_perform_bind]
  refine ⟨ongoing, fun visited _ => ?_⟩
  simp only [render_eq]
  apply cadence_print running due
  · exact isFrame_screen platform ⟨_, mem, diskUsage, _, latencyBuckets⟩ visited
  · exact continues _

theorem cadence_loop (bpfCol : Bool) (left : ℕ) (prev : Sample)
    (running : progress.phase = .running) (even : progress.waited = progress.frames)
    (remaining : progress.waited + left = ticks) :
    (loop platform flags bpfCol left prev).Meets (cadence platform ticks) (Served ticks)
      progress := by
  induction left generalizing progress prev with
  | zero => exact ⟨running, fun _ => ⟨by omega, by omega⟩⟩
  | succ left ih =>
      have fails : ∀ err, True → Served ticks (.returned err) progress.await :=
        fun err _ => served_of_ne (by simp) running
      have ongoing : progress.await.phase ≠ .exited := ongoing_of_running running
      rw [loop, Program.meets_perform_bind]
      refine ⟨⟨running, even, by omega⟩, fun _ _ => ?_⟩
      apply meets_orReturn (cadence_readProc ongoing _ _) fails
      intro curCPU _
      apply meets_orReturn (cadence_readProc ongoing _ _) fails
      intro mem _
      apply meets_orReturn (cadence_readDiskUsage ongoing _) fails
      intro diskUsage _
      apply meets_orReturn (cadence_readProc ongoing _ _) fails
      intro curNet _
      apply cadence_display (show progress.await.phase = .running from running)
      · exact congrArg Nat.succ even
      · intro cur
        apply ih cur
        · exact running
        · exact congrArg Nat.succ even
        · simp only [Progress.await]
          omega

/-! ## `run` and `main` -/

theorem cadence_sampling (bpfCol : Bool) (running : progress.phase = .running)
    (unwaited : progress.waited = 0) (unshown : progress.frames = 0) :
    (sampling platform flags bpfCol ticks).Meets (cadence platform ticks) (Served ticks)
      progress := by
  have fails : ∀ err, True → Served ticks (.returned err) progress :=
    fun err _ => served_of_ne (by simp) running
  have ongoing := ongoing_of_running running
  rw [sampling]
  apply meets_orReturn (cadence_readProc ongoing _ _) fails
  intro prevCPU _
  apply meets_orReturn (cadence_readProc ongoing _ _) fails
  intro prevNet _
  rw [Program.meets_perform_bind]
  refine ⟨ongoing, fun lastSample _ => ?_⟩
  split
  · exact served_of_ne (by simp) running
  · rw [Program.meets_perform_bind]
    refine ⟨ongoing, fun _ _ => ?_⟩
    apply meets_deferring (cadence_loop bpfCol ticks _ running (by omega) (by omega))
    · exact fun _ served => served
    · exact fun ended next _ served => ⟨ongoing_of_running served.1, fun _ _ => served⟩

theorem cadence_collecting (running : progress.phase = .running) (unwaited : progress.waited = 0)
    (unshown : progress.frames = 0) :
    (collecting platform flags ticks).Meets (cadence platform ticks) (Served ticks) progress := by
  have ongoing := ongoing_of_running running
  rw [collecting]
  split
  · apply Program.Meets.bind (cadence_onCollector ongoing _)
    rintro (err | c) next rfl
    · exact served_of_ne (by simp) running
    · have samples : (perform (.printErr attached) >>= fun _ =>
            sampling platform flags true ticks).Meets (cadence platform ticks) (Served ticks)
          next := by
        rw [Program.meets_perform_bind]
        exact ⟨ongoing, fun _ _ => cadence_sampling true running unwaited unshown⟩
      apply meets_deferring samples
      · exact fun _ served => served
      · intro ended next _ served
        apply Program.Meets.mono (cadence_onCollector (ongoing_of_running served.1) _)
        rintro _ _ rfl
        exact served
  · exact cadence_sampling false running unwaited unshown

theorem cadence_run :
    (run platform flags ticks).Meets (cadence platform ticks)
      (fun ending next => if ending = .waiting then Served ticks ending next
        else next.phase = .restored) .initial := by
  rw [run, Program.meets_perform_bind]
  refine ⟨rfl, fun _ _ => ?_⟩
  have samples : (perform .notify >>= fun _ => perform .spawn >>= fun _ =>
        collecting platform flags ticks).Meets (cadence platform ticks) (Served ticks)
      ⟨.running, 0, 0⟩ := by
    rw [Program.meets_perform_bind]
    refine ⟨ongoing_of_running rfl, fun _ _ => ?_⟩
    rw [Program.meets_perform_bind]
    exact ⟨ongoing_of_running rfl, fun _ _ => cadence_collecting rfl rfl rfl⟩
  apply meets_deferring samples
  · intro next served
    simpa using served
  · intro ended next notWaiting served
    have restored : (next.print showCursor).phase = .restored := by
      simp [Progress.print, served.1]
    have allowed : MayPrint platform showCursor next := by
      simp [MayPrint, served.1]
    refine ⟨allowed, fun _ _ => ?_⟩
    simpa [cadence, notWaiting] using restored

theorem cadence_runToEnd :
    (runToEnd platform flags ticks).Meets (cadence platform ticks) (fun _ => Finished ticks)
      .initial := by
  rw [runToEnd]
  apply Program.Meets.bind cadence_run
  rintro (_ | err | _) next ended
  · exact Or.inr (by simpa using ended)
  · have isRestored : next.phase = .restored := by simpa using ended
    have ongoing : next.phase ≠ .exited := by simp [isRestored]
    rw [Program.meets_perform_bind]
    refine ⟨ongoing, fun _ _ => ?_⟩
    exact ⟨Or.inr isRestored, fun _ _ => Or.inl rfl⟩
  · have isRestored : next.phase = .restored := by simpa using ended
    exact ⟨Or.inr isRestored, fun _ _ => Or.inl rfl⟩

theorem cadence_main :
    (main platform flags ticks).Meets (cadence platform ticks) (fun _ => Finished ticks)
      .initial := by
  rw [main]
  split
  · have ongoing : Progress.initial.phase ≠ .exited := by simp [Progress.initial]
    rw [Program.meets_perform_bind]
    refine ⟨ongoing, fun _ _ => ?_⟩
    exact ⟨Or.inl rfl, fun _ _ => Or.inl rfl⟩
  · exact cadence_runToEnd

end Main

/-! ## The process -/

abbrev ProcessEntry := Label × Option (Performed SysOp.Answer)

def byMain : ProcessEntry → Option (Performed SysOp.Answer)
  | (.goroutine .main _, performed) => performed
  | _ => none

/-- The operations of the main goroutine. -/
def mainPart (trace : List ProcessEntry) : List (Performed SysOp.Answer) :=
  trace.filterMap byMain

theorem mainPart_concat_of_none {entry : ProcessEntry} (notMain : byMain entry = none)
    (trace : List ProcessEntry) : mainPart (trace ++ [entry]) = mainPart trace := by
  simp [mainPart, notMain]

theorem mainPart_concat_of_some {entry : ProcessEntry} {performed : Performed SysOp.Answer}
    (isMain : byMain entry = some performed) (trace : List ProcessEntry) :
    mainPart (trace ++ [entry]) = mainPart trace ++ [performed] := by
  simp [mainPart, isMain]

def writtenIn : Performed SysOp.Answer → Option GoString
  | ⟨.print s, _⟩ => some s
  | _ => none

def isTick : Performed SysOp.Answer → Bool
  | ⟨.waitTick, _⟩ => true
  | _ => false

/-- What the main goroutine has written. -/
def mainWrites (trace : List ProcessEntry) : List GoString := (mainPart trace).filterMap writtenIn

/-- The ticks that the main goroutine has been given. -/
def ticksTaken (trace : List ProcessEntry) : ℕ := (mainPart trace).countP isTick

/-- The writes have the form that goes with the progress. -/
def Wrote (platform : Platform) (progress : Progress) (writes : List GoString) : Prop :=
  ∃ screens, screens.length = progress.frames ∧ (∀ s ∈ screens, IsFrame platform s) ∧
    match progress.phase with
    | .starting => writes = [] ∧ screens = []
    | .running => writes = hideCursor :: screens
    | .restored => writes = hideCursor :: (screens ++ [showCursor])
    | .exited => writes = [] ∧ screens = [] ∨ writes = hideCursor :: (screens ++ [showCursor])

structure Paced (platform : Platform) (ticks : ℕ) (own : List (Performed SysOp.Answer))
    (progress : Progress) : Prop where
  wrote : Wrote platform progress (own.filterMap writtenIn)
  waited : own.countP isTick = progress.waited
  lower : progress.frames ≤ progress.waited
  upper : progress.waited ≤ progress.frames + 1
  inTime : progress.waited ≤ ticks

section Process

variable {platform : Platform} {flags : Flags} {ticks : ℕ} {trace : List ProcessEntry}
  {progress : Progress}

theorem Paced.initial : Paced platform ticks [] .initial where
  wrote := ⟨[], rfl, by simp, rfl, rfl⟩
  waited := rfl
  lower := le_rfl
  upper := Nat.le_succ _
  inTime := Nat.zero_le _

theorem Paced.silent {own : List (Performed SysOp.Answer)}
    (paced : Paced platform ticks own progress) {performed : Performed SysOp.Answer}
    (writesNothing : writtenIn performed = none) (noTick : isTick performed = false) :
    Paced platform ticks (own ++ [performed]) progress where
  wrote := by simpa [writesNothing] using paced.wrote
  waited := by simpa [noTick] using paced.waited
  lower := paced.lower
  upper := paced.upper
  inTime := paced.inTime

theorem Wrote.print {writes : List GoString} (wrote : Wrote platform progress writes)
    {s : GoString} (allowed : MayPrint platform s progress) :
    Wrote platform (progress.print s) (writes ++ [s]) := by
  rcases wrote with ⟨screens, count, areFrames, form⟩
  unfold MayPrint at allowed
  unfold Progress.print
  cases phase : progress.phase with
  | starting =>
      simp only [phase] at allowed form ⊢
      rcases form with ⟨rfl, rfl⟩
      exact ⟨[], count, by simp, by simp [allowed]⟩
  | running =>
      simp only [phase] at allowed form ⊢
      split
      · rename_i restores
        exact ⟨screens, count, areFrames, by simp [form, restores]⟩
      · rename_i notRestores
        rcases allowed with restores | ⟨_, isFrame⟩
        · exact absurd restores notRestores
        · refine ⟨screens ++ [s], by simp [count], ?_, by simp [form]⟩
          intro other present
          rcases List.mem_append.mp present with before | last
          · exact areFrames other before
          · exact List.mem_singleton.mp last ▸ isFrame
  | restored => simp [phase] at allowed
  | exited => simp [phase] at allowed

theorem frames_print {s : GoString} (allowed : MayPrint platform s progress) :
    (progress.print s).waited = progress.waited ∧
      progress.frames ≤ (progress.print s).frames ∧
      (progress.print s).frames ≤ max progress.frames progress.waited ∧
      (progress.waited ≤ progress.frames + 1 →
        progress.waited ≤ (progress.print s).frames + 1) := by
  unfold MayPrint at allowed
  unfold Progress.print
  cases phase : progress.phase with
  | starting => simp
  | running =>
      simp only [phase] at allowed ⊢
      split
      · simp
      · rename_i notRestores
        rcases allowed with restores | ⟨due, _⟩
        · exact absurd restores notRestores
        · dsimp only
          omega
  | restored => simp
  | exited => simp

theorem Paced.performed {own : List (Performed SysOp.Answer)}
    (paced : Paced platform ticks own progress) {operation : SysOp}
    (allowed : (cadence platform ticks).allowed operation progress) (answer : operation.Answer) :
    Paced platform ticks (own ++ [⟨operation, answer⟩])
      ((cadence platform ticks).advance operation answer progress) := by
  have lower := paced.lower
  have upper := paced.upper
  have inTime := paced.inTime
  cases operation with
  | print s =>
      change Paced platform ticks _ (progress.print s)
      rcases frames_print allowed with ⟨sameTicks, more, notTooMany, close⟩
      constructor
      · simpa [writtenIn] using paced.wrote.print allowed
      · simpa [isTick, sameTicks] using paced.waited
      · omega
      · rw [sameTicks]
        exact close upper
      · rwa [sameTicks]
  | waitTick =>
      change Paced platform ticks _ progress.await
      rcases allowed with ⟨_, even, early⟩
      constructor
      · have unwritten : writtenIn ⟨.waitTick, answer⟩ = none := rfl
        change Wrote platform progress _
        simpa [unwritten] using paced.wrote
      · simpa [isTick, Progress.await] using paced.waited
      all_goals
        simp only [Progress.await]
        omega
  | exit code =>
      have unwritten : writtenIn ⟨.exit code, answer⟩ = none := rfl
      refine ⟨?_, ?_, lower, upper, inTime⟩
      · rcases paced.wrote with ⟨screens, count, areFrames, form⟩
        refine ⟨screens, count, areFrames, ?_⟩
        rcases allowed with isStarting | isRestored
        · simp only [isStarting] at form
          simpa [unwritten, cadence] using Or.inl form
        · simp only [isRestored] at form
          simpa [unwritten, cadence] using Or.inr form
      · simpa [isTick, cadence] using paced.waited
  | receiveSignal => exact allowed.elim
  | _ => exact paced.silent rfl rfl

variable (platform flags ticks)

/-- The main goroutine keeps the cadence, which the trace shows. -/
def InStep (trace : List ProcessEntry) (state : State) : Prop :=
  ∃ progress, (state.programs .main).Meets (cadence platform ticks) (fun _ => Finished ticks)
      progress ∧
    Paced platform ticks (mainPart trace) progress ∧
    (progress.phase = .exited → state.shared.exit ≠ none)

theorem inStep_start : InStep platform ticks [] (start platform flags ticks) :=
  ⟨.initial, cadence_main, Paced.initial, by simp [Progress.initial]⟩

variable {platform flags ticks}

/-- A step that is not the main goroutine's. -/
theorem InStep.other {state next : State} (inStep : InStep platform ticks trace state)
    {entry : ProcessEntry} (running : state.shared.exit = none) (notMain : byMain entry = none)
    (untouched : next.programs .main = state.programs .main) :
    InStep platform ticks (trace ++ [entry]) next := by
  rcases inStep with ⟨progress, meets, paced, exited⟩
  refine ⟨progress, ?_, ?_, fun isExited => ?_⟩
  · rwa [untouched]
  · rwa [mainPart_concat_of_none notMain]
  · exact absurd running (exited isExited)

/-- Of all operations, only `exit` ends the process and the last phase. -/
theorem exit_of_exited {operation : SysOp} {answer : operation.Answer} {host : Host}
    (running : host.exit = none) (early : progress.phase = .exited → host.exit ≠ none)
    (exited : ((cadence platform ticks).advance operation answer progress).phase = .exited) :
    (operation.advance answer host).exit ≠ none := by
  have notYet : progress.phase ≠ .exited := fun isExited => early isExited running
  cases operation with
  | exit code => simp [SysOp.advance]
  | print s =>
      change (progress.print s).phase = .exited at exited
      unfold Progress.print at exited
      cases phase : progress.phase with
      | starting => simp [phase] at exited
      | running =>
          simp only [phase] at exited
          split at exited <;> simp at exited
      | restored => simp [phase] at exited
      | exited => exact absurd phase notYet
  | _ => exact absurd exited notYet

theorem inStep_step {state next : State} {label : Label}
    {output : Option (Performed SysOp.Answer)} (inStep : InStep platform ticks trace state)
    (stepped : step state label = some (output, next)) :
    InStep platform ticks (trace ++ [(label, output)]) next := by
  rcases step_cases stepped with ⟨running, ⟨_, rfl, rfl, rfl⟩ |
    ⟨goroutine, answers, performed, rfl, rfl, _, performs⟩⟩
  · exact inStep.other running rfl rfl
  · cases goroutine with
    | signals =>
        apply inStep.other running rfl
        exact Pool.programs_of_step_of_ne (by simp) performs
    | main =>
        rcases inStep with ⟨progress, meets, paced, exited⟩
        rcases Pool.step_eq_some.mp performs with ⟨operation, following, program, rfl, rfl⟩
        rw [program] at meets
        rcases meets with ⟨allowed, continues⟩
        refine ⟨(cadence platform ticks).advance operation (answers operation) progress,
          ?_, ?_, ?_⟩
        · simpa [interpret] using continues (answers operation) trivial
        · rw [mainPart_concat_of_some rfl]
          exact paced.performed allowed (answers operation)
        · exact exit_of_exited running exited

theorem inStep_run {labels : List Label} {final : State}
    (ran : step.run (start platform flags ticks) labels = some (trace, final)) :
    InStep platform ticks trace final :=
  Machine.run_invariant (inStep_start platform flags ticks)
    (fun _ _ _ _ _ inStep stepped => inStep_step inStep stepped) ran

theorem runs_of_allowed {state : State} {operation : SysOp}
    {following : operation.Answer → SysProgram Unit}
    (program : state.programs .main = .call operation following)
    (allowed : (cadence platform ticks).allowed operation progress) : Runs .main state := by
  refine ⟨by simp, ?_⟩
  rw [program]
  cases operation with
  | receiveSignal => exact allowed.elim
  | _ => exact id

/-- The main goroutine can go on, unless it has shown a frame for every tick. -/
theorem goes_on {state : State} (meets : (state.programs .main).Meets (cadence platform ticks)
      (fun _ => Finished ticks) progress) (running : state.shared.exit = none)
    (early : progress.phase = .exited → state.shared.exit ≠ none) (answers : Answers) :
    (∃ performed next, step state (.goroutine .main answers) = some (some performed, next)) ∨
      progress.waited = ticks ∧ progress.frames = ticks := by
  cases program : state.programs .main with
  | done result =>
      rw [program] at meets
      rcases meets with exited | served
      · exact absurd running (early exited)
      · exact Or.inr (served.2 rfl)
  | call operation following =>
      rw [program] at meets
      have runs := runs_of_allowed program meets.1
      exact Or.inl ⟨_, _, step_goroutine answers running runs program⟩

/-- What the main goroutine does next tells whether every tick has been served. -/
theorem served_of_step {state next : State} (meets : (state.programs .main).Meets
      (cadence platform ticks) (fun _ => Finished ticks) progress) {answers : Answers}
    {performed : Performed SysOp.Answer}
    (stepped : step state (.goroutine .main answers) = some (some performed, next)) :
    (performed.operation = .waitTick → progress.waited = progress.frames) ∧
      ∀ s, performed.operation = .print s → IsFrame platform s →
        progress.waited = progress.frames + 1 := by
  rcases step_cases stepped with ⟨_, ⟨_, absurdity, _⟩ | ⟨_, _, _, isMain, same, _, performs⟩⟩
  · cases absurdity
  · cases isMain
    cases same
    rcases Pool.step_eq_some.mp performs with ⟨operation, following, program, rfl, rfl⟩
    rw [program] at meets
    constructor
    · rintro rfl
      exact meets.1.2.1
    · rintro s rfl isFrame
      have allowed : MayPrint platform s progress := meets.1
      unfold MayPrint at allowed
      split at allowed
      · exact absurd allowed (ne_hideCursor_of_isFrame isFrame)
      · exact (allowed.resolve_left (ne_showCursor_of_isFrame isFrame)).1
      · exact allowed.elim

/-- **Frames.** Whatever the environment answers and whenever signals come, the main goroutine
hides the cursor, draws frames, and shows the cursor again if it ends. There are as many frames as
ticks, or one less: as many when a tick is awaited, and one less when a frame is about to be drawn.
As long as the process has not ended, the main goroutine can go on, or has drawn a frame for every
tick. -/
theorem one_frame_per_tick {labels : List Label} {final : State}
    (ran : step.run (start platform flags ticks) labels = some (trace, final)) :
    ∃ screens, (∀ s ∈ screens, IsFrame platform s) ∧
      (mainWrites trace = [] ∧ screens = [] ∨ mainWrites trace = hideCursor :: screens ∨
        mainWrites trace = hideCursor :: (screens ++ [showCursor])) ∧
      screens.length ≤ ticksTaken trace ∧ ticksTaken trace ≤ screens.length + 1 ∧
      (∀ answers performed next,
        step final (.goroutine .main answers) = some (some performed, next) →
          (performed.operation = .waitTick → ticksTaken trace = screens.length) ∧
            ∀ s, performed.operation = .print s → IsFrame platform s →
              ticksTaken trace = screens.length + 1) ∧
      ticksTaken trace ≤ ticks ∧
      (final.shared.exit = none → ∀ answers,
        (∃ performed next, step final (.goroutine .main answers) = some (some performed, next)) ∨
          ticksTaken trace = ticks ∧ screens.length = ticks) := by
  rcases inStep_run ran with ⟨progress, meets, paced, exited⟩
  rcases paced with ⟨⟨screens, count, areFrames, form⟩, waited, lower, upper, inTime⟩
  have taken : ticksTaken trace = progress.waited := waited
  rw [← count] at lower upper
  rw [taken]
  refine ⟨screens, areFrames, ?_, lower, upper, ?_, inTime, fun running answers => ?_⟩
  · cases phase : progress.phase <;> simp only [phase] at form
    · exact Or.inl form
    · exact Or.inr (Or.inl form)
    · exact Or.inr (Or.inr form)
    · exact form.imp_right Or.inr
  · intro answers performed next stepped
    rw [count]
    exact served_of_step meets stepped
  · rw [count]
    exact goes_on meets running exited answers

/-- An environment in which everything can be read. -/
noncomputable def reading : Answers
  | .openFile _ => .ok []
  | .statfs _ => .ok ⟨4096, 100, 50⟩
  | operation => refusing operation

theorem exists_run_ticking : ∃ trace final,
    step.run (start plain everySecond 1) (List.replicate 10 (.goroutine .main reading)) =
      some (trace, final) ∧ final.shared.exit = none ∧ ticksTaken trace = 1 :=
  ⟨_, _, rfl, rfl, rfl⟩

/-- The tick has just come, so the main goroutine can go on, or has drawn its frame. -/
theorem one_frame_per_tick_of_one : ∃ trace final, ∃ screens : List GoString,
    step.run (start plain everySecond 1) (List.replicate 10 (.goroutine .main reading)) =
      some (trace, final) ∧ (∀ s ∈ screens, IsFrame plain s) ∧ screens.length ≤ 1 ∧
      ((∃ performed next, step final (.goroutine .main reading) = some (some performed, next)) ∨
        screens.length = 1) := by
  rcases exists_run_ticking with ⟨trace, final, ran, running, ticked⟩
  rcases one_frame_per_tick ran with ⟨screens, areFrames, _, lower, _, _, _, goesOn⟩
  refine ⟨trace, final, screens, ran, areFrames, ticked ▸ lower, ?_⟩
  rcases goesOn running reading with canStep | ⟨_, allShown⟩
  · exact Or.inl canStep
  · exact Or.inr allShown

end Process

end Sysmon.Cmd.Process
