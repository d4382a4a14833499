import Sysmon.Cmd.Cadence
import Sysmon.Cmd.Playback

/-!
# The process with interruptions

What the main goroutine writes does not depend on the other goroutine or on
signals, but on the answers of the environment alone. Whatever happens in
between, it is the beginning of what the main goroutine writes without
interruption, and that is known from `Cmd.run`. The uninterrupted execution is
one of the runs of the process.
-/

namespace Sysmon.Cmd.Process

open Sysmon.Go Sysmon.Stats Sysmon.Ebpf

/-- The main goroutine reads what the script says. -/
def Follows (script : Script) (trace : List ProcessEntry) : Prop :=
  Program.AnsweredBy play script.scene (mainPart trace)

/-- What the main goroutine writes without interruption. -/
def Script.writes (platform : Platform) (flags : Flags) (script : Script) : List GoString :=
  hideCursor :: (shown platform (script.outcome platform flags).1 script.later ++
    if (script.outcome platform flags).2 = none then [] else [showCursor])

section Interruption

variable {platform : Platform} {flags : Flags} {ticks : ℕ} {trace : List ProcessEntry}

theorem host_play (operation : SysOp) (scene : Scene) :
    (play operation scene).2.host = operation.advance (play operation scene).1 scene.host := by
  cases operation with
  | waitTick =>
      rw [play]
      split <;> rfl
  | _ => rfl

theorem written_play (operation : SysOp) (scene : Scene) :
    (play operation scene).2.host.written =
      scene.host.written ++ (writtenIn ⟨operation, (play operation scene).1⟩).toList := by
  rw [host_play]
  cases operation with
  | openFile path =>
      cases (play (.openFile path) scene).1 <;> exact (List.append_nil _).symm
  | print s => rfl
  | _ => exact (List.append_nil _).symm

/-! ## Any run -/

theorem performs_step {program : SysProgram Unit} {state next : State} {label : Label}
    {output : Option (Performed SysOp.Answer)}
    (performs : program.Performs (mainPart trace) (state.programs .main))
    (stepped : step state label = some (output, next)) :
    program.Performs (mainPart (trace ++ [(label, output)])) (next.programs .main) := by
  rcases step_cases stepped with ⟨_, ⟨_, rfl, rfl, rfl⟩ |
    ⟨goroutine, answers, performed, rfl, rfl, _, advanced⟩⟩
  · rwa [mainPart_concat_of_none rfl]
  · cases goroutine with
    | signals =>
        rwa [mainPart_concat_of_none rfl, Pool.programs_of_step_of_ne (by simp) advanced]
    | main =>
        rw [mainPart_concat_of_some rfl]
        exact Pool.performs_step performs advanced

/-- The main goroutine performs the operations of `main`, whatever else happens. -/
theorem performs_run {labels : List Label} {final : State}
    (ran : step.run (start platform flags ticks) labels = some (trace, final)) :
    (main platform flags ticks).Performs (mainPart trace) (final.programs .main) := by
  have base : (main platform flags ticks).Performs (mainPart [])
    ((start platform flags ticks).programs .main) := rfl
  exact Machine.run_invariant (motive := fun trace state =>
    (main platform flags ticks).Performs (mainPart trace) (state.programs .main)) base
    (fun _ _ _ _ _ performs stepped => performs_step performs stepped) ran

section Script

variable (accepted : flags.refused = none) (positive : 0 < flags.interval) {script : Script}
  {labels : List Label} {final : State}

include accepted positive

theorem mainWrites_isPrefix
    (ran : step.run (start platform flags script.later.length) labels = some (trace, final))
    (follows : Follows script trace) : mainWrites trace <+: script.writes platform flags := by
  have logged := Program.logged_isPrefix (fun scene : Scene => scene.host.written) writtenIn
    written_play (performs_run ran) follows
  rcases exec_main platform accepted positive script with ⟨last, executed, written, _⟩
  rw [executed, written] at logged
  exact logged

theorem mainWrites_of_isDone
    (ran : step.run (start platform flags script.later.length) labels = some (trace, final))
    (follows : Follows script trace) (isDone : (final.programs .main).IsDone) :
    mainWrites trace = script.writes platform flags := by
  have logged := Program.logged_of_isDone (fun scene : Scene => scene.host.written) writtenIn
    written_play (performs_run ran) isDone follows
  rcases exec_main platform accepted positive script with ⟨last, executed, written, _⟩
  rw [executed, written] at logged
  exact logged

end Script

/-! ## The uninterrupted run -/

theorem not_exited_of_allowed {progress : Progress} {operation : SysOp}
    (allowed : (cadence platform ticks).allowed operation progress) :
    progress.phase ≠ .exited := by
  intro exited
  cases operation with
  | print s => simp [cadence, MayPrint, exited] at allowed
  | waitTick => simp [cadence, exited] at allowed
  | exit code => simp [cadence, exited] at allowed
  | receiveSignal => exact allowed
  | _ => exact allowed exited

theorem exited_or_running {progress : Progress} {host : Host} (running : host.exit = none)
    (operation : SysOp) (answer : operation.Answer) :
    ((cadence platform ticks).advance operation answer progress).phase = .exited ∨
      (operation.advance answer host).exit = none := by
  cases operation with
  | exit code => exact Or.inl rfl
  | openFile path => cases answer <;> exact Or.inr running
  | _ => exact Or.inr running

/-- As long as it keeps the cadence, the main goroutine can run to its end. -/
theorem exists_run_of_meets {program : SysProgram Unit} {progress : Progress} {scene : Scene}
    {state : State} (isMain : state.programs .main = program) (isHost : state.shared = scene.host)
    (meets : program.Meets (cadence platform ticks) (fun _ => Finished ticks) progress)
    (goesOn : progress.phase = .exited ∨ state.shared.exit = none) :
    ∃ labels trace final, (∀ label ∈ labels, ∃ answers, label = .goroutine .main answers) ∧
      step.run state labels = some (trace, final) ∧
      Program.AnsweredBy play scene (mainPart trace) ∧ (final.programs .main).IsDone ∧
      final.shared = (program.exec play scene).2.host := by
  induction program generalizing progress scene state with
  | done result =>
      refine ⟨[], [], state, by simp, rfl, trivial, ?_, isHost⟩
      rw [isMain]
      trivial
  | call operation next ih =>
      have running := goesOn.resolve_left (not_exited_of_allowed meets.1)
      have stepped := step_goroutine (fun operation => (play operation scene).1) running
        (runs_of_allowed isMain meets.1) isMain
      let following : State :=
        ⟨Function.update state.programs .main (next (play operation scene).1),
          operation.advance (play operation scene).1 state.shared⟩
      have isNext : following.programs .main = next (play operation scene).1 := by
        simp [following]
      have isNextHost : following.shared = (play operation scene).2.host := by
        rw [host_play, ← isHost]
      rcases ih _ isNext isNextHost (meets.2 _ trivial) (exited_or_running running operation _)
        with ⟨labels, trace, final, areMain, ran, answered, isDone, isFinal⟩
      refine ⟨_ :: labels, _, final, ?_,
        Machine.run_cons_eq_some.mpr ⟨_, _, trace, stepped, ran, rfl⟩, ⟨rfl, answered⟩, isDone,
        isFinal⟩
      intro label present
      rcases List.mem_cons.mp present with rfl | later
      · exact ⟨_, rfl⟩
      · exact areMain label later

theorem exists_uninterrupted_run (platform : Platform) (flags : Flags) (ticks : ℕ)
    (script : Script) :
    ∃ labels trace final, (∀ label ∈ labels, ∃ answers, label = .goroutine .main answers) ∧
      step.run (start platform flags ticks) labels = some (trace, final) ∧
      Follows script trace ∧ (final.programs .main).IsDone ∧
      final.shared = ((main platform flags ticks).exec play script.scene).2.host :=
  exists_run_of_meets rfl rfl cadence_main (Or.inr rfl)

/-- **The process shows what it reads.** With flags that are accepted and a positive interval, what
the main goroutine has written is always the beginning of the frames that `Cmd.run` makes of the
readings, in order and nothing else, between the control sequences for the cursor; and it is all of
them when nothing is left to do. If there are no signals, the process can get that far, and it ends
if and only if `Cmd.run` ends with an error, with status 1 and with this error as the last thing on
the standard error. -/
theorem process_shows_frames (platform : Platform) (flags : Flags) (script : Script)
    (accepted : flags.refused = none) (positive : 0 < flags.interval) :
    (∀ labels trace final,
      step.run (start platform flags script.later.length) labels = some (trace, final) →
      Follows script trace → mainWrites trace <+: script.writes platform flags ∧
        ((final.programs .main).IsDone → mainWrites trace = script.writes platform flags)) ∧
    ∃ labels trace final, (∀ label ∈ labels, ∃ answers, label = .goroutine .main answers) ∧
      step.run (start platform flags script.later.length) labels = some (trace, final) ∧
      Follows script trace ∧ (final.programs .main).IsDone ∧
      final.shared.written = script.writes platform flags ∧
      final.shared.errors = script.announced platform flags ++
        ((script.outcome platform flags).2.map fun err =>
          text "sysmon: " ++ err ++ text "\n").toList ∧
      final.shared.exit = (script.outcome platform flags).2.map fun _ => .code 1 := by
  constructor
  · intro labels trace final ran follows
    exact ⟨mainWrites_isPrefix accepted positive ran follows,
      mainWrites_of_isDone accepted positive ran follows⟩
  · rcases exists_uninterrupted_run platform flags script.later.length script with
      ⟨labels, trace, final, areMain, ran, follows, isDone, isFinal⟩
    rcases exec_main platform accepted positive script with ⟨last, executed, written, errors, exit⟩
    rw [executed] at isFinal
    dsimp only at isFinal
    refine ⟨labels, trace, final, areMain, ran, follows, isDone, ?_, ?_, ?_⟩
    · rw [isFinal, written, Script.writes]
    · rw [isFinal, errors]
    · rw [isFinal, exit]

/-- A machine with one CPU, and no interfaces. -/
noncomputable def idleReading : Reading where
  stat := .ok (text "cpu 1 0 1 8 0 0 0\n")
  meminfo := .ok (text "MemTotal: 16 kB\n")
  netDev := .ok []
  statfs := .ok ⟨4096, 100, 50⟩
  now := 0
  kernel := KernelState.loaded
  fault := fun _ => none
  visit := anyOrder

/-- The filesystem is gone at the second tick. -/
noncomputable def unmounting : Script where
  collectorFault := fun _ => none
  first := idleReading
  later := [idleReading, { idleReading with statfs := .error (text "ENOENT") }]

theorem process_shows_one_frame : ∃ labels trace final,
    step.run (start plain everySecond 2) labels = some (trace, final) ∧
      (mainWrites trace).length = 3 ∧ final.shared.exit = some (.code 1) := by
  rcases process_shows_frames plain everySecond unmounting rfl (by decide) with
    ⟨shows, labels, trace, final, _, ran, follows, isDone, _, _, exit⟩
  have threeWrites : (unmounting.writes plain everySecond).length = 3 ∧
      (unmounting.outcome plain everySecond).2.isSome := by
    decide +kernel
  rcases Option.isSome_iff_exists.mp threeWrites.2 with ⟨err, failed⟩
  refine ⟨labels, trace, final, ran, ?_, ?_⟩
  · rw [(shows labels trace final ran follows).2 isDone]
    exact threeWrites.1
  · rw [exit, failed]
    rfl

end Interruption

end Sysmon.Cmd.Process
