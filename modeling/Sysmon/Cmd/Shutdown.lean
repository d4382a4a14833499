import Sysmon.Cmd.Conduct

/-!
# The end of the process

This file is about the process as a whole: two goroutines in any interleaving,
and signals at any time. The process can end in five ways. A signal kills it,
which those that `run` asks for can do before `signal.Notify` only. The
goroutine that waits for signals ends it with status 0, and the main goroutine
with status 1 after an error, with status 2 after a panic, and before it calls
`run` at all if `flag.Parse` says so. Whatever happens, the cursor is visible in
the end, except in the first case.

The invariant relates the process to what each goroutine has done to it alone:
the main goroutine to a process of its own, and the other one to the number of
its operations.
-/

namespace Sysmon.Cmd.Process

open Sysmon.Go Sysmon.Stats Sysmon.Ebpf

/-! ## The invariant -/

/-- The second goroutine receives a signal, shows the cursor and ends the process. -/
def signalsContract : Contract SysOp.Answer ℕ where
  allowed
    | .receiveSignal, handled => handled = 0
    | .print s, handled => s = showCursor ∧ handled = 1
    | .exit code, handled => code = 0 ∧ handled = 2
    | _, _ => False
  expected _ _ := True
  advance _ _ handled := handled + 1

/-- What a goroutine has done to the process. -/
@[reducible]
def Deeds : Goroutine → Type
  | .main => Host
  | .signals => ℕ

/-- The conditions under which frames are clean and objects can be closed, and the signals that may
come. -/
structure Conditions where
  clean : Prop
  reliable : Prop
  comes : Signal → Prop

/-- No signal comes that `run` asks for. -/
def Conditions.Quiet (conditions : Conditions) : Prop :=
  ∀ signal : Signal, signal.Requested → ¬conditions.comes signal

/-- The label keeps the conditions. -/
def Label.Keeps (conditions : Conditions) : Label → Prop
  | .signal sent => conditions.comes sent
  | .goroutine _ answers => ∀ operation,
    Promised conditions.clean conditions.reliable operation (answers operation)

section Invariant

variable (platform : Platform) (flags : Flags) (conditions : Conditions)

def contracts : (goroutine : Goroutine) → Contract SysOp.Answer (Deeds goroutine)
  | .main => mainContract platform flags conditions.clean conditions.reliable
  | .signals => signalsContract

def finished : (goroutine : Goroutine) → Unit → Deeds goroutine → Prop
  | .main, _, _ => True
  | .signals, _, handled => handled = 3

/-- How the process has ended, if it has. -/
def Ended (main : Host) (handled : ℕ) : Option Exit → Prop
  | none => handled < 3
  | some (.killed signal) =>
    conditions.comes signal ∧ (signal.Requested → main.notified = false)
  | some (.code code) => code = 0 ∧ handled = 3 ∨
    Orderly (.exit code) main ∧
      Outward platform flags conditions.clean conditions.reliable (.exit code) main

/-- The process is what the two goroutines have made of it. -/
structure Coherent (main : Host) (handled : ℕ) (host : Host) : Prop where
  errors : host.errors = main.errors
  notified : host.notified = main.notified
  spawned : host.spawned = main.spawned
  files : host.files = main.files
  held : host.held = main.held
  ticking : host.ticking = main.ticking
  later : main.spawned = true → main.notified = true
  early : main.notified = false → host.written = main.written ∧
    (main.written = [] ∨ main.written = [hideCursor]) ∧ main.files = [] ∧ main.held = .none
  started : main.spawned = false → handled = 0
  quiet : conditions.Quiet → host.pending = false ∧ handled = 0
  shownByMain : main.written.getLast? = some showCursor →
    cursorVisible host.written.flatten = true
  shownBySignals : conditions.clean → 2 ≤ handled → cursorVisible host.written.flatten = true
  ended : Ended platform flags conditions main handled host.exit

/-- The goroutines keep their contracts, and the process is what they have made of it. -/
def Kept (state : State) : Prop :=
  ∃ deeds : (goroutine : Goroutine) → Deeds goroutine,
    (∀ goroutine, (state.programs goroutine).Meets
      (contracts platform flags conditions goroutine) (finished goroutine) (deeds goroutine)) ∧
    Coherent platform flags conditions (deeds .main) (deeds .signals) state.shared

variable {platform flags conditions}

theorem meets_handleSignal : handleSignal.Meets signalsContract (finished .signals) 0 :=
  ⟨rfl, fun _ _ => ⟨⟨rfl, rfl⟩, fun _ _ => ⟨⟨rfl, rfl⟩, fun _ _ => rfl⟩⟩⟩

theorem kept_start (cleanPath : conditions.clean → escape ∉ flags.mountPath) (ticks : ℕ) :
    Kept platform flags conditions (start platform flags ticks) := by
  refine ⟨fun | .main => Host.initial | .signals => 0, ?_, ?_⟩
  · rintro (_ | _)
    · exact meets_main cleanPath ticks
    · exact meets_handleSignal
  · constructor <;> simp [Host.initial, Holdings.none, start, Ended]

section Steps

variable {main host : Host} {handled : ℕ}

theorem coherent_signal (coherent : Coherent platform flags conditions main handled host)
    {signal : Signal} (comes : conditions.comes signal) :
    Coherent platform flags conditions main handled (host.signal signal) := by
  rw [Host.signal]
  split
  · rename_i caught
    exact { coherent with quiet := fun isQuiet => absurd comes (isQuiet signal caught.1) }
  · rename_i notCaught
    refine { coherent with ended := ⟨comes, fun requested => ?_⟩ }
    rw [← coherent.notified]
    exact Bool.eq_false_iff.mpr fun notified => notCaught ⟨requested, notified⟩

variable (coherent : Coherent platform flags conditions main handled host)

section Print

variable (ended : ∀ main', Ended platform flags conditions main' handled host.exit)

include coherent ended

theorem coherent_print {s : GoString}
    (outward : Outward platform flags conditions.clean conditions.reliable (.print s) main) :
    Coherent platform flags conditions { main with written := main.written ++ [s] } handled
      { host with written := host.written ++ [s] } := by
  have flattened : (host.written ++ [s]).flatten = host.written.flatten ++ s := by simp
  rw [Outward] at outward
  split at outward
  · rename_i isNotified
    refine { coherent with
      early := fun notYet => absurd (isNotified.symm.trans notYet) (by simp)
      shownByMain := fun last => ?_
      shownBySignals := fun isClean shown => ?_
      ended := ended _ }
    · rw [List.getLast?_concat, Option.some.injEq] at last
      rw [flattened, last]
      exact cursorVisible_append_showCursor _
    · rw [flattened]
      rcases outward with rfl | isScreen
      · exact cursorVisible_append_showCursor _
      · rw [cursorVisible_append_of_isScreen (isScreen isClean)]
        exact coherent.shownBySignals isClean shown
  · rename_i notNotified
    rcases outward with ⟨rfl, nothing⟩
    have notYet := Bool.eq_false_iff.mpr notNotified
    have unspawned : main.spawned = false := by
      by_contra isSpawned
      exact notNotified (coherent.later (Bool.eq_true_of_not_eq_false isSpawned))
    rcases coherent.early notYet with ⟨same, _, files, held⟩
    refine { coherent with
      early := fun _ => ⟨congrArg (· ++ [hideCursor]) same, Or.inr ?_, files, held⟩
      shownByMain := fun last => ?_
      shownBySignals := fun _ shown => ?_
      ended := ended _ }
    · rw [nothing, List.nil_append]
    · rw [List.getLast?_concat, Option.some.injEq] at last
      simp [hideCursor_eq, showCursor_eq] at last
    · rw [coherent.started unspawned] at shown
      exact absurd shown (by decide)

end Print

variable (running : host.exit = none)

include coherent running

theorem coherent_main {operation : SysOp} (orderly : Orderly operation main)
    (outward : Outward platform flags conditions.clean conditions.reliable operation main)
    (answer : operation.Answer) :
    Coherent platform flags conditions (operation.advance answer main) handled
      (operation.advance answer host) := by
  have ended : ∀ main', Ended platform flags conditions main' handled host.exit := by
    intro main'
    have unfinished := coherent.ended
    rw [running] at unfinished ⊢
    exact unfinished
  have late : main.notified = true → ∀ {conclusion : Prop}, main.notified = false → conclusion :=
    fun isNotified _ notYet => absurd (isNotified.symm.trans notYet) (by simp)
  cases operation with
  | receiveSignal => exact outward.elim
  | notify =>
      exact { coherent with
        notified := rfl
        later := fun _ => rfl
        early := nofun
        ended := ended _ }
  | print s => exact coherent_print coherent ended outward
  | spawn =>
      exact { coherent with
        spawned := rfl
        later := fun _ => outward
        started := nofun
        ended := ended _ }
  | exit code => exact { coherent with ended := Or.inr ⟨orderly, outward⟩ }
  | openFile path =>
      rcases answer with err | r
      · exact coherent
      · exact { coherent with
          files := congrArg (path :: ·) coherent.files
          early := late outward
          ended := ended _ }
  | closeFile path =>
      exact { coherent with
        files := congrArg (List.erase · path) coherent.files
        early := late outward
        ended := ended _ }
  | collector operation =>
      exact { coherent with
        held := congrArg (CollectorOp.advance calledAtAll operation answer) coherent.held
        early := late outward
        ended := ended _ }
  | newTicker interval => exact { coherent with ticking := rfl, ended := ended _ }
  | stopTicker => exact { coherent with ticking := rfl, ended := ended _ }
  | printErr s =>
      exact { coherent with
        errors := congrArg (· ++ [s]) coherent.errors
        ended := ended _ }
  | _ => exact coherent

theorem coherent_signals {operation : SysOp} (spawned : host.spawned = true)
    (pending : operation = .receiveSignal → host.pending = true)
    (allowed : signalsContract.allowed operation handled) (answer : operation.Answer) :
    Coherent platform flags conditions main (handled + 1) (operation.advance answer host) := by
  have isSpawned : main.spawned = true := by rw [← coherent.spawned, spawned]
  have isNotified := coherent.later isSpawned
  have late : ∀ {conclusion : Prop}, main.notified = false → conclusion :=
    fun notYet => absurd (isNotified.symm.trans notYet) (by simp)
  have started : main.spawned = false → handled + 1 = 0 :=
    fun never => absurd (isSpawned.symm.trans never) (by simp)
  -- The goroutine gets beyond its first operation only after a signal.
  have loud : ¬conditions.Quiet := by
    intro isQuiet
    rcases coherent.quiet isQuiet with ⟨notPending, notHandled⟩
    cases operation with
    | receiveSignal => exact absurd ((pending rfl).symm.trans notPending) (by simp)
    | print s => exact absurd (allowed.2.symm.trans notHandled) (by decide)
    | exit code => exact absurd (allowed.2.symm.trans notHandled) (by decide)
    | _ => exact allowed
  have notQuiet : conditions.Quiet → (operation.advance answer host).pending = false ∧
      handled + 1 = 0 := fun isQuiet => absurd isQuiet loud
  cases operation with
  | receiveSignal =>
      change handled = 0 at allowed
      refine { coherent with
        early := late
        started := started
        quiet := notQuiet
        shownBySignals := fun _ shown => ?_
        ended := ?_ }
      · omega
      · change Ended platform flags conditions main (handled + 1) host.exit
        rw [running, allowed]
        exact Nat.one_lt_ofNat
  | print s =>
      rcases allowed with ⟨rfl, once⟩
      have visible : cursorVisible (host.written ++ [showCursor]).flatten = true := by
        rw [List.flatten_append, List.flatten_singleton]
        exact cursorVisible_append_showCursor _
      refine { coherent with
        early := late
        started := started
        quiet := notQuiet
        shownByMain := fun _ => visible
        shownBySignals := fun _ _ => visible
        ended := ?_ }
      change Ended platform flags conditions main (handled + 1) host.exit
      rw [running, once]
      exact Nat.lt_succ_self 2
  | exit code =>
      rcases allowed with ⟨rfl, twice⟩
      exact { coherent with
        early := late
        started := started
        quiet := notQuiet
        shownBySignals := fun isClean _ => coherent.shownBySignals isClean twice.ge
        ended := Or.inl ⟨rfl, congrArg Nat.succ twice⟩ }
  | _ => exact allowed.elim

end Steps

/-- What a step of the process can be. -/
theorem step_cases {state next : State} {label : Label} {output : Option (Performed SysOp.Answer)}
    (stepped : step state label = some (output, next)) :
    state.shared.exit = none ∧
      ((∃ signal, label = .signal signal ∧ output = none ∧
          next = { state with shared := state.shared.signal signal }) ∨
        ∃ goroutine answers performed, label = .goroutine goroutine answers ∧
          output = some performed ∧ Runs goroutine state ∧
          Pool.step interpret state (goroutine, answers) = some (performed, next)) := by
  simp only [step] at stepped
  split at stepped
  · cases stepped
  · rename_i running
    refine ⟨not_not.mp running, ?_⟩
    cases label with
    | signal signal =>
        left
        rw [Option.some.injEq, Prod.mk.injEq] at stepped
        exact ⟨signal, rfl, stepped.1.symm, stepped.2.symm⟩
    | goroutine goroutine answers =>
        right
        dsimp only at stepped
        split at stepped
        · rename_i runs
          rcases Option.map_eq_some_iff.mp stepped with ⟨⟨performed, final⟩, performs, same⟩
          rw [Prod.mk.injEq] at same
          rcases same with ⟨rfl, rfl⟩
          exact ⟨goroutine, answers, performed, rfl, rfl, runs, performs⟩
        · cases stepped

theorem orderly_of_same {main host : Host} {operation : SysOp}
    (orderly : Orderly operation main) (files : host.files = main.files)
    (held : host.held = main.held) (ticking : host.ticking = main.ticking) :
    Orderly operation host := by
  unfold Orderly at orderly ⊢
  rwa [files, held, ticking]

theorem orderly_of_signals {operation : SysOp} {handled : ℕ} (host : Host)
    (allowed : signalsContract.allowed operation handled) : Orderly operation host := by
  cases operation with
  | receiveSignal => trivial
  | print s => trivial
  | exit code => exact Or.inl allowed.1
  | _ => exact allowed.elim

theorem kept_goroutine {state next : State} {goroutine : Goroutine} {answers : Answers}
    {performed : Performed SysOp.Answer} (kept : Kept platform flags conditions state)
    (keeps : (Label.goroutine goroutine answers).Keeps conditions)
    (running : state.shared.exit = none) (runs : Runs goroutine state)
    (performs : Pool.step interpret state (goroutine, answers) = some (performed, next)) :
    Orderly performed.operation state.shared ∧ Kept platform flags conditions next := by
  rcases kept with ⟨deeds, meets, coherent⟩
  rcases Pool.step_eq_some.mp performs with ⟨operation, following, program, rfl, rfl⟩
  have promised : (contracts platform flags conditions goroutine).expected operation
      (answers operation) := by
    cases goroutine with
    | main => exact keeps operation
    | signals => trivial
  rcases Pool.meets_step meets performs promised with ⟨allowed, meetsNext⟩
  cases goroutine with
  | main =>
      refine ⟨?_, _, meetsNext, ?_⟩
      · exact orderly_of_same allowed.1 coherent.files coherent.held coherent.ticking
      · exact coherent_main coherent running allowed.1 allowed.2 _
  | signals =>
      refine ⟨orderly_of_signals _ allowed, _, meetsNext, ?_⟩
      apply coherent_signals coherent running (runs.1 rfl) _ allowed
      rintro rfl
      have notBlocked := runs.2
      rw [program] at notBlocked
      exact Bool.eq_true_of_not_eq_false notBlocked

theorem kept_step {state next : State} {label : Label} {output : Option (Performed SysOp.Answer)}
    (kept : Kept platform flags conditions state) (keeps : label.Keeps conditions)
    (stepped : step state label = some (output, next)) : Kept platform flags conditions next := by
  rcases step_cases stepped with ⟨running, ⟨signal, rfl, _, rfl⟩ |
    ⟨goroutine, answers, performed, rfl, _, runs, performs⟩⟩
  · rcases kept with ⟨deeds, meets, coherent⟩
    exact ⟨deeds, meets, coherent_signal coherent keeps⟩
  · exact (kept_goroutine kept keeps running runs performs).2

/-- The invariant holds in every state that the process reaches. -/
theorem kept_run (cleanPath : conditions.clean → escape ∉ flags.mountPath) {ticks : ℕ}
    {labels : List Label} {trace : List (Label × Option (Performed SysOp.Answer))} {final : State}
    (keep : ∀ label ∈ labels, label.Keeps conditions)
    (ran : step.run (start platform flags ticks) labels = some (trace, final)) :
    Kept platform flags conditions final :=
  Machine.run_kept (fun _ _ _ _ => kept_step) (kept_start cleanPath ticks) keep ran

end Invariant

/-! ## How the process ends -/

section Results

variable (platform : Platform) (flags : Flags) (ticks : ℕ) {labels : List Label}
  {trace : List (Label × Option (Performed SysOp.Answer))} {final : State}

/-- The names of the interfaces and the mount path contain no escape bytes. -/
def Clean (flags : Flags) (labels : List Label) : Prop :=
  escape ∉ flags.mountPath ∧ ∀ goroutine answers, Label.goroutine goroutine answers ∈ labels →
    ∀ r, answers (.openFile (text "/proc/net/dev")) = .ok r → escape ∉ r

/-- No `Close` of an object fails. -/
def Reliable (labels : List Label) : Prop :=
  ∀ goroutine answers, Label.goroutine goroutine answers ∈ labels →
    ∀ object, answers (.collector (.closeObject object)) = none

def conditionsOf (flags : Flags) (labels : List Label) : Conditions where
  clean := Clean flags labels
  reliable := Reliable labels
  comes signal := .signal signal ∈ labels

theorem promised_of {clean reliable : Prop} {answers : Answers}
    (closes : reliable → ∀ object, answers (.collector (.closeObject object)) = none)
    (texts : clean → ∀ r, answers (.openFile (text "/proc/net/dev")) = .ok r → escape ∉ r)
    (operation : SysOp) : Promised clean reliable operation (answers operation) := by
  cases operation with
  | collector operation =>
      cases operation with
      | closeObject object => exact fun isReliable => closes isReliable object
      | _ => trivial
  | openFile path =>
      cases opened : answers (.openFile path) with
      | error err => trivial
      | ok r =>
          rintro rfl isClean
          exact texts isClean r opened
  | _ => trivial

theorem keeps_conditionsOf (flags : Flags) (labels : List Label) :
    ∀ label ∈ labels, label.Keeps (conditionsOf flags labels) := by
  intro label present
  cases label with
  | signal signal => exact present
  | goroutine goroutine answers =>
      exact promised_of (fun reliable => reliable goroutine answers present)
        fun clean => clean.2 goroutine answers present

/-- Without conditions, there is nothing to keep. -/
def unconditional : Conditions := ⟨False, False, fun _ => True⟩

theorem keeps_unconditional (label : Label) : label.Keeps unconditional := by
  cases label with
  | signal signal => trivial
  | goroutine goroutine answers => exact promised_of False.elim False.elim

section Reached

variable {platform flags ticks}
  (ran : step.run (start platform flags ticks) labels = some (trace, final))

include ran

theorem ended_of_run : ∃ main handled,
    Coherent platform flags (conditionsOf flags labels) main handled final.shared := by
  have cleanPath : (conditionsOf flags labels).clean → escape ∉ flags.mountPath :=
    fun clean => clean.1
  have kept := kept_run cleanPath (keeps_conditionsOf flags labels) ran
  rcases kept with ⟨deeds, _, coherent⟩
  exact ⟨deeds .main, deeds .signals, coherent⟩

theorem kept_unconditional : Kept platform flags unconditional final :=
  kept_run False.elim (fun label _ => keeps_unconditional label) ran

end Reached

/-- An environment that refuses everything but to close what is open. -/
noncomputable def refusing : Answers
  | .collector (.closeLink _) | .collector (.closeObject _) => none
  | .collector _ => some (text "EPERM")
  | .hist (.lookup _) => .error (text "EPERM")
  | .hist (.put _ _) => .error (text "EPERM")
  | .openFile _ => .error (text "ENOENT")
  | .statfs _ => .error (text "ENOENT")
  | .now => 0
  | .range net => anyOrder net
  | .print _ | .printErr _ | .notify | .spawn | .receiveSignal | .closeFile _ | .newTicker _
  | .waitTick | .stopTicker | .exit _ => ()

noncomputable abbrev mainSteps (count : ℕ) : List Label :=
  List.replicate count (.goroutine .main refusing)

noncomputable abbrev signalsSteps (count : ℕ) : List Label :=
  List.replicate count (.goroutine .signals refusing)

theorem exists_run_failing : ∃ trace final,
    step.run (start plain everySecond 0) (mainSteps 7) = some (trace, final) ∧
      final.shared.exit = some (.code 1) :=
  ⟨_, _, rfl, rfl⟩

theorem exists_run_started : ∃ trace final,
    step.run (start plain everySecond 0) (mainSteps 3) = some (trace, final) ∧
      final.shared.exit = none ∧ final.shared.spawned = true ∧ ∃ performed next,
        step final (.goroutine .main refusing) = some (some performed, next) ∧
          performed.operation = .openFile (text "/proc/stat") :=
  ⟨_, _, rfl, rfl, rfl, _, _, rfl, rfl⟩

/-- A signal that `run` does not ask for can leave the cursor hidden at any time. -/
example : (step.run (start plain everySecond 0) (mainSteps 3 ++ [.signal .other])).map
    (fun result => (result.2.shared.exit, cursorVisible result.2.shared.written.flatten)) =
      some (some (.killed .other), false) := by
  rfl

/-- **Resources.** In every state that the process reaches, the next operation of either goroutine
is orderly: no file is opened while another one is open, no tick is awaited with an open file,
`Close` is called on the links before it is called on the objects, and on the histogram only after
its last use. When the process ends itself with an error, it has closed its files, stopped its
ticker and called `Close` on all it held, with the exception of objects behind one whose `Close`
has failed. -/
theorem always_orderly (ran : step.run (start platform flags ticks) labels = some (trace, final)) :
    (∀ label performed next, step final label = some (some performed, next) →
      Orderly performed.operation final.shared) ∧
    ∀ code, final.shared.exit = some (.code code) → code ≠ 0 →
      final.shared.files = [] ∧ final.shared.held.links = [] ∧ final.shared.ticking = false ∧
        (Reliable labels → final.shared.held.objects = []) := by
  constructor
  · intro label performed next stepped
    rcases step_cases stepped with ⟨running, ⟨_, _, silent, _⟩ |
      ⟨goroutine, answers, other, rfl, same, runs, performs⟩⟩
    · cases silent
    · cases same
      exact (kept_goroutine (kept_unconditional ran) (keeps_unconditional _) running runs
        performs).1
  · intro code exited failed
    rcases ended_of_run ran with ⟨main, handled, coherent⟩
    have ended := coherent.ended
    rw [exited] at ended
    rcases ended with ⟨normally, _⟩ | ⟨normally | ⟨files, links, idle⟩,
      ⟨_, _, _, _, _, nothing⟩ | ⟨_, _, objects, _⟩⟩
    · exact absurd normally failed
    · exact absurd normally failed
    · exact absurd normally failed
    · rw [coherent.files, coherent.held, coherent.ticking]
      exact ⟨files, links, idle, fun _ => congrArg Holdings.objects nothing⟩
    · rw [coherent.files, coherent.held, coherent.ticking]
      exact ⟨files, links, idle, objects⟩

/-- The first file is opened while no file is open, and a failure leaves nothing open. -/
theorem always_orderly_when_failing :
    (∃ trace final performed next,
      step.run (start plain everySecond 0) (mainSteps 3) = some (trace, final) ∧
        step final (.goroutine .main refusing) = some (some performed, next) ∧
        performed.operation = .openFile (text "/proc/stat") ∧ final.shared.files = []) ∧
    ∃ trace final, step.run (start plain everySecond 0) (mainSteps 7) = some (trace, final) ∧
      final.shared.files = [] ∧ final.shared.held.objects = [] := by
  constructor
  · rcases exists_run_started with
      ⟨trace, final, ran, _, _, ⟨operation, answer⟩, next, stepped, rfl⟩
    exact ⟨trace, final, _, next, ran, stepped, rfl,
      (always_orderly plain everySecond 0 ran).1 _ _ _ stepped⟩
  · rcases exists_run_failing with ⟨trace, final, ran, exited⟩
    rcases (always_orderly plain everySecond 0 ran).2 1 exited (by decide) with
      ⟨files, _, _, objects⟩
    refine ⟨trace, final, ran, files, objects ?_⟩
    intro goroutine answers present object
    rcases Label.goroutine.inj (List.eq_of_mem_replicate present) with ⟨_, rfl⟩
    rfl

theorem step_goroutine {state : State} {goroutine : Goroutine} {operation : SysOp}
    {following : operation.Answer → SysProgram Unit} (answers : Answers)
    (running : state.shared.exit = none) (runs : Runs goroutine state)
    (program : state.programs goroutine = .call operation following) :
    step state (.goroutine goroutine answers) = some (some ⟨operation, answers operation⟩,
      { programs := Function.update state.programs goroutine (following (answers operation))
        shared := operation.advance (answers operation) state.shared }) := by
  simp [step, running, runs, Pool.step_of_call program, interpret]

theorem signals_of_kept {platform : Platform} {flags : Flags} {state : State}
    {conditions : Conditions} (kept : Kept platform flags conditions state) :
    ∃ (main : Host) (handled : ℕ),
      (state.programs .signals).Meets signalsContract (finished .signals) handled ∧
        Coherent platform flags conditions main handled state.shared := by
  rcases kept with ⟨deeds, meets, coherent⟩
  exact ⟨deeds .main, deeds .signals, meets .signals, coherent⟩

theorem exists_step_signals (answers : Answers) {handled : ℕ} {state : State}
    (unfinished : handled < 3)
    (meets : (state.programs .signals).Meets signalsContract (finished .signals) handled)
    (running : state.shared.exit = none) (spawned : state.shared.spawned = true)
    (pending : handled = 0 → state.shared.pending = true) :
    ∃ output next, step state (.goroutine .signals answers) = some (output, next) ∧
      (next.programs .signals).Meets signalsContract (finished .signals) (handled + 1) ∧
      next.shared.exit = (if handled = 2 then some (.code 0) else none) ∧
      next.shared.spawned = true := by
  cases program : state.programs .signals with
  | done result =>
      rw [program] at meets
      change handled = 3 at meets
      omega
  | call operation following =>
      rw [program] at meets
      rcases meets with ⟨allowed, continues⟩
      have runs : Runs .signals state := by
        refine ⟨fun _ => spawned, ?_⟩
        rw [program]
        cases operation with
        | receiveSignal =>
            exact fun blocked => absurd ((pending allowed).symm.trans blocked) (by simp)
        | print s => exact id
        | exit code => exact id
        | _ => exact allowed.elim
      have meetsNext := continues (answers operation) trivial
      refine ⟨_, _, step_goroutine answers running runs program, ?_, ?_, ?_⟩
      · exact meetsNext
      · cases operation with
        | receiveSignal =>
            rw [if_neg (allowed.trans_ne (by decide))]
            exact running
        | print s =>
            rw [if_neg (allowed.2.trans_ne (by decide))]
            exact running
        | exit code =>
            rcases allowed with ⟨rfl, twice⟩
            rw [if_pos twice]
            rfl
        | _ => exact allowed.elim
      · cases operation with
        | receiveSignal => exact spawned
        | print s => exact spawned
        | exit code => exact spawned
        | _ => exact allowed.elim

/-- After a signal, the goroutine that waits for it can end the process by itself. -/
theorem exists_run_signals (answers : Answers) (remaining : ℕ) {handled : ℕ} (state : State)
    (left : remaining + 1 + handled = 3)
    (meets : (state.programs .signals).Meets signalsContract (finished .signals) handled)
    (running : state.shared.exit = none) (spawned : state.shared.spawned = true)
    (pending : handled = 0 → state.shared.pending = true) :
    ∃ trace last, step.run state (List.replicate (remaining + 1) (.goroutine .signals answers)) =
      some (trace, last) ∧ last.shared.exit = some (.code 0) := by
  rcases exists_step_signals answers (by omega) meets running spawned pending with
    ⟨output, next, stepped, meetsNext, exit, stillSpawned⟩
  induction remaining generalizing handled state output next with
  | zero =>
      rw [if_pos (by omega)] at exit
      exact ⟨_, next, Machine.run_cons_eq_some.mpr ⟨output, next, [], stepped, rfl, rfl⟩, exit⟩
  | succ remaining ih =>
      rw [if_neg (by omega)] at exit
      rcases exists_step_signals answers (by omega) meetsNext exit stillSpawned nofun with
        ⟨nextOutput, afterNext, nextStepped, meetsAfter, exitAfter, spawnedAfter⟩
      rcases ih next (by omega) meetsNext exit stillSpawned nofun nextOutput afterNext nextStepped
          meetsAfter exitAfter spawnedAfter with ⟨trace, last, ran, ended⟩
      exact ⟨_, last, Machine.run_cons_eq_some.mpr ⟨output, next, trace, stepped, ran, rfl⟩,
        ended⟩

/-- **Signals.** As soon as the goroutine that waits for signals has been started, a signal that
`run` asks for ends the process with status 0, whatever the main goroutine is doing: the goroutine
needs at most three more operations of its own, and waits for nothing. -/
theorem signal_ends_process
    (ran : step.run (start platform flags ticks) labels = some (trace, final))
    (running : final.shared.exit = none) (spawned : final.shared.spawned = true)
    {signal : Signal} (requested : signal.Requested) (answers : Answers) :
    ∃ steps ≤ 3, ∃ trace last, step.run final
        (.signal signal :: List.replicate steps (.goroutine .signals answers)) =
          some (trace, last) ∧
      last.shared.exit = some (.code 0) := by
  rcases signals_of_kept (kept_unconditional ran) with ⟨main, handled, meets, coherent⟩
  have unfinished : handled < 3 := by
    have ended := coherent.ended
    rwa [running] at ended
  have notified : final.shared.notified = true := by
    rw [coherent.notified]
    apply coherent.later
    rw [← coherent.spawned, spawned]
  let signalled : State := { final with shared := { final.shared with pending := true } }
  have received : step final (.signal signal) = some (none, signalled) := by
    simp [step, running, Host.signal, requested, notified, signalled]
  have left : 2 - handled + 1 + handled = 3 := by omega
  rcases exists_run_signals answers (2 - handled) signalled left meets running spawned
    (fun _ => rfl) with ⟨trace, last, ran, ended⟩
  exact ⟨2 - handled + 1, by omega, _, last,
    Machine.run_cons_eq_some.mpr ⟨none, signalled, trace, received, ran, rfl⟩, ended⟩

theorem signal_ends_process_when_started : ∃ trace final steps later last,
    step.run (start plain everySecond 0) (mainSteps 3) = some (trace, final) ∧ steps ≤ 3 ∧
      step.run final (.signal .interrupt :: signalsSteps steps) = some (later, last) ∧
      last.shared.exit = some (.code 0) := by
  rcases exists_run_started with ⟨trace, final, ran, running, spawned, _⟩
  have requested : Signal.Requested .interrupt := by decide
  rcases signal_ends_process plain everySecond 0 ran running spawned requested refusing with
    ⟨steps, few, later, last, ranLater, ended⟩
  exact ⟨trace, final, steps, later, last, ran, few, ranLater, ended⟩

end Results

end Sysmon.Cmd.Process
