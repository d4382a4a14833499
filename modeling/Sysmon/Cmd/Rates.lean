import Sysmon.Cmd.Interruption

/-!
# Rates on the screen

A rate is converted from a floating-point number to a 64-bit integer before it
is printed, and the machine decides what becomes of a number that is out of
range. If samples are more than a second apart, this cannot happen: every rate
fits, so that the screens are the same on every machine, and what is printed
for an interface reads back as its rate, up to the rounding of sizes. Rates are
exact rationals. The distance has to be more than a second since the largest
differences of counters are rounded up to 2^64 as floating-point numbers.
-/

namespace Sysmon.Cmd

open Sysmon.Go Sysmon.Stats Sysmon.Ebpf

/-! ## The conversion -/

section Conversion

variable {x : ℚ}

def Representable (x : ℚ) : Prop := 0 ≤ x ∧ x < 2 ^ 64

theorem Representable.floor_lt (representable : Representable x) : ⌊x⌋₊ < 2 ^ 64 := by
  apply (Nat.floor_lt representable.1).mpr
  exact_mod_cast representable.2

theorem uint64OfFloat_of_representable (representable : Representable x)
    (outOfRange : ℚ → UInt64) : uint64OfFloat outOfRange x = UInt64.ofNat ⌊x⌋₊ := by
  have isFloor : truncate x = ⌊x⌋₊ := by
    rw [truncate, if_pos representable.1, Int.natCast_floor_eq_floor representable.1]
  have inRange : 0 ≤ truncate x ∧ truncate x < 2 ^ 64 := by
    have small := representable.floor_lt
    omega
  rw [uint64OfFloat, if_pos inRange, isFloor, Int.toNat_natCast]

/-- The text of a representable rate denotes the rate up to five percent and one byte. -/
theorem readBytes_rate (representable : Representable x) (outOfRange : ℚ → UInt64) :
    ∃ bytes, readBytes (shownBytes (uint64OfFloat outOfRange x)) = some bytes ∧
      |bytes - x| ≤ x / 20 + 1 := by
  have isFloor : (uint64OfFloat outOfRange x).toNat = ⌊x⌋₊ := by
    rw [uint64OfFloat_of_representable representable]
    exact UInt64.toNat_ofNat_of_lt' representable.floor_lt
  have lower : (⌊x⌋₊ : ℚ) ≤ x := Nat.floor_le representable.1
  have upper : x < ⌊x⌋₊ + 1 := Nat.lt_floor_add_one x
  rcases humanBytes_accurate (uint64OfFloat outOfRange x) with
    ⟨s, bytes, shown, isBytes, accurate⟩
  rw [humanBytes_eq, Option.some.injEq] at shown
  rw [isFloor, abs_le] at accurate
  refine ⟨bytes, by rw [shown, isBytes], ?_⟩
  rw [abs_le]
  constructor <;> linarith

end Conversion

/-! ## Frames -/

section Frames

variable {errKeyNotExist : GoString} {bpfCol : Bool} {prev cur : Sample} {tick : Tick}
  {frame : Frame}

/-- All rates of the frame are representable. -/
def Frame.Representable (frame : Frame) : Prop :=
  ∀ name rate, frame.netRates.lookup name = some rate →
    Cmd.Representable rate.rxBps ∧ Cmd.Representable rate.txBps

theorem one_le_elapsedSeconds {lastSample now : ℤ} (spaced : lastSample + 10 ^ 9 < now) :
    1 ≤ elapsedSeconds lastSample now := by
  have nanoseconds : 10 ^ 9 ≤ max (-2 ^ 63) (min (2 ^ 63 - 1) (now - lastSample)) := by
    omega
  rw [elapsedSeconds, le_div_iff₀ (by norm_num), one_mul]
  exact_mod_cast nanoseconds

theorem representable_div (delta : UInt64) {elapsed : ℚ} (atLeastOne : 1 ≤ elapsed) :
    Representable (delta.toNat / elapsed) := by
  constructor
  · positivity
  · calc
      (delta.toNat : ℚ) / elapsed ≤ delta.toNat := div_le_self (Nat.cast_nonneg _) atLeastOne
      _ < 2 ^ 64 := by exact_mod_cast delta.toNat_lt

theorem representable_of_refresh
    (refreshed : refresh errKeyNotExist bpfCol prev tick = .ok (frame, cur))
    (spaced : prev.time + 10 ^ 9 < cur.time) : frame.Representable := by
  have atLeastOne := one_le_elapsedSeconds spaced
  intro name rate isRate
  rw [(frame_of_refresh refreshed).2, lookup_computeNetThroughput (by linarith),
    Option.bind_eq_some_iff] at isRate
  rcases isRate with ⟨p, _, isThroughput⟩
  rcases Option.map_eq_some_iff.mp isThroughput with ⟨c, _, rfl⟩
  exact ⟨representable_div _ atLeastOne, representable_div _ atLeastOne⟩

theorem mem_order_iff {net : GoMap NetThroughput} (iteration : Iteration net)
    {entry : InterfaceRate} :
    entry ∈ iteration.order ↔ net.lookup entry.1 = some entry.2 := by
  rw [← Multiset.mem_coe, iteration.visits]
  exact Finmap.mem_lookup_iff.symm

theorem screen_of_representable (representable : frame.Representable)
    (iteration : Iteration frame.netRates) (outOfRange other : ℚ → UInt64) :
    screen outOfRange frame iteration.order = screen other frame iteration.order := by
  have sameLines : (shownInterfaces iteration.order).flatMap (drawnInterface outOfRange) =
      (shownInterfaces iteration.order).flatMap (drawnInterface other) := by
    apply List.flatMap_congr
    intro entry shown
    have isRate := (mem_order_iff iteration).mp (List.mem_of_mem_filter shown)
    rcases representable _ _ isRate with ⟨received, sent⟩
    simp only [drawnInterface, uint64OfFloat_of_representable received,
      uint64OfFloat_of_representable sent]
  rw [screen, screen, sameLines]

/-- The line of an interface. -/
theorem exists_interfaceLine {name : GoString} {rate : NetThroughput}
    (iteration : Iteration frame.netRates) (isRate : frame.netRates.lookup name = some rate)
    (notLoopback : name ≠ text "lo") (outOfRange : ℚ → UInt64) :
    ∃ above below, screen outOfRange frame iteration.order =
      above ++ interfaceLine name (shownBytes (uint64OfFloat outOfRange rate.rxBps))
        (shownBytes (uint64OfFloat outOfRange rate.txBps)) ++ below := by
  have present : (⟨name, rate⟩ : InterfaceRate) ∈ shownInterfaces iteration.order :=
    List.mem_filter.mpr ⟨(mem_order_iff iteration).mpr isRate, by simpa using notLoopback⟩
  rcases List.append_of_mem present with ⟨before, after, split⟩
  refine ⟨heading ++ cpuSection frame ++ memorySection frame.mem ++ swapSection frame.mem ++
    diskSection frame.diskUsage ++ text "\nNetwork:\n" ++
    before.flatMap (drawnInterface outOfRange),
    after.flatMap (drawnInterface outOfRange) ++ latencySection frame.latencyBuckets, ?_⟩
  rw [screen, split]
  simp [drawnInterface]

end Frames

/-! ## Runs -/

section Runs

variable {errKeyNotExist : GoString} {bpfCol : Bool}

theorem time_of_refresh {prev cur : Sample} {tick : Tick} {frame : Frame}
    (refreshed : refresh errKeyNotExist bpfCol prev tick = .ok (frame, cur)) :
    cur.time = tick.now := by
  rcases tick with ⟨cpu, mem, disk, net, now, kernel, fault⟩
  cases cpu <;> cases mem <;> cases disk <;> cases net <;> cases refreshed
  rfl

/-- More than a second passes. -/
def Spaced (before after : ℤ) : Prop := before + 10 ^ 9 < after

theorem representable_of_mem_loop {prev : Sample} {ticks : List Tick}
    (spaced : (prev.time :: ticks.map Tick.now).IsChain Spaced) :
    ∀ frame ∈ (loop errKeyNotExist bpfCol prev ticks).1, frame.Representable := by
  induction ticks generalizing prev with
  | nil => simp [loop]
  | cons tick ticks ih =>
      rw [List.map_cons, List.isChain_cons_cons] at spaced
      rw [loop]
      cases refreshed : refresh errKeyNotExist bpfCol prev tick with
      | error err => simp
      | ok result =>
          rcases result with ⟨frame, cur⟩
          have isNow := time_of_refresh refreshed
          rw [← isNow] at spaced
          exact List.forall_mem_cons.mpr
            ⟨representable_of_refresh refreshed spaced.1, ih spaced.2⟩

theorem representable_of_mem_run {useEBPF : Bool} {newCollector : Except GoString Unit}
    {cpu : Except GoString (List CPUTimes)} {net : Except GoString (List NetIO)} {now : ℤ}
    {ticks : List Tick} (spaced : (now :: ticks.map Tick.now).IsChain Spaced) :
    ∀ frame ∈ (run errKeyNotExist useEBPF newCollector cpu net now ticks).1,
      frame.Representable := by
  unfold run
  split
  · simp
  · split
    · simp
    · split
      · simp
      · exact representable_of_mem_loop spaced

end Runs

namespace Process

variable (platform : Platform) (flags : Flags) {script : Script}

theorem representable_of_mem_outcome
    (spaced : (script.first.now :: script.later.map Reading.now).IsChain Spaced) :
    ∀ frame ∈ (script.outcome platform flags).1, frame.Representable := by
  apply representable_of_mem_run
  rwa [List.map_map]

theorem shown_of_representable {frames : List Frame} (readings : List Reading)
    (representable : ∀ frame ∈ frames, frame.Representable) (other : ℚ → UInt64) :
    shown { platform with outOfRange := other } frames readings =
      shown platform frames readings := by
  induction frames generalizing readings with
  | nil => simp [shown]
  | cons frame frames ih =>
      rw [List.forall_mem_cons] at representable
      cases readings with
      | nil => simp [shown]
      | cons reading readings =>
          have sameScreen := screen_of_representable representable.1
            (reading.visit frame.netRates) other platform.outOfRange
          have sameRest := ih readings representable.2
          rw [shown, shown] at sameRest ⊢
          rw [List.zipWith_cons_cons, List.zipWith_cons_cons, sameRest, sameScreen]

/-- **Rates.** If all samples are more than a second apart, the process writes the same on every
machine, and each frame has a line for every interface but the loopback, which is read as its name
and as two sizes that are its rates, up to five percent and one byte per second. -/
theorem rates_shown (platform : Platform) (flags : Flags) (script : Script)
    (spaced : (script.first.now :: script.later.map Reading.now).IsChain Spaced) :
    (∀ other, script.writes { platform with outOfRange := other } flags =
      script.writes platform flags) ∧
    ∀ frame ∈ (script.outcome platform flags).1, ∀ (iteration : Iteration frame.netRates)
      (name : GoString) (rate : NetThroughput), frame.netRates.lookup name = some rate →
      name ≠ text "lo" → ∃ above below received sent rx tx,
        screen platform.outOfRange frame iteration.order =
          above ++ interfaceLine name received sent ++ below ∧
        readInterfaceLine (interfaceLine name received sent) =
          ⟨trimBlanks name, received, sent⟩ ∧
        readBytes received = some rx ∧ |rx - rate.rxBps| ≤ rate.rxBps / 20 + 1 ∧
        readBytes sent = some tx ∧ |tx - rate.txBps| ≤ rate.txBps / 20 + 1 := by
  have representable := representable_of_mem_outcome platform flags spaced
  constructor
  · intro other
    have sameScreens := shown_of_representable platform script.later representable other
    exact congrArg (fun screens => hideCursor :: (screens ++
      if (script.outcome platform flags).2 = none then [] else [showCursor])) sameScreens
  · intro frame isShown iteration name rate isRate notLoopback
    rcases representable frame isShown name rate isRate with ⟨received, sent⟩
    rcases exists_interfaceLine iteration isRate notLoopback platform.outOfRange with
      ⟨above, below, hasLine⟩
    rcases readBytes_rate received platform.outOfRange with ⟨rx, readsReceived, closeReceived⟩
    rcases readBytes_rate sent platform.outOfRange with ⟨tx, readsSent, closeSent⟩
    have readsLine := readInterfaceLine_interfaceLine
      (enclosed_shownBytes (uint64OfFloat platform.outOfRange rate.rxBps))
      (enclosed_shownBytes (uint64OfFloat platform.outOfRange rate.txBps)) name
    exact ⟨above, below, _, _, rx, tx, hasLine, readsLine, readsReceived, closeReceived,
      readsSent, closeSent⟩

/-- Six thousand bytes arrive within two seconds. -/
noncomputable def downloading : Script where
  collectorFault := fun _ => none
  first := { idleReading with netDev := .ok (text "\n\neth0: 1 0 0 0 0 0 0 0 5 0\n") }
  later := [{ idleReading with
    now := 2 * 10 ^ 9
    netDev := .ok (text "\n\neth0: 6001 0 0 0 0 0 0 0 5 0\n") }]

theorem rates_shown_of_downloading : ∃ frame ∈ (downloading.outcome plain everySecond).1,
    ∃ above below received sent rx tx,
      screen plain.outOfRange frame (anyOrder frame.netRates).order =
        above ++ interfaceLine (text "eth0") received sent ++ below ∧
      readInterfaceLine (interfaceLine (text "eth0") received sent) =
        ⟨trimBlanks (text "eth0"), received, sent⟩ ∧
      readBytes received = some rx ∧ |rx - 3000| ≤ 3000 / 20 + 1 ∧
      readBytes sent = some tx ∧ |tx - 0| ≤ 0 / 20 + 1 := by
  have evaluated : (downloading.outcome plain everySecond).1.head?.map (fun frame =>
      frame.netRates.lookup (text "eth0")) = some (some ⟨3000, 0⟩) := by
    decide +kernel
  rcases Option.map_eq_some_iff.mp evaluated with ⟨frame, isFirst, isRate⟩
  have isShown := List.mem_of_head? isFirst
  have notLoopback : text "eth0" ≠ text "lo" := by decide
  have spaced : (downloading.first.now :: downloading.later.map Reading.now).IsChain Spaced := by
    simp [downloading, idleReading, Spaced]
  have line := (rates_shown plain everySecond downloading spaced).2 frame isShown
    (anyOrder frame.netRates) (text "eth0") _ isRate notLoopback
  exact ⟨frame, isShown, line⟩

end Process

end Sysmon.Cmd
