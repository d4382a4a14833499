import Sysmon.Ebpf.Refresh
import Sysmon.Stats.Cpu
import Sysmon.Stats.Net
import Sysmon.Stats.Usage

/-!
# The refresh loop

This file embeds `run` of `main.go`: the first readings, the loop over the
ticks with the state it carries from one refresh to the next, and the errors
that end it. What a tick reads is an input of the model, each reading with the
error it may fail with.

The theorem of this file is that the loop neither loses nor repeats anything
between refreshes. Each rate and each percentage is the advance of a counter
since the reading that the previous refresh has used, so that the advances add
up to the difference between the last and the first reading.
-/

namespace Sysmon.Cmd

open Sysmon.Go Sysmon.Stats Sysmon.Ebpf

/-- What the refresh loop carries over: `prevCPU`, `prevNet` and `lastSample`. Times are in
nanoseconds. -/
structure Sample where
  cpu : List CPUTimes
  net : List NetIO
  time : ℤ

/-- What a tick reads. The maps and the failing operations matter only with a collector. -/
structure Tick where
  cpu : Except GoString (List CPUTimes)
  mem : Except GoString MemInfo
  disk : Except GoString DiskUsage
  net : Except GoString (List NetIO)
  now : ℤ
  kernel : KernelState
  fault : HistOp → Option GoString

/-- What a refresh hands to `render`. -/
structure Frame where
  cpuPct : GoMap ℚ
  mem : MemInfo
  diskUsage : DiskUsage
  netRates : GoMap NetThroughput
  latencyBuckets : List LatencyBucket

/-- `now.Sub(lastSample).Seconds()`: durations are 64-bit counts of nanoseconds and saturate. -/
def elapsedSeconds (lastSample now : ℤ) : ℚ :=
  (max (-2 ^ 63) (min (2 ^ 63 - 1) (now - lastSample)) : ℤ) / 10 ^ 9

def refresh (errKeyNotExist : GoString) (bpfCol : Bool) (prev : Sample) (tick : Tick) :
    Except GoString (Frame × Sample) := do
  let curCPU ← tick.cpu
  let mem ← tick.mem
  let diskUsage ← tick.disk
  let curNet ← tick.net
  let now := tick.now
  let elapsed := elapsedSeconds prev.time now
  let cpuPct := cpuPercent prev.cpu curCPU
  let netRates := computeNetThroughput prev.net curNet elapsed
  let latencyBuckets :=
    if bpfCol then
      ((refreshLatency errKeyNotExist).exec (HistOp.interpret tick.fault) tick.kernel).1
    else []
  return (⟨cpuPct, mem, diskUsage, netRates, latencyBuckets⟩, ⟨curCPU, curNet, now⟩)

/-- The loop: the frames shown, and the error that ends it. -/
def loop (errKeyNotExist : GoString) (bpfCol : Bool) (prev : Sample) :
    List Tick → List Frame × Option GoString
  | [] => ([], none)
  | tick :: ticks =>
    match refresh errKeyNotExist bpfCol prev tick with
    | .error err => ([], some err)
    | .ok (frame, cur) =>
      let (frames, err) := loop errKeyNotExist bpfCol cur ticks
      (frame :: frames, err)

/-- `run`: the collector is started on request, and the first readings are taken. -/
def run (errKeyNotExist : GoString) (useEBPF : Bool) (newCollector : Except GoString Unit)
    (cpu : Except GoString (List CPUTimes)) (net : Except GoString (List NetIO)) (now : ℤ)
    (ticks : List Tick) : List Frame × Option GoString :=
  match if useEBPF then newCollector else .ok () with
  | .error err =>
    ([], some (text "eBPF collector: " ++ err ++
      text "\n(tip: run as root, and ensure kernel 5.8+ with BTF)"))
  | .ok () =>
    match cpu with
    | .error err => ([], some err)
    | .ok prevCPU =>
      match net with
      | .error err => ([], some err)
      | .ok prevNet => loop errKeyNotExist useEBPF ⟨prevCPU, prevNet, now⟩ ticks

/-- The readings of a tick, in the order in which a failing one ends the loop. -/
def Tick.sample (tick : Tick) : Except GoString Sample := do
  let curCPU ← tick.cpu
  let _ ← tick.mem
  let _ ← tick.disk
  let curNet ← tick.net
  return ⟨curCPU, curNet, tick.now⟩

/-- The samples of the ticks before the first one with a failing reading. -/
def samples : List Tick → List Sample
  | [] => []
  | tick :: ticks =>
    match tick.sample with
    | .error _ => []
    | .ok sample => sample :: samples ticks

theorem map_snd_refresh (errKeyNotExist : GoString) (bpfCol : Bool) (prev : Sample)
    (tick : Tick) :
    (refresh errKeyNotExist bpfCol prev tick).map Prod.snd = tick.sample := by
  rcases tick with ⟨cpu, mem, disk, net, now, kernel, fault⟩
  cases cpu <;> cases mem <;> cases disk <;> cases net <;> rfl

private theorem bind_eq_ok {Error Value Result : Type} {reading : Except Error Value}
    {following : Value → Except Error Result} {result : Result}
    (succeeded : (reading >>= following) = .ok result) :
    ∃ value, reading = .ok value ∧ following value = .ok result := by
  cases reading with
  | error err => cases succeeded
  | ok value => exact ⟨value, rfl, succeeded⟩

theorem frame_of_refresh {errKeyNotExist : GoString} {bpfCol : Bool} {prev cur : Sample}
    {tick : Tick} {frame : Frame}
    (refreshed : refresh errKeyNotExist bpfCol prev tick = .ok (frame, cur)) :
    frame.cpuPct = cpuPercent prev.cpu cur.cpu ∧
      frame.netRates =
        computeNetThroughput prev.net cur.net (elapsedSeconds prev.time cur.time) := by
  rcases bind_eq_ok refreshed with ⟨curCPU, _, afterCPU⟩
  rcases bind_eq_ok afterCPU with ⟨mem, _, afterMem⟩
  rcases bind_eq_ok afterMem with ⟨diskUsage, _, afterDisk⟩
  rcases bind_eq_ok afterDisk with ⟨curNet, _, afterNet⟩
  cases afterNet
  exact ⟨rfl, rfl⟩

theorem length_loop (errKeyNotExist : GoString) (bpfCol : Bool) (prev : Sample)
    (ticks : List Tick) :
    (loop errKeyNotExist bpfCol prev ticks).1.length = (samples ticks).length := by
  induction ticks generalizing prev with
  | nil => rfl
  | cons tick ticks ih =>
      have carried := map_snd_refresh errKeyNotExist bpfCol prev tick
      cases refreshed : refresh errKeyNotExist bpfCol prev tick with
      | error err =>
          rw [refreshed] at carried
          simp only [loop, samples, refreshed, ← carried, Except.map]
          rfl
      | ok result =>
          rcases result with ⟨frame, cur⟩
          rw [refreshed] at carried
          simp only [loop, samples, refreshed, ← carried, Except.map, List.length_cons, ih cur]

/-! ## What adds up over a run -/

/-- The sum over the refreshes of a run of what each frame says about its two samples. -/
def sumOver (gain : Frame → Sample → Sample → ℚ) (frames : List Frame) (samples : List Sample) :
    ℚ :=
  (List.zipWith3 gain frames samples samples.tail).sum

/-- Gains that are the differences of a level add up to the difference over the whole run. -/
theorem sumOver_loop {errKeyNotExist : GoString} {bpfCol : Bool}
    {gain : Frame → Sample → Sample → ℚ} (level : Sample → ℚ) {related : Sample → Sample → Prop}
    (gains : ∀ prev cur tick frame, refresh errKeyNotExist bpfCol prev tick = .ok (frame, cur) →
      related prev cur → gain frame prev cur = level cur - level prev)
    {first : Sample} {ticks : List Tick} (chain : (first :: samples ticks).IsChain related) :
    sumOver gain (loop errKeyNotExist bpfCol first ticks).1 (first :: samples ticks) =
      level ((samples ticks).getLastD first) - level first := by
  induction ticks generalizing first with
  | nil => simp [sumOver, loop, samples, List.zipWith3]
  | cons tick ticks ih =>
      have carried := map_snd_refresh errKeyNotExist bpfCol first tick
      cases refreshed : refresh errKeyNotExist bpfCol first tick with
      | error err =>
          rw [refreshed] at carried
          simp [sumOver, loop, samples, refreshed, ← carried, List.zipWith3, Except.map]
      | ok result =>
          rcases result with ⟨frame, cur⟩
          rw [refreshed] at carried
          have isSample : tick.sample = .ok cur := carried.symm
          simp only [samples, isSample] at chain ⊢
          rw [List.isChain_cons_cons] at chain
          have rest := ih chain.2
          have head := gains first cur tick frame refreshed chain.1
          simp only [sumOver, loop, refreshed, List.tail_cons] at rest ⊢
          rw [List.getLastD_cons, List.zipWith3, List.sum_cons, rest, head]
          ring

theorem elapsedSeconds_of_lt {lastSample now : ℤ} (later : lastSample < now)
    (fits : now - lastSample < 2 ^ 63) :
    elapsedSeconds lastSample now = ((now - lastSample : ℤ) : ℚ) / 10 ^ 9 := by
  have exact : max (-2 ^ 63) (min (2 ^ 63 - 1) (now - lastSample)) = now - lastSample := by
    omega
  rw [elapsedSeconds, exact]

theorem elapsedSeconds_pos {lastSample now : ℤ} (later : lastSample < now) :
    0 < elapsedSeconds lastSample now := by
  have positive : 0 < max (-2 ^ 63) (min (2 ^ 63 - 1) (now - lastSample)) := by
    omega
  have cast : (0 : ℚ) < (max (-2 ^ 63) (min (2 ^ 63 - 1) (now - lastSample)) : ℤ) :=
    Int.cast_pos.mpr positive
  rw [elapsedSeconds]
  positivity

namespace Frame

def rxBps (name : GoString) (frame : Frame) : ℚ :=
  ((frame.netRates.lookup name).map NetThroughput.rxBps).getD 0

def txBps (name : GoString) (frame : Frame) : ℚ :=
  ((frame.netRates.lookup name).map NetThroughput.txBps).getD 0

def percent (name : GoString) (frame : Frame) : ℚ := (frame.cpuPct.lookup name).getD 0

end Frame

namespace Sample

def interface (name : GoString) (sample : Sample) : Option NetIO :=
  sample.net.find? fun item => item.interface = name

def cpuTimes (name : GoString) (sample : Sample) : Option CPUTimes :=
  sample.cpu.find? fun item => item.name = name

def rxBytes (name : GoString) (sample : Sample) : ℕ :=
  ((sample.interface name).map fun item => item.rxBytes.toNat).getD 0

def txBytes (name : GoString) (sample : Sample) : ℕ :=
  ((sample.interface name).map fun item => item.txBytes.toNat).getD 0

def counted (name : GoString) (sample : Sample) : ℕ :=
  ((sample.cpuTimes name).map CPUTimes.counted).getD 0

def busy (name : GoString) (sample : Sample) : ℚ :=
  ((sample.cpuTimes name).map CPUTimes.busy).getD 0

def HasInterface (name : GoString) (sample : Sample) : Prop :=
  (sample.net.countP fun item => item.interface = name) = 1

def HasCPU (name : GoString) (sample : Sample) : Prop :=
  (sample.cpu.countP fun item => item.name = name) = 1

def NetGrows (name : GoString) (prev cur : Sample) : Prop :=
  ∀ p ∈ prev.interface name, ∀ c ∈ cur.interface name,
    p.rxBytes ≤ c.rxBytes ∧ p.txBytes ≤ c.txBytes

instance (name : GoString) (sample : Sample) : Decidable (sample.HasInterface name) :=
  inferInstanceAs (Decidable (_ = _))

instance (name : GoString) (sample : Sample) : Decidable (sample.HasCPU name) :=
  inferInstanceAs (Decidable (_ = _))

/-- The counted fields of the CPU do not go back, and advance by less than `2 ^ 64` in total. -/
def CPUAdvances (name : GoString) (prev cur : Sample) : Prop :=
  ∀ p ∈ prev.cpuTimes name, ∀ c ∈ cur.cpuTimes name, p.Advances c

instance (name : GoString) (prev cur : Sample) : Decidable (prev.NetGrows name cur) :=
  inferInstanceAs (Decidable (∀ p ∈ prev.interface name, ∀ c ∈ cur.interface name, _))

instance (name : GoString) (prev cur : Sample) : Decidable (prev.CPUAdvances name cur) :=
  inferInstanceAs (Decidable (∀ p ∈ prev.cpuTimes name, ∀ c ∈ cur.cpuTimes name, _))

end Sample

section Gains

variable {errKeyNotExist : GoString} {bpfCol : Bool} {prev cur : Sample} {tick : Tick}
  {frame : Frame} {name : GoString}

/-- The rates of a refresh, times the elapsed time, are the bytes since the sample before. -/
theorem rates_of_refresh
    (refreshed : refresh errKeyNotExist bpfCol prev tick = .ok (frame, cur))
    (later : prev.time < cur.time) (inPrev : prev.HasInterface name)
    (inCur : cur.HasInterface name) (grows : prev.NetGrows name cur) :
    frame.rxBps name * elapsedSeconds prev.time cur.time =
        (cur.rxBytes name : ℚ) - prev.rxBytes name ∧
      frame.txBps name * elapsedSeconds prev.time cur.time =
        (cur.txBytes name : ℚ) - prev.txBytes name := by
  have positive := elapsedSeconds_pos later
  rcases KeyedList.exists_find? inPrev with ⟨p, isPrev⟩
  rcases KeyedList.exists_find? inCur with ⟨c, isCur⟩
  have entry : frame.netRates.lookup name =
      some (throughput (elapsedSeconds prev.time cur.time) p c) := by
    rw [(frame_of_refresh refreshed).2, lookup_computeNetThroughput positive,
      KeyedList.last_eq_find? inPrev, KeyedList.last_eq_find? inCur, isPrev, isCur]
    rfl
  have isPrev' : prev.interface name = some p := isPrev
  have isCur' : cur.interface name = some c := isCur
  rcases grows p isPrev' c isCur' with ⟨rxGrows, txGrows⟩
  simp only [Frame.rxBps, Frame.txBps, Sample.rxBytes, Sample.txBytes, entry, isPrev', isCur',
    Option.map_some, Option.getD_some]
  constructor
  · exact counterDelta_div_mul positive rxGrows
  · exact counterDelta_div_mul positive txGrows

theorem percent_of_refresh
    (refreshed : refresh errKeyNotExist bpfCol prev tick = .ok (frame, cur))
    (inPrev : prev.HasCPU name) (inCur : cur.HasCPU name) (advances : prev.CPUAdvances name cur) :
    frame.percent name / 100 * (cur.counted name - prev.counted name : ℕ) =
      cur.busy name - prev.busy name := by
  rcases KeyedList.exists_find? inPrev with ⟨p, isPrev⟩
  rcases KeyedList.exists_find? inCur with ⟨c, isCur⟩
  have entry : frame.cpuPct.lookup name = some (p.percent c) := by
    rw [(frame_of_refresh refreshed).1, lookup_cpuPercent, KeyedList.last_eq_find? inPrev,
      KeyedList.last_eq_find? inCur, isPrev, isCur]
    rfl
  have isPrev' : prev.cpuTimes name = some p := isPrev
  have isCur' : cur.cpuTimes name = some c := isCur
  simp only [Frame.percent, Sample.counted, Sample.busy, entry, isPrev', isCur', Option.map_some,
    Option.getD_some]
  exact (advances p isPrev' c isCur').percent_mul_advance

end Gains

theorem isChain_and {related ordered : Sample → Sample → Prop} {readings : List Sample}
    (isRelated : readings.IsChain related) (isOrdered : readings.IsChain ordered) :
    readings.IsChain fun prev cur => related prev cur ∧ ordered prev cur := by
  rw [List.isChain_iff_getElem] at isRelated isOrdered ⊢
  intro position inside
  exact ⟨isRelated position inside, isOrdered position inside⟩

theorem run_eq_loop (errKeyNotExist : GoString) (useEBPF : Bool) (cpu : List CPUTimes)
    (net : List NetIO) (now : ℤ) (ticks : List Tick) :
    run errKeyNotExist useEBPF (.ok ()) (.ok cpu) (.ok net) now ticks =
      loop errKeyNotExist useEBPF ⟨cpu, net, now⟩ ticks := by
  cases useEBPF <;> rfl

/-- **Nothing is lost or counted twice between refreshes.** In every run whose samples are taken
one after the other, the received and the sent bytes that the frames stand for add up to the
advance of the counters over the whole run, for each interface that is in all samples and is not
reset; and so does the busy time of each CPU that is in all samples and does not go back. The rates
are for the seconds between two samples, which a duration can hold up to 2^63 nanoseconds. -/
theorem nothing_lost_between_refreshes (errKeyNotExist : GoString) (useEBPF : Bool)
    (cpu : List CPUTimes) (net : List NetIO) (now : ℤ) (ticks : List Tick)
    (ordered : ((⟨cpu, net, now⟩ : Sample) :: samples ticks).IsChain fun prev cur =>
      prev.time < cur.time) :
    let first : Sample := ⟨cpu, net, now⟩
    let last : Sample := (samples ticks).getLastD first
    let frames := (run errKeyNotExist useEBPF (.ok ()) (.ok cpu) (.ok net) now ticks).1
    frames.length = (samples ticks).length ∧
      ((first :: samples ticks).IsChain fun prev cur => cur.time - prev.time < 2 ^ 63 →
        elapsedSeconds prev.time cur.time = ((cur.time - prev.time : ℤ) : ℚ) / 10 ^ 9) ∧
      (∀ name, (∀ sample ∈ first :: samples ticks, sample.HasInterface name) →
        (first :: samples ticks).IsChain (Sample.NetGrows name) →
        sumOver (fun frame prev cur => frame.rxBps name * elapsedSeconds prev.time cur.time)
            frames (first :: samples ticks) = (last.rxBytes name : ℚ) - first.rxBytes name ∧
          sumOver (fun frame prev cur => frame.txBps name * elapsedSeconds prev.time cur.time)
            frames (first :: samples ticks) = (last.txBytes name : ℚ) - first.txBytes name) ∧
      ∀ name, (∀ sample ∈ first :: samples ticks, sample.HasCPU name) →
        (first :: samples ticks).IsChain (Sample.CPUAdvances name) →
        sumOver (fun frame prev cur =>
            frame.percent name / 100 * (cur.counted name - prev.counted name : ℕ))
          frames (first :: samples ticks) = last.busy name - first.busy name := by
  intro first last frames
  have framesOfLoop : frames = (loop errKeyNotExist useEBPF first ticks).1 :=
    congrArg Prod.fst (run_eq_loop errKeyNotExist useEBPF cpu net now ticks)
  rw [framesOfLoop]
  refine ⟨length_loop errKeyNotExist useEBPF first ticks,
    ordered.imp fun _ _ later => elapsedSeconds_of_lt later, ?_, ?_⟩
  · intro name everywhere grows
    have chain : (first :: samples ticks).IsChain fun prev cur =>
        (prev.HasInterface name ∧ cur.HasInterface name) ∧
          prev.NetGrows name cur ∧ prev.time < cur.time := by
      apply (isChain_and grows ordered).imp_of_mem_imp
      intro prev cur inPrev inCur both
      exact ⟨⟨everywhere prev inPrev, everywhere cur inCur⟩, both⟩
    constructor
    · apply sumOver_loop (fun sample => (sample.rxBytes name : ℚ)) _ chain
      intro prev cur tick frame refreshed both
      exact (rates_of_refresh refreshed both.2.2 both.1.1 both.1.2 both.2.1).1
    · apply sumOver_loop (fun sample => (sample.txBytes name : ℚ)) _ chain
      intro prev cur tick frame refreshed both
      exact (rates_of_refresh refreshed both.2.2 both.1.1 both.1.2 both.2.1).2
  · intro name everywhere advances
    have chain : (first :: samples ticks).IsChain fun prev cur =>
        (prev.HasCPU name ∧ cur.HasCPU name) ∧ prev.CPUAdvances name cur := by
      apply advances.imp_of_mem_imp
      intro prev cur inPrev inCur advance
      exact ⟨⟨everywhere prev inPrev, everywhere cur inCur⟩, advance⟩
    apply sumOver_loop (Sample.busy name) _ chain
    intro prev cur tick frame refreshed both
    exact percent_of_refresh refreshed both.1.1 both.1.2 both.2

def tickOf (sample : Sample) : Tick where
  cpu := .ok sample.cpu
  mem := .ok ⟨0, 0, 0, 0, 0, 0, 0⟩
  disk := .ok ⟨text "/", 0, 0⟩
  net := .ok sample.net
  now := sample.time
  kernel := KernelState.loaded
  fault := fun _ => none

theorem samples_map_tickOf (readings : List Sample) : samples (readings.map tickOf) = readings := by
  induction readings with
  | nil => rfl
  | cons sample readings ih => exact congrArg (sample :: ·) ih

/-- Three samples, two and three seconds apart. The second one also has a loopback interface and
another CPU, listed first. -/
def threeSamples : Sample × Sample × Sample :=
  (⟨[⟨text "cpu0", 10, 0, 10, 0, 0, 0, 0, 0, 0, 0⟩], [⟨text "eth0", 100, 1, 100, 1⟩], 0⟩,
    ⟨[⟨text "cpu1", 5, 0, 0, 0, 0, 0, 0, 0, 0, 0⟩, ⟨text "cpu0", 60, 0, 10, 50, 0, 0, 0, 0, 0, 0⟩],
      [⟨text "lo", 7, 1, 7, 1⟩, ⟨text "eth0", 300, 3, 100, 1⟩], 2 * 10 ^ 9⟩,
    ⟨[⟨text "cpu0", 85, 0, 35, 100, 0, 0, 0, 0, 0, 0⟩], [⟨text "eth0", 900, 9, 100, 1⟩],
      5 * 10 ^ 9⟩)

theorem nothing_lost_over_three_samples :
    let first := threeSamples.1
    let later := [threeSamples.2.1, threeSamples.2.2]
    let frames := (run (text "key does not exist") false (.ok ()) (.ok first.cpu) (.ok first.net)
      first.time (later.map tickOf)).1
    frames.length = 2 ∧
      elapsedSeconds first.time threeSamples.2.1.time = 2 ∧
      elapsedSeconds threeSamples.2.1.time threeSamples.2.2.time = 3 ∧
      sumOver (fun frame prev cur => frame.rxBps (text "eth0") * elapsedSeconds prev.time cur.time)
        frames (first :: later) = 800 ∧
      sumOver (fun frame prev cur => frame.percent (text "cpu0") / 100 *
          (cur.counted (text "cpu0") - prev.counted (text "cpu0") : ℕ))
        frames (first :: later) = 100 := by
  intro first later frames
  have nothingLost := nothing_lost_between_refreshes (text "key does not exist") false first.cpu
    first.net first.time (later.map tickOf)
  rw [samples_map_tickOf] at nothingLost
  rcases nothingLost (by decide) with ⟨oneEach, seconds, rates, percentages⟩
  rw [List.isChain_cons_cons, List.isChain_pair] at seconds
  have received := (rates (text "eth0") (by decide +kernel) (by decide +kernel)).1
  have busy := percentages (text "cpu0") (by decide +kernel) (by decide +kernel)
  refine ⟨oneEach, ?_, ?_, ?_, ?_⟩
  · apply (seconds.1 (by decide)).trans
    decide +kernel
  · apply (seconds.2 (by decide)).trans
    decide +kernel
  · apply received.trans
    decide +kernel
  · apply busy.trans
    decide +kernel

end Sysmon.Cmd
