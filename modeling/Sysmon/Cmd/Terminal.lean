import Sysmon.Cmd.Screen

/-!
# The cursor

`run` hides the cursor of the terminal and shows it again. Whether the cursor
is visible depends on everything that was written: the last of the two control
sequences counts, wherever it stands. This file says what the writes of the
program do to the cursor. A frame leaves it alone, if the names of the
interfaces, the labels of the buckets and the path contain no escape byte.
-/

namespace Sysmon.Cmd

open Sysmon.Go Sysmon.Stats Sysmon.Ebpf

abbrev escape : UInt8 := 0x1b

def hideCursor : GoString := text "\x1b[?25l"

def showCursor : GoString := text "\x1b[?25h"

/-- Whether the cursor is visible after a text is written, if it was before or not. -/
def cursorAfter (visible : Bool) : GoString → Bool
  | [] => visible
  | c :: rest =>
    cursorAfter (if hideCursor <+: c :: rest then false
      else if showCursor <+: c :: rest then true else visible) rest

/-- Whether the cursor is visible after the output, which begins on a visible one. -/
def cursorVisible (output : GoString) : Bool := cursorAfter true output

section Writes

theorem hideCursor_eq : hideCursor = [0x1b, 0x5b, 0x3f, 0x32, 0x35, 0x6c] := rfl

theorem showCursor_eq : showCursor = [0x1b, 0x5b, 0x3f, 0x32, 0x35, 0x68] := rfl

theorem cursorHome_append_clearDown :
    cursorHome ++ clearDown = [0x1b, 0x5b, 0x48, 0x1b, 0x5b, 0x4a] := rfl

/-- A sequence that has an escape byte at its start only does not reach over the start of the next
write, if that begins with an escape byte as well. -/
theorem prefix_append_iff {sequence write : GoString} {c : UInt8} (before : GoString)
    (startsOnce : escape ∉ sequence.tail) (starts : write.head? = some escape) :
    sequence <+: c :: before ++ write ↔ sequence <+: c :: before := by
  constructor
  · rintro ⟨rest, same⟩
    rcases List.append_eq_append_iff.mp same with ⟨middle, whole, _⟩ | ⟨middle, whole, isWrite⟩
    · exact ⟨middle, whole.symm⟩
    · -- What reaches over the start of the write would contain its escape byte.
      cases middle with
      | nil =>
          rw [List.append_nil] at whole
          exact ⟨[], by rw [List.append_nil, whole]⟩
      | cons first middle =>
          rw [isWrite, List.cons_append, List.head?_cons, Option.some.injEq] at starts
          rw [whole, List.cons_append, List.tail_cons, starts] at startsOnce
          exact absurd (List.mem_append_right _ List.mem_cons_self) startsOnce
  · intro isPrefix
    exact isPrefix.trans (List.prefix_append _ _)

theorem cursorAfter_append {write : GoString} (starts : write.head? = some escape)
    (visible : Bool) (before : GoString) :
    cursorAfter visible (before ++ write) = cursorAfter (cursorAfter visible before) write := by
  have hidesOnce : escape ∉ hideCursor.tail := by simp [hideCursor_eq, escape]
  have showsOnce : escape ∉ showCursor.tail := by simp [showCursor_eq, escape]
  induction before generalizing visible with
  | nil => rfl
  | cons c before ih =>
      rw [List.cons_append, cursorAfter, cursorAfter, ← List.cons_append]
      simp only [prefix_append_iff before hidesOnce starts,
        prefix_append_iff before showsOnce starts]
      exact ih _

theorem cursorAfter_of_escape_notMem {write : GoString} (clean : escape ∉ write)
    (visible : Bool) : cursorAfter visible write = visible := by
  have hides : hideCursor.head? = some escape := rfl
  have shows : showCursor.head? = some escape := rfl
  have notPrefix : ∀ {sequence rest : GoString} {c : UInt8}, sequence.head? = some escape →
      c ≠ escape → ¬sequence <+: c :: rest := by
    rintro sequence rest c starts different ⟨tail, same⟩
    cases sequence with
    | nil => cases starts
    | cons first sequence =>
        rw [List.head?_cons, Option.some.injEq] at starts
        rw [List.cons_append, List.cons.injEq] at same
        exact different (same.1.symm.trans starts)
  induction write with
  | nil => rfl
  | cons c write ih =>
      have different : c ≠ escape := (List.ne_of_not_mem_cons clean).symm
      rw [cursorAfter, if_neg (notPrefix hides different), if_neg (notPrefix shows different)]
      exact ih (List.not_mem_of_not_mem_cons clean)

@[simp]
theorem cursorAfter_hideCursor (visible : Bool) : cursorAfter visible hideCursor = false := by
  simp [cursorAfter, hideCursor_eq, showCursor_eq]

@[simp]
theorem cursorAfter_showCursor (visible : Bool) : cursorAfter visible showCursor = true := by
  simp [cursorAfter, hideCursor_eq, showCursor_eq]

/-- A write that begins like a frame, and contains no other control sequence. -/
def IsScreen (write : GoString) : Prop :=
  ∃ body, write = cursorHome ++ clearDown ++ body ∧ escape ∉ body

theorem cursorAfter_of_isScreen {write : GoString} (isScreen : IsScreen write) (visible : Bool) :
    cursorAfter visible write = visible := by
  rcases isScreen with ⟨body, rfl, clean⟩
  rw [cursorHome_append_clearDown]
  simpa [cursorAfter, hideCursor_eq, showCursor_eq] using
    cursorAfter_of_escape_notMem clean visible

theorem cursorVisible_append_showCursor (output : GoString) :
    cursorVisible (output ++ showCursor) = true := by
  have starts : showCursor.head? = some escape := rfl
  rw [cursorVisible, cursorAfter_append starts, cursorAfter_showCursor]

theorem cursorVisible_append_of_isScreen {write : GoString} (isScreen : IsScreen write)
    (output : GoString) : cursorVisible (output ++ write) = cursorVisible output := by
  have starts : write.head? = some escape := by
    rcases isScreen with ⟨body, rfl, _⟩
    rfl
  rw [cursorVisible, cursorAfter_append starts, cursorAfter_of_isScreen isScreen, cursorVisible]

end Writes

/-! ## Frames contain no other control sequence -/

section Frames

theorem escape_notMem_drawn :
    escape ∉ text "█" ∧ escape ∉ text "─" ∧ escape ∉ text "[" ∧ escape ∉ text "] " ∧
      escape ∉ text "%" ∧ escape ∉ text "." ∧ escape ∉ text " " ∧ escape ∉ text " B" ∧
      escape ∉ text "iB" ∧ escape ∉ text "KMGTPE" ∧ escape ∉ text "  " ∧ escape ∉ text " [" ∧
      escape ∉ text "  (" ∧ escape ∉ text "%)\n" ∧ escape ∉ nothingRecorded := by
  decide +kernel

theorem escape_notMem_headings :
    escape ∉ text "sysmon — live system monitor  (Ctrl+C to quit)\n" ∧ escape ∉ text "\n\n" ∧
      escape ∉ text "CPU    " ∧ escape ∉ text "Memory " ∧ escape ∉ text "Swap   " ∧
      escape ∉ text "Disk   " ∧ escape ∉ text "\nNetwork:\n" ∧ escape ∉ text "\n" ∧
      escape ∉ text " / " ∧ escape ∉ text ")" ∧ escape ∉ text "]\n" ∧ escape ∉ text " ↓ " ∧
      escape ∉ text " ↑ " ∧ escape ∉ text "/s" ∧
      escape ∉ text "\nBlock I/O Latency (this interval, via eBPF):\n" := by
  decide +kernel

theorem escape_notMem_formatDecimal (number : ℕ) : escape ∉ formatDecimal number :=
  notMem_formatDecimal (by decide) number

theorem escape_notMem_formatFixed1 (number : ℚ) : escape ∉ formatFixed1 number :=
  notMem_formatFixed1 (by decide) (by simp [escape_notMem_drawn]) number

theorem escape_notMem_padLeft {s : GoString} (width : ℕ) (clean : escape ∉ s) :
    escape ∉ padLeft width s :=
  notMem_padLeft (by decide) width clean

theorem escape_notMem_padRight {s : GoString} (width : ℕ) (clean : escape ∉ s) :
    escape ∉ padRight width s :=
  notMem_padRight (by decide) width clean

theorem escape_notMem_drawnBar (pct : ℚ) : escape ∉ drawnBar pct :=
  notMem_drawnBar (by decide) (by decide) pct

theorem escape_notMem_shownBytes (b : UInt64) : escape ∉ shownBytes b :=
  notMem_shownBytes (by decide) (by decide) b

theorem escape_notMem_usageLine {title drawn used total : GoString} (titleClean : escape ∉ title)
    (drawnClean : escape ∉ drawn) (usedClean : escape ∉ used) (totalClean : escape ∉ total) :
    escape ∉ usageLine title drawn used total := by
  simp [usageLine, titleClean, drawnClean, usedClean, totalClean, escape_notMem_drawn,
    escape_notMem_headings]

theorem escape_notMem_drawnInterface (outOfRange : ℚ → UInt64) {entry : InterfaceRate}
    (clean : escape ∉ entry.1) : escape ∉ drawnInterface outOfRange entry := by
  have received := escape_notMem_shownBytes (uint64OfFloat outOfRange entry.2.rxBps)
  have padded : escape ∉ padRight 14
      (shownBytes (uint64OfFloat outOfRange entry.2.rxBps) ++ text "/s") := by
    apply escape_notMem_padRight
    simp [received, escape_notMem_headings]
  simp [drawnInterface, interfaceLine, escape_notMem_drawn, escape_notMem_headings, padded,
    escape_notMem_padRight 10 clean, escape_notMem_shownBytes]

theorem escape_notMem_drawnBuckets {buckets : List LatencyBucket}
    (clean : ∀ b ∈ buckets, escape ∉ b.label) : escape ∉ drawnBuckets buckets := by
  rw [drawnBuckets]
  split
  · simp [escape_notMem_drawn]
  · simp only [List.mem_flatMap, not_exists, not_and]
    intro b present
    rw [drawnBucket]
    split
    · exact List.not_mem_nil
    · simp [bucketLine, escape_notMem_drawn, escape_notMem_padRight 12 (clean b present),
        escape_notMem_padLeft 6 (escape_notMem_formatDecimal _),
        escape_notMem_padLeft 4 (escape_notMem_formatFixed1 _)]

theorem isScreen_screen (outOfRange : ℚ → UInt64) {frame : Frame} {order : List InterfaceRate}
    (path : escape ∉ frame.diskUsage.path) (names : ∀ entry ∈ order, escape ∉ entry.1)
    (labels : ∀ b ∈ frame.latencyBuckets, escape ∉ b.label) :
    IsScreen (screen outOfRange frame order) := by
  have cpu : escape ∉ cpuSection frame := by
    rw [cpuSection]
    split
    · exact List.not_mem_nil
    · simp [escape_notMem_headings, escape_notMem_drawnBar]
  have usage : ∀ {title : GoString}, escape ∉ title → ∀ (pct : ℚ) (used total : UInt64),
      escape ∉ usageLine title (drawnBar pct) (shownBytes used) (shownBytes total) :=
    fun titleClean pct used total => escape_notMem_usageLine titleClean
      (escape_notMem_drawnBar pct) (escape_notMem_shownBytes used)
      (escape_notMem_shownBytes total)
  have memory : escape ∉ memorySection frame.mem := by
    simp [memorySection, usage, escape_notMem_headings]
  have swap : escape ∉ swapSection frame.mem := by
    rw [swapSection]
    split
    · simp [usage, escape_notMem_headings]
    · exact List.not_mem_nil
  have disk : escape ∉ diskSection frame.diskUsage := by
    simp [diskSection, usage, escape_notMem_drawn, escape_notMem_headings, path]
  have network : escape ∉ (shownInterfaces order).flatMap (drawnInterface outOfRange) := by
    simp only [List.mem_flatMap, not_exists, not_and]
    intro entry shown
    exact escape_notMem_drawnInterface outOfRange (names entry (List.mem_of_mem_filter shown))
  have latency : escape ∉ latencySection frame.latencyBuckets := by
    rw [latencySection]
    split
    · simp [escape_notMem_headings, escape_notMem_drawnBuckets labels]
    · exact List.not_mem_nil
  refine ⟨text "sysmon — live system monitor  (Ctrl+C to quit)\n" ++
    ((List.replicate 50 (text "─")).flatten ++ text "\n\n") ++ cpuSection frame ++
    memorySection frame.mem ++ swapSection frame.mem ++ diskSection frame.diskUsage ++
    text "\nNetwork:\n" ++ (shownInterfaces order).flatMap (drawnInterface outOfRange) ++
    latencySection frame.latencyBuckets, ?_, ?_⟩
  · simp only [screen, heading, List.append_assoc]
  · simp [escape_notMem_drawn, escape_notMem_headings, cpu, memory, swap, disk, network, latency]

end Frames

end Sysmon.Cmd
