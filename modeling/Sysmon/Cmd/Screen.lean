import Sysmon.Cmd.HumanBytes
import Sysmon.Cmd.Run
import Sysmon.Ebpf.Render

/-!
# The screen

This file embeds `render`, `bar` and `humanKB` of `main.go`: how a frame
becomes the text that is written to the terminal. The interfaces come in the
order in which the loop over the map visits them, which is a different one each
time. A rate is converted to a whole number of bytes; what the conversion does
with a number that does not fit into 64 bits depends on the machine.

`strings.Repeat` panics at a negative count, and so does an index that is out
of range. Neither can happen, whatever a frame contains.
-/

namespace Sysmon.Cmd

open Sysmon.Go Sysmon.Stats Sysmon.Ebpf

def clearDown : GoString := text "\x1b[J"

def cursorHome : GoString := text "\x1b[H"

/-- `uint64(x)` of a floating-point number, where `outOfRange` is what the machine makes of a
number that does not fit. -/
def uint64OfFloat (outOfRange : ℚ → UInt64) (x : ℚ) : UInt64 :=
  if 0 ≤ truncate x ∧ truncate x < 2 ^ 64 then UInt64.ofNat (truncate x).toNat else outOfRange x

/-- `bar`, without a result if it panics. -/
def bar (pct : ℚ) : Option GoString :=
  let width : ℤ := 20
  let pct := if pct < 0 then 0 else pct
  let pct := if pct > 100 then 100 else pct
  let filled := truncate (pct / 100 * width)
  do
    let full ← repeatString (text "█") filled
    let empty ← repeatString (text "─") (width - filled)
    return text "[" ++ full ++ empty ++ text "] " ++ padLeft 5 (formatFixed1 pct) ++ text "%"

def humanKB (kb : UInt64) : Option GoString := humanBytes (kb * 1024)

/-- An entry of the map of rates, as the loop visits it. -/
abbrev InterfaceRate := Σ _ : GoString, NetThroughput

/-- An order in which `range` visits the entries of a map. -/
structure Iteration (net : GoMap NetThroughput) where
  order : List InterfaceRate
  visits : (order : Multiset InterfaceRate) = net.entries

/-- The line that `fmt.Fprintf` prints for an interface. -/
def interfaceLine (iface received sent : GoString) : GoString :=
  text "  " ++ padRight 10 iface ++ text " ↓ " ++ padRight 14 (received ++ text "/s") ++
    text " ↑ " ++ (sent ++ text "/s") ++ text "\n"

/-- The body of the loop over the interfaces. -/
def renderInterface (outOfRange : ℚ → UInt64) (b : GoString) (entry : InterfaceRate) :
    Option GoString :=
  if entry.1 = text "lo" then some b -- loopback is rarely interesting in a live view
  else do
    let received ← humanBytes (uint64OfFloat outOfRange entry.2.rxBps)
    let sent ← humanBytes (uint64OfFloat outOfRange entry.2.txBps)
    return b ++ interfaceLine entry.1 received sent

/-- A line with a bar, and with what is in use of a total. -/
def usageLine (title drawn used total : GoString) : GoString :=
  title ++ drawn ++ text "  (" ++ used ++ text " / " ++ total ++ text ")"

/-- `render`, without a result if it panics, where the loop over `net` visits the interfaces in
the given order. -/
def render (outOfRange : ℚ → UInt64) (frame : Frame) (order : List InterfaceRate) :
    Option GoString := do
  let b := cursorHome ++ clearDown
  let b := b ++ text "sysmon — live system monitor  (Ctrl+C to quit)\n"
  let divider ← repeatString (text "─") 50
  let b := b ++ (divider ++ text "\n\n")
  let b ← match frame.cpuPct.lookup (text "cpu") with
    | none => some b
    | some pct => do
      let drawn ← bar pct
      pure (b ++ (text "CPU    " ++ drawn ++ text "\n"))
  let mem := frame.mem
  let drawn ← bar mem.usedPercent
  let used ← humanKB mem.usedKB
  let total ← humanKB mem.totalKB
  let b := b ++ (usageLine (text "Memory ") drawn used total ++ text "\n")
  let b ← if mem.swapTotalKB > 0 then do
      let swapPct : ℚ := mem.swapUsedKB.toNat / mem.swapTotalKB.toNat * 100
      let drawn ← bar swapPct
      let used ← humanKB mem.swapUsedKB
      let total ← humanKB mem.swapTotalKB
      pure (b ++ (usageLine (text "Swap   ") drawn used total ++ text "\n"))
    else some b
  let disk := frame.diskUsage
  let drawn ← bar disk.usedPercent
  let used ← humanBytes disk.usedBytes
  let total ← humanBytes disk.totalBytes
  let b := b ++ (usageLine (text "Disk   ") drawn used total ++ text " [" ++ disk.path ++
    text "]\n")
  let b := b ++ text "\nNetwork:\n"
  let b ← order.foldlM (renderInterface outOfRange) b
  if frame.latencyBuckets.length > 0 then do
    let b := b ++ text "\nBlock I/O Latency (this interval, via eBPF):\n"
    let drawn ← renderASCII frame.latencyBuckets
    return b ++ drawn
  else some b

/-! ## Bars -/

section Bars

/-- What `bar` makes of its argument before it draws it. -/
def clampPercent (pct : ℚ) : ℚ := min 100 (max 0 pct)

/-- One full cell for every five percent. -/
def barCells (pct : ℚ) : ℕ := ⌊clampPercent pct / 5⌋₊

def drawnBar (pct : ℚ) : GoString :=
  text "[" ++ (List.replicate (barCells pct) (text "█")).flatten ++
    (List.replicate (20 - barCells pct) (text "─")).flatten ++ text "] " ++
    padLeft 5 (formatFixed1 (clampPercent pct)) ++ text "%"

theorem clampPercent_mem (pct : ℚ) : 0 ≤ clampPercent pct ∧ clampPercent pct ≤ 100 :=
  ⟨le_min (by norm_num) (le_max_left 0 pct), min_le_left 100 _⟩

theorem barCells_le (pct : ℚ) : barCells pct ≤ 20 := by
  apply Nat.floor_le_of_le
  have upper := (clampPercent_mem pct).2
  push_cast
  linarith

theorem truncate_clampPercent (pct : ℚ) :
    truncate (clampPercent pct / 100 * 20) = barCells pct := by
  have nonneg := (clampPercent_mem pct).1
  have scaled : clampPercent pct / 100 * 20 = clampPercent pct / 5 := by ring
  rw [scaled, truncate, if_pos (by positivity), barCells]
  exact (Int.natCast_floor_eq_floor (by positivity)).symm

theorem bar_eq (pct : ℚ) : bar pct = some (drawnBar pct) := by
  have clamped : (if (if pct < 0 then 0 else pct) > 100 then 100
      else if pct < 0 then 0 else pct) = clampPercent pct := by
    rw [clampPercent]
    grind
  have rest : (20 : ℤ) - barCells pct = (20 - barCells pct : ℕ) := by
    rw [Nat.cast_sub (barCells_le pct)]
    rfl
  rw [bar]
  simp only [clamped, Int.cast_ofNat, truncate_clampPercent, rest, repeatString_natCast]
  rfl

/-- The bytes of a bar, apart from its digits. -/
abbrev barText : GoString := text "[█─] .%"

theorem notMem_drawnBar {c : UInt8} (notDigit : isDigit c = false) (outside : c ∉ barText)
    (pct : ℚ) : c ∉ drawnBar pct := by
  have parts : text "█" ⊆ barText ∧ text "─" ⊆ barText ∧ text "[" ⊆ barText ∧
      text "] " ⊆ barText ∧ text "." ⊆ barText ∧ text "%" ⊆ barText ∧ space ∈ barText := by
    decide
  rcases parts with ⟨block, dash, opening, closing, point, sign, blank⟩
  have number : c ∉ padLeft 5 (formatFixed1 (clampPercent pct)) := by
    apply notMem_padLeft
    · exact fun isSpace => outside (isSpace ▸ blank)
    · exact notMem_formatFixed1 notDigit (fun present => outside (point present)) _
  simp only [drawnBar, List.mem_append, List.mem_flatten, List.mem_replicate, not_or]
  refine ⟨⟨⟨⟨⟨fun present => outside (opening present), ?_⟩, ?_⟩,
    fun present => outside (closing present)⟩, number⟩, fun present => outside (sign present)⟩
  · rintro ⟨_, ⟨_, rfl⟩, present⟩
    exact outside (block present)
  · rintro ⟨_, ⟨_, rfl⟩, present⟩
    exact outside (dash present)

theorem floor_clampPercent (pct : ℚ) :
    5 * (barCells pct : ℚ) ≤ clampPercent pct ∧ clampPercent pct < 5 * barCells pct + 5 := by
  have lower := Nat.floor_le (show 0 ≤ clampPercent pct / 5 by
    have nonneg := (clampPercent_mem pct).1
    positivity)
  have upper := Nat.lt_floor_add_one (clampPercent pct / 5)
  rw [← barCells] at lower upper
  constructor <;> linarith

theorem complete_block : Complete (text "█") ∧ runeCount (text "█") = 1 := by
  have bytes : text "█" = [0xE2, 0x96, 0x88] := rfl
  rw [bytes]
  exact complete_of_three (by decide) (by decide) (by decide)

theorem complete_dash : Complete (text "─") ∧ runeCount (text "─") = 1 := by
  have bytes : text "─" = [0xE2, 0x94, 0x80] := rfl
  rw [bytes]
  exact complete_of_three (by decide) (by decide) (by decide)

theorem runeCount_percentage (pct : ℚ) :
    runeCount (padLeft 5 (formatFixed1 (clampPercent pct))) = 5 := by
  apply runeCount_padLeft
  have tenths : roundedTenths (clampPercent pct) ≤ 1000 :=
    roundedTenths_le (by exact_mod_cast (clampPercent_mem pct).2)
  have whole : (formatDecimal (roundedTenths (clampPercent pct) / 10)).length ≤ 3 :=
    length_formatDecimal_le (by decide) (by omega)
  have fraction : (formatDecimal (roundedTenths (clampPercent pct) % 10)).length ≤ 1 :=
    length_formatDecimal_le (by decide) (by omega)
  rw [(complete_of_ascii (ascii_formatFixed1 _)).2, formatFixed1, List.length_append,
    List.length_append]
  have point : (text ".").length = 1 := by decide
  omega

theorem runeCount_drawnBar (pct : ℚ) : runeCount (drawnBar pct) = 29 := by
  have full := complete_flatten_replicate complete_block.1 (barCells pct)
  have empty := complete_flatten_replicate complete_dash.1 (20 - barCells pct)
  have ascii : (∀ c ∈ text "[", c < 0x80) ∧ (∀ c ∈ text "] ", c < 0x80) ∧
      ∀ c ∈ text "%", c < 0x80 := by
    decide +kernel
  have opening := complete_of_ascii ascii.1
  have closing := complete_of_ascii ascii.2.1
  have sign := complete_of_ascii ascii.2.2
  have number := complete_of_ascii (ascii_padLeft (ascii_formatFixed1 (clampPercent pct)) 5)
  have cells := Nat.add_sub_cancel' (barCells_le pct)
  have lengths : (text "[").length = 1 ∧ (text "] ").length = 2 ∧ (text "%").length = 1 := by
    decide
  simp only [drawnBar, List.append_assoc, opening.1 _, full.1 _, empty.1 _, closing.1 _,
    number.1 _, opening.2, full.2, empty.2, closing.2, sign.2, runeCount_percentage, lengths,
    complete_block.2, complete_dash.2]
  omega

/-- **Bars.** For every percentage, also one that is out of range, `bar` draws 29 characters: one
full cell of 20 for every five percent, and the percentage to the nearest tenth. -/
theorem bar_faithful (pct : ℚ) :
    ∃ (cells : ℕ) (number : GoString), cells ≤ 20 ∧
      bar pct = some (text "[" ++ (List.replicate cells (text "█")).flatten ++
        (List.replicate (20 - cells) (text "─")).flatten ++ text "] " ++ number ++ text "%") ∧
      5 * (cells : ℚ) ≤ clampPercent pct ∧ clampPercent pct < 5 * cells + 5 ∧
      |readDecimal (number.dropWhile (· = space)) - clampPercent pct| ≤ 1 / 20 ∧
      ∀ s ∈ bar pct, runeCount s = 29 := by
  rcases floor_clampPercent pct with ⟨lower, upper⟩
  refine ⟨barCells pct, padLeft 5 (formatFixed1 (clampPercent pct)), barCells_le pct, bar_eq pct,
    lower, upper, ?_, ?_⟩
  · rw [dropWhile_padLeft (space_notMem_formatFixed1 _), readDecimal_formatFixed1]
    exact abs_roundedTenths_sub_le (clampPercent_mem pct).1
  · intro s drawn
    rw [bar_eq, Option.mem_some_iff] at drawn
    rw [← drawn]
    exact runeCount_drawnBar pct

end Bars

/-! ## Sizes -/

section Sizes

variable {b : UInt64}

theorem exists_humanBytes (b : UInt64) : ∃ s, humanBytes b = some s := by
  rcases UInt64.lt_or_le b unit with small | large
  · rcases readBytes_humanBytes_of_lt small with ⟨s, shown, _⟩
    exact ⟨s, shown⟩
  · rcases read_humanBytes large with ⟨s, shown, _⟩
    exact ⟨s, shown⟩

/-- The text of a size denotes the size up to five percent. -/
theorem humanBytes_accurate (b : UInt64) :
    ∃ s bytes, humanBytes b = some s ∧ readBytes s = some bytes ∧
      |bytes - b.toNat| ≤ (b.toNat : ℚ) / 20 := by
  rcases UInt64.lt_or_le b unit with small | large
  · rcases readBytes_humanBytes_of_lt small with ⟨s, shown, isBytes⟩
    refine ⟨s, _, shown, isBytes, ?_⟩
    rw [sub_self, abs_zero]
    positivity
  · have isScale := isScale_scale large
    have positive := isScale.div_pos
    have atLeastOne : ((scale b).1.toNat : ℚ) ≤ b.toNat := by
      exact_mod_cast UInt64.le_iff_toNat_le.mp isScale.div_le
    rcases read_humanBytes large with ⟨s, shown, _, isBytes⟩
    refine ⟨s, _, shown, isBytes, ?_⟩
    have rounded : |mantissa b (scale b).1 - b.toNat / (scale b).1.toNat| ≤ 1 / 20 :=
      abs_roundedTenths_sub_le (by positivity)
    have whole : (b.toNat : ℚ) = b.toNat / (scale b).1.toNat * (scale b).1.toNat :=
      (div_mul_cancel₀ _ positive.ne').symm
    calc
      |mantissa b (scale b).1 * (scale b).1.toNat - b.toNat| =
          |mantissa b (scale b).1 - b.toNat / (scale b).1.toNat| * (scale b).1.toNat := by
        rw [← abs_of_pos positive, ← abs_mul, abs_of_pos positive, sub_mul, ← whole]
      _ ≤ 1 / 20 * (scale b).1.toNat :=
        mul_le_mul_of_nonneg_right rounded positive.le
      _ ≤ b.toNat / 20 := by linarith

/-- **Kilobytes.** `humanKB` shows a number of kilobytes up to five percent if and only if the
number of bytes fits into 64 bits; beyond, it shows at most half of it. -/
theorem humanKB_accurate_iff (kb : UInt64) :
    (∃ s bytes, humanKB kb = some s ∧ readBytes s = some bytes ∧
      |bytes - kb.toNat * 1024| ≤ (kb.toNat * 1024 : ℚ) / 20) ↔ kb.toNat < 2 ^ 54 := by
  rcases humanBytes_accurate (kb * 1024) with ⟨s, bytes, shown, isBytes, accurate⟩
  have product : (kb * 1024).toNat = kb.toNat * 1024 % 2 ^ 64 := UInt64.toNat_mul _ _
  constructor
  · rintro ⟨other, otherBytes, otherShown, isOtherBytes, otherAccurate⟩
    rw [humanKB, shown, Option.some.injEq] at otherShown
    rw [← otherShown, isBytes, Option.some.injEq] at isOtherBytes
    rw [← isOtherBytes] at otherAccurate
    by_contra large
    -- The product wraps at least once, so that less than half of the size is left.
    have wrapped : 2 * (kb * 1024).toNat ≤ kb.toNat * 1024 := by omega
    have half : 2 * ((kb * 1024).toNat : ℚ) ≤ kb.toNat * 1024 := by exact_mod_cast wrapped
    have positive : (0 : ℚ) < kb.toNat := by
      rw [Nat.cast_pos]
      omega
    rw [abs_le] at accurate otherAccurate
    linarith
  · intro small
    have exact : ((kb * 1024).toNat : ℚ) = kb.toNat * 1024 := by
      rw [product, Nat.mod_eq_of_lt (by omega)]
      push_cast
      rfl
    rw [exact] at accurate
    exact ⟨s, bytes, shown, isBytes, accurate⟩

end Sizes

/-! ## Interfaces -/

section Interfaces

variable {received sent : GoString}

/-- What a reader takes from the line of an interface. -/
structure InterfaceFigure where
  name : GoString
  received : GoString
  sent : GoString

/-- The two bytes by which both arrows begin. -/
abbrev arrow : GoString := [0xE2, 0x86]

/-- The byte by which the arrow down ends. -/
abbrev arrowDown : UInt8 := 0x93

/-- The byte by which the arrow up ends. -/
abbrev arrowUp : UInt8 := 0x91

/-- The name may contain any byte, and the arrows are found from the end of the line. What is
received stands behind the arrow down, and what is sent behind the arrow up. -/
def readInterfaceLine (line : GoString) : InterfaceFigure :=
  let left := upToLast arrowUp line
  { name := trimBlanks (((upToLast arrowDown left).drop (text "  ").length).rdrop arrow.length)
    received := upTo slash ((beyondLast arrowDown left).drop 1)
    sent := upTo slash ((beyondLast arrowUp line).drop 1) }

/-- A text of a size has no byte that ends it within the line. -/
def Enclosed (size : GoString) : Prop := slash ∉ size ∧ arrowDown ∉ size ∧ arrowUp ∉ size

theorem readInterfaceLine_interfaceLine (receivedEnclosed : Enclosed received)
    (sentEnclosed : Enclosed sent) (name : GoString) :
    readInterfaceLine (interfaceLine name received sent) = ⟨trimBlanks name, received, sent⟩ := by
  let blanks := List.replicate (14 - runeCount (received ++ text "/s")) space
  let front := text "  " ++ (padRight 10 name ++ [space] ++ arrow)
  let middle := space :: (received ++ slash :: (text "s" ++ blanks ++ [space] ++ arrow))
  let behind := space :: (sent ++ slash :: text "s\n")
  have down : text " ↓ " = [space] ++ arrow ++ arrowDown :: [space] := by decide +kernel
  have up : text " ↑ " = [space] ++ arrow ++ arrowUp :: [space] := by decide +kernel
  have perSecond : text "/s" = slash :: text "s" := by decide
  have ends : text "s\n" = text "s" ++ text "\n" := by decide
  have isLine : interfaceLine name received sent =
      (front ++ arrowDown :: middle) ++ arrowUp :: behind := by
    simp [interfaceLine, down, up, perSecond, ends, front, middle, behind, blanks, padRight]
  have lastUp : arrowUp ∉ behind := by
    have others : arrowUp ∉ space :: slash :: text "s\n" := by decide
    simp only [behind, List.mem_cons, List.mem_append, not_or] at others ⊢
    exact ⟨others.1, sentEnclosed.2.2, others.2⟩
  have lastDown : arrowDown ∉ middle := by
    have others : arrowDown ∉ space :: slash :: (text "s" ++ [space] ++ arrow) := by decide
    have noBlank : arrowDown ∉ blanks := by
      intro present
      exact absurd (List.eq_of_mem_replicate present) (by decide)
    simp only [middle, List.mem_cons, List.mem_append, not_or] at others ⊢
    exact ⟨others.1, receivedEnclosed.2.1, others.2.1,
      ⟨⟨others.2.2.1.1, noBlank⟩, others.2.2.1.2⟩, others.2.2.2⟩
  rw [isLine, readInterfaceLine, (rspan_append_cons lastUp _).1, (rspan_append_cons lastUp _).2]
  simp only [(rspan_append_cons lastDown _).1, (rspan_append_cons lastDown _).2, behind, middle,
    front, List.drop_succ_cons, List.drop_zero, (span_append_cons receivedEnclosed.1 _).1,
    (span_append_cons sentEnclosed.1 _).1, List.drop_left]
  rw [List.rdrop_append_length, trimBlanks_concat, trimBlanks_padRight]

end Interfaces

/-! ## Frames -/

section Frames

variable (outOfRange : ℚ → UInt64)

def shownBytes (b : UInt64) : GoString := (humanBytes b).getD []

theorem humanBytes_eq (b : UInt64) : humanBytes b = some (shownBytes b) := by
  rcases exists_humanBytes b with ⟨s, shown⟩
  rw [shownBytes, shown, Option.getD_some]

/-- The bytes of a size, apart from its digits. -/
abbrev sizeText : GoString := text " .BiKMGTPE"

theorem notMem_shownBytes {c : UInt8} (notDigit : isDigit c = false) (outside : c ∉ sizeText)
    (b : UInt64) : c ∉ shownBytes b := by
  have parts : text " B" ⊆ sizeText ∧ text "." ⊆ sizeText ∧ text " " ⊆ sizeText ∧
      text "KMGTPE" ⊆ sizeText ∧ text "iB" ⊆ sizeText := by
    decide
  rcases parts with ⟨bytes, point, blank, letters, suffix⟩
  have shown := humanBytes_eq b
  rw [humanBytes] at shown
  split at shown
  · rw [Option.some.injEq] at shown
    rw [← shown, List.mem_append, not_or]
    exact ⟨notMem_formatDecimal notDigit _, fun present => outside (bytes present)⟩
  · rcases Option.map_eq_some_iff.mp shown with ⟨letter, found, isText⟩
    rw [← isText, List.mem_append, List.mem_append, List.mem_cons, not_or, not_or, not_or]
    refine ⟨?_, fun present => outside (blank present), ?_, fun present => outside (suffix present)⟩
    · exact notMem_formatFixed1 notDigit (fun present => outside (point present)) _
    · rintro rfl
      exact outside (letters (List.mem_of_getElem? found))

theorem enclosed_shownBytes (b : UInt64) : Enclosed (shownBytes b) :=
  ⟨notMem_shownBytes (by decide) (by decide) b, notMem_shownBytes (by decide) (by decide) b,
    notMem_shownBytes (by decide) (by decide) b⟩

def drawnInterface (entry : InterfaceRate) : GoString :=
  interfaceLine entry.1 (shownBytes (uint64OfFloat outOfRange entry.2.rxBps))
    (shownBytes (uint64OfFloat outOfRange entry.2.txBps))

/-- The interfaces that are shown. -/
def shownInterfaces (order : List InterfaceRate) : List InterfaceRate :=
  order.filter fun entry => entry.1 ≠ text "lo"

theorem foldlM_renderInterface (order : List InterfaceRate) (b : GoString) :
    order.foldlM (renderInterface outOfRange) b =
      some (b ++ (shownInterfaces order).flatMap (drawnInterface outOfRange)) := by
  induction order generalizing b with
  | nil => simp [shownInterfaces, pure]
  | cons entry order ih =>
      rw [List.foldlM_cons, renderInterface]
      by_cases loopback : entry.1 = text "lo"
      · simp [loopback, ih, shownInterfaces]
      · simp [loopback, ih, shownInterfaces, humanBytes_eq, drawnInterface]

def heading : GoString :=
  cursorHome ++ clearDown ++ text "sysmon — live system monitor  (Ctrl+C to quit)\n" ++
    ((List.replicate 50 (text "─")).flatten ++ text "\n\n")

def cpuSection (frame : Frame) : GoString :=
  match frame.cpuPct.lookup (text "cpu") with
  | none => []
  | some pct => text "CPU    " ++ drawnBar pct ++ text "\n"

def memorySection (mem : MemInfo) : GoString :=
  usageLine (text "Memory ") (drawnBar mem.usedPercent) (shownBytes (mem.usedKB * 1024))
    (shownBytes (mem.totalKB * 1024)) ++ text "\n"

def swapSection (mem : MemInfo) : GoString :=
  if mem.swapTotalKB > 0 then
    usageLine (text "Swap   ") (drawnBar (mem.swapUsedKB.toNat / mem.swapTotalKB.toNat * 100))
      (shownBytes (mem.swapUsedKB * 1024)) (shownBytes (mem.swapTotalKB * 1024)) ++ text "\n"
  else []

def diskSection (disk : DiskUsage) : GoString :=
  usageLine (text "Disk   ") (drawnBar disk.usedPercent) (shownBytes disk.usedBytes)
    (shownBytes disk.totalBytes) ++ text " [" ++ disk.path ++ text "]\n"

def latencySection (latencyBuckets : List LatencyBucket) : GoString :=
  if latencyBuckets.length > 0 then
    text "\nBlock I/O Latency (this interval, via eBPF):\n" ++ drawnBuckets latencyBuckets
  else []

/-- The text of a frame. -/
def screen (frame : Frame) (order : List InterfaceRate) : GoString :=
  heading ++ cpuSection frame ++ memorySection frame.mem ++ swapSection frame.mem ++
    diskSection frame.diskUsage ++ text "\nNetwork:\n" ++
    (shownInterfaces order).flatMap (drawnInterface outOfRange) ++
    latencySection frame.latencyBuckets

theorem render_eq (frame : Frame) (order : List InterfaceRate) :
    render outOfRange frame order = some (screen outOfRange frame order) := by
  have divider : repeatString (text "─") 50 = some (List.replicate 50 (text "─")).flatten :=
    repeatString_natCast (text "─") 50
  simp only [render, divider, bar_eq, humanKB, humanBytes_eq, foldlM_renderInterface,
    renderASCII_eq, screen, heading, cpuSection, memorySection, swapSection, diskSection,
    latencySection]
  cases frame.cpuPct.lookup (text "cpu") <;> by_cases swap : frame.mem.swapTotalKB > 0 <;>
    by_cases latency : frame.latencyBuckets.length > 0 <;>
    simp [swap, latency]

theorem perm_shownInterfaces {net : GoMap NetThroughput} (iteration other : Iteration net) :
    (shownInterfaces iteration.order).Perm (shownInterfaces other.order) := by
  apply List.Perm.filter
  rw [← Multiset.coe_eq_coe, iteration.visits, other.visits]

theorem nodup_map_fst {net : GoMap NetThroughput} (iteration : Iteration net) :
    (iteration.order.map Sigma.fst).Nodup := by
  have nodupKeys := net.nodupKeys
  rw [← iteration.visits, Multiset.coe_nodupKeys] at nodupKeys
  exact nodupKeys

theorem mem_map_fst_iff {net : GoMap NetThroughput} (iteration : Iteration net)
    (name : GoString) : name ∈ iteration.order.map Sigma.fst ↔ name ∈ net := by
  rw [Finmap.mem_def, ← iteration.visits]
  rfl

/-- **The screen.** No frame makes `render` panic, in whichever order the loop visits the map of
rates. The order matters for the lines of the interfaces only: the loopback is left out, every
other interface has one line that is read as its name and its two rates, and two orders show the
same lines. -/
theorem render_never_panics (frame : Frame) :
    ∃ above below, ∀ iteration : Iteration frame.netRates,
      render outOfRange frame iteration.order = some (above ++
        (shownInterfaces iteration.order).flatMap (drawnInterface outOfRange) ++ below) ∧
      ((shownInterfaces iteration.order).map Sigma.fst).Nodup ∧
      (∀ name, name ∈ (shownInterfaces iteration.order).map Sigma.fst ↔
        name ∈ frame.netRates ∧ name ≠ text "lo") ∧
      (∀ entry ∈ shownInterfaces iteration.order, ∃ received sent,
        humanBytes (uint64OfFloat outOfRange entry.2.rxBps) = some received ∧
        humanBytes (uint64OfFloat outOfRange entry.2.txBps) = some sent ∧
        readInterfaceLine (drawnInterface outOfRange entry) =
          ⟨trimBlanks entry.1, received, sent⟩) ∧
      ∀ other : Iteration frame.netRates,
        ((shownInterfaces iteration.order).map (drawnInterface outOfRange)).Perm
          ((shownInterfaces other.order).map (drawnInterface outOfRange)) := by
  refine ⟨_, _, fun iteration => ⟨render_eq outOfRange frame iteration.order, ?_, ?_, ?_, ?_⟩⟩
  · exact List.Nodup.sublist (List.filter_sublist.map Sigma.fst) (nodup_map_fst iteration)
  · intro name
    rw [← mem_map_fst_iff iteration]
    simp only [shownInterfaces, List.mem_map, List.mem_filter, decide_eq_true_eq]
    constructor
    · rintro ⟨entry, ⟨present, shown⟩, rfl⟩
      exact ⟨⟨entry, present, rfl⟩, shown⟩
    · rintro ⟨⟨entry, present, rfl⟩, shown⟩
      exact ⟨entry, ⟨present, shown⟩, rfl⟩
  · intro entry _
    exact ⟨_, _, humanBytes_eq _, humanBytes_eq _,
      readInterfaceLine_interfaceLine (enclosed_shownBytes _) (enclosed_shownBytes _) _⟩
  · intro other
    exact (perm_shownInterfaces iteration other).map _

end Frames

end Sysmon.Cmd
