import Sysmon.Cmd.Screen
import Sysmon.Go.Bufio

/-!
# The screen as it is read

What `render` has drawn can be read back. A reader finds a line by its title,
the percentage between the bar and the percent sign, and the two sizes between
the parentheses. Whatever a frame contains, the lines for the memory, the swap
and the disk yield what is in use of which total, up to the rounding of the
percentage to tenths and of the sizes to two digits or more.
-/

namespace Sysmon.Cmd

open Sysmon.Go Sysmon.Stats

/-! ## The reader -/

/-- The first line with the title. -/
def findLine (title s : GoString) : Option GoString :=
  (rawLines s).find? fun line => hasPrefix line title

/-- What a line with a bar says. -/
structure Figure where
  percent : ℚ
  used : ℚ
  total : ℚ

def readPercent (line : GoString) : ℚ :=
  readDecimal ((upTo percentSign (beyond closingBracket line)).dropWhile (· = space))

def readFigure (line : GoString) : Option Figure :=
  let sizes := beyond openingParen line
  (readBytes (upTo slash sizes).dropLast).bind fun used =>
    (readBytes (upTo closingParen ((beyond slash sizes).drop 1))).map fun total =>
      ⟨readPercent line, used, total⟩

/-! ## Lines -/

section Lines

variable {title : GoString}

/-- The percentage that a bar shows. -/
def shownPercent (pct : ℚ) : ℚ := roundedTenths (clampPercent pct) / 10

theorem readPercent_append (clean : closingBracket ∉ title) (pct : ℚ) (rest : GoString) :
    readPercent (title ++ drawnBar pct ++ rest) = shownPercent pct := by
  let cells := text "[" ++ (List.replicate (barCells pct) (text "█")).flatten ++
    (List.replicate (20 - barCells pct) (text "─")).flatten
  let number := padLeft 5 (formatFixed1 (clampPercent pct))
  have beforeBracket : closingBracket ∉ title ++ cells := by
    have parts : closingBracket ∉ text "[" ∧ closingBracket ∉ text "█" ∧
        closingBracket ∉ text "─" := by
      decide
    simp [cells, clean, parts]
  have beforeSign : percentSign ∉ space :: number := by
    have digits := notMem_formatFixed1 (c := percentSign) (by decide) (by decide)
      (clampPercent pct)
    have different : percentSign ≠ space := by decide
    simp [number, different, notMem_padLeft different 5 digits]
  have closing : text "] " = closingBracket :: [space] := by decide
  have sign : text "%" = [percentSign] := by decide
  have isLine : title ++ drawnBar pct ++ rest =
      (title ++ cells) ++ closingBracket :: ((space :: number) ++ percentSign :: rest) := by
    simp [drawnBar, closing, sign, cells, number]
  rw [isLine, readPercent, (span_append_cons beforeBracket _).2, (span_append_cons beforeSign _).1,
    List.dropWhile_cons_of_pos (by simp), dropWhile_padLeft (space_notMem_formatFixed1 _),
    readDecimal_formatFixed1, shownPercent]

theorem abs_shownPercent_sub_le (pct : ℚ) : |shownPercent pct - clampPercent pct| ≤ 1 / 20 :=
  abs_roundedTenths_sub_le (clampPercent_mem pct).1

theorem clampPercent_share {used total : ℕ} (atMost : used ≤ total) :
    clampPercent ((used : ℚ) / total * 100) = (used : ℚ) / total * 100 := by
  have share : (used : ℚ) / total ≤ 1 :=
    div_le_one_of_le₀ (by exact_mod_cast atMost) (by positivity)
  rw [clampPercent, max_eq_right (by positivity), min_eq_right (by linarith)]

/-- The figure tells what is in use of a total, in bytes. -/
structure Figure.Tells (figure : Figure) (used total : ℕ) : Prop where
  percent : |figure.percent - used / total * 100| ≤ 1 / 20
  used : |figure.used - used| ≤ (used : ℚ) / 20
  total : |figure.total - total| ≤ (total : ℚ) / 20

/-- A line with a bar is read as the figures that it was made of. -/
theorem readFigure_usageLine (clean : closingBracket ∉ title ∧ openingParen ∉ title)
    {pct : ℚ} {used total : UInt64} (atMost : used.toNat ≤ total.toNat)
    (isShare : pct = (used.toNat : ℚ) / total.toNat * 100) (rest : GoString) :
    ∃ figure, readFigure (usageLine title (drawnBar pct) (shownBytes used) (shownBytes total) ++
      rest) = some figure ∧ figure.Tells used.toNat total.toNat := by
  rcases humanBytes_accurate used with ⟨_, usedBytes, isUsed, readsUsed, usedClose⟩
  rcases humanBytes_accurate total with ⟨_, totalBytes, isTotal, readsTotal, totalClose⟩
  rw [humanBytes_eq, Option.some.injEq] at isUsed isTotal
  subst isUsed isTotal
  have beforeParen : openingParen ∉ title ++ drawnBar pct ++ text "  " := by
    have blanks : openingParen ∉ text "  " := by decide
    simp [clean.2, blanks, notMem_drawnBar (c := openingParen) (by decide) (by decide)]
  have beforeSlash : slash ∉ shownBytes used ++ [space] := by
    have different : slash ≠ space := by decide
    simp [different, notMem_shownBytes (c := slash) (by decide) (by decide)]
  have beforeEnd : closingParen ∉ shownBytes total :=
    notMem_shownBytes (by decide) (by decide) total
  have opening : text "  (" = text "  " ++ [openingParen] := by decide
  have between : text " / " = [space] ++ slash :: [space] := by decide
  have closing : text ")" = [closingParen] := by decide
  have isLine : usageLine title (drawnBar pct) (shownBytes used) (shownBytes total) ++ rest =
      (title ++ drawnBar pct ++ text "  ") ++ openingParen :: ((shownBytes used ++ [space]) ++
        slash :: (space :: (shownBytes total ++ closingParen :: rest))) := by
    simp [usageLine, opening, between, closing]
  have percent : readPercent (usageLine title (drawnBar pct) (shownBytes used) (shownBytes total) ++
      rest) = shownPercent pct := by
    rw [isLine, List.append_assoc (title ++ drawnBar pct)]
    exact readPercent_append clean.1 pct _
  refine ⟨⟨shownPercent pct, usedBytes, totalBytes⟩, ?_, ?_⟩
  · rw [readFigure, percent, isLine, (span_append_cons beforeParen _).2,
      (span_append_cons beforeSlash _).1, (span_append_cons beforeSlash _).2, List.dropLast_concat,
      readsUsed, List.drop_succ_cons, List.drop_zero, (span_append_cons beforeEnd _).1, readsTotal]
    rfl
  · have percentClose := abs_shownPercent_sub_le pct
    rw [isShare, clampPercent_share atMost, ← isShare] at percentClose
    exact ⟨isShare ▸ percentClose, usedClose, totalClose⟩

end Lines

/-! ## The lines of a screen -/

section Find

variable {title line rest : GoString}

theorem hasPrefix_append_of_ne {other : GoString} (sameLength : title.length = other.length)
    (different : title ≠ other) (rest : GoString) : hasPrefix (other ++ rest) title = false := by
  apply decide_eq_false
  intro isPrefix
  apply different
  have shorter := List.prefix_of_prefix_length_le isPrefix (List.prefix_append other rest)
    sameLength.le
  exact shorter.eq_of_length sameLength

/-- A line below lines without its title is found, whatever follows. -/
theorem findLine_append {above : GoString} (boundary : IsBoundary above)
    (others : ∀ other ∈ rawLines above, hasPrefix other title = false) (single : newline ∉ line)
    (titled : title <+: line) (ends : newline ∈ rest) :
    ∃ more, findLine title (above ++ (line ++ rest)) = some (line ++ more) := by
  rcases List.eq_append_cons_of_mem ends with ⟨more, later, rfl, clean⟩
  have whole : newline ∉ line ++ more := by
    simp [single, clean]
  have isTitled : hasPrefix (line ++ more) title = true :=
    decide_eq_true (titled.trans (List.prefix_append line more))
  have notAbove : (rawLines above).find? (fun other => hasPrefix other title) = none := by
    simpa using others
  refine ⟨more, ?_⟩
  rw [findLine, boundary.rawLines_append, ← List.append_assoc line, rawLines_append_newline,
    List.splitOn_eq_singleton whole, List.find?_append, notAbove]
  simp [isTitled]

abbrev titles : List GoString :=
  [text "CPU    ", text "Memory ", text "Swap   ", text "Disk   "]

theorem length_of_mem_titles (isTitle : title ∈ titles) : title.length = 7 := by
  have all : titles.all (fun title => title.length = 7) = true := by decide
  simpa using List.all_eq_true.mp all title isTitle

theorem titles_clean (isTitle : title ∈ titles) :
    newline ∉ title ∧ closingBracket ∉ title ∧ openingParen ∉ title := by
  have all : titles.all (fun title => newline ∉ title ∧ closingBracket ∉ title ∧
      openingParen ∉ title) = true := by
    decide
  simpa using List.all_eq_true.mp all title isTitle

theorem heading_untitled (isTitle : title ∈ titles) :
    ∀ other ∈ rawLines heading, hasPrefix other title = false := by
  have all : titles.all (fun title => (rawLines heading).all fun other =>
      !hasPrefix other title) = true := by
    decide +kernel
  simpa using List.all_eq_true.mp all title isTitle

/-- A line that begins with another title. -/
def Differs (title line : GoString) : Prop :=
  newline ∉ line ∧ ∃ other ∈ titles, other ≠ title ∧ other <+: line

theorem isBoundary_heading_append (upper : List GoString) :
    IsBoundary (heading ++ unlines upper) := by
  right
  rcases List.eq_nil_or_concat upper with rfl | ⟨front, last, rfl⟩
  · decide +kernel
  · simp [unlines]

theorem findLine_below {upper : List GoString} (isTitle : title ∈ titles)
    (differ : ∀ other ∈ upper, Differs title other) (single : newline ∉ line)
    (titled : title <+: line) (ends : newline ∈ rest) :
    ∃ more, findLine title (heading ++ unlines upper ++ (line ++ rest)) = some (line ++ more) := by
  have headingEnds := isBoundary_heading_append []
  rw [unlines, List.flatMap_nil, List.append_nil] at headingEnds
  apply findLine_append (isBoundary_heading_append upper) _ single titled ends
  rw [headingEnds.rawLines_append, rawLines_unlines fun other present => (differ other present).1]
  intro other present
  rcases List.mem_append.mp present with inHeading | inUpper
  · exact heading_untitled isTitle other inHeading
  · rcases differ other inUpper with ⟨_, its, isOther, different, rest, rfl⟩
    apply hasPrefix_append_of_ne _ different.symm
    rw [length_of_mem_titles isTitle, length_of_mem_titles isOther]

end Find

/-! ## Frames -/

section Frames

variable (outOfRange : ℚ → UInt64) (frame : Frame) (order : List InterfaceRate)

def cpuLines : List GoString :=
  ((frame.cpuPct.lookup (text "cpu")).map fun pct => text "CPU    " ++ drawnBar pct).toList

def memoryLine (mem : MemInfo) : GoString :=
  usageLine (text "Memory ") (drawnBar mem.usedPercent) (shownBytes (mem.usedKB * 1024))
    (shownBytes (mem.totalKB * 1024))

def swapLine (mem : MemInfo) : GoString :=
  usageLine (text "Swap   ") (drawnBar (mem.swapUsedKB.toNat / mem.swapTotalKB.toNat * 100))
    (shownBytes (mem.swapUsedKB * 1024)) (shownBytes (mem.swapTotalKB * 1024))

def swapLines (mem : MemInfo) : List GoString :=
  if mem.swapTotalKB > 0 then [swapLine mem] else []

def diskLine (disk : DiskUsage) : GoString :=
  usageLine (text "Disk   ") (drawnBar disk.usedPercent) (shownBytes disk.usedBytes)
    (shownBytes disk.totalBytes)

theorem screen_eq_lines : ∃ rest, newline ∈ rest ∧ screen outOfRange frame order =
    heading ++ unlines (cpuLines frame ++ memoryLine frame.mem :: swapLines frame.mem) ++
      (diskLine frame.diskUsage ++ rest) := by
  have ends : text "\n" = [newline] := by decide
  have cpu : cpuSection frame = unlines (cpuLines frame) := by
    rw [cpuSection, cpuLines]
    cases frame.cpuPct.lookup (text "cpu") <;> simp [unlines, ends]
  have swap : swapSection frame.mem = unlines (swapLines frame.mem) := by
    rw [swapSection, swapLines]
    split <;> simp [unlines, swapLine, ends]
  have memory : memorySection frame.mem = memoryLine frame.mem ++ [newline] := by
    rw [memorySection, memoryLine, ends]
  refine ⟨text " [" ++ frame.diskUsage.path ++ text "]\n" ++ text "\nNetwork:\n" ++
    (shownInterfaces order).flatMap (drawnInterface outOfRange) ++
    latencySection frame.latencyBuckets, ?_, ?_⟩
  · have present : newline ∈ text "]\n" := by decide
    simp [present]
  · simp [screen, cpu, swap, memory, diskSection, diskLine, unlines]

theorem newline_notMem_usageLine {title : GoString} (single : newline ∉ title) (pct : ℚ)
    (used total : UInt64) :
    newline ∉ usageLine title (drawnBar pct) (shownBytes used) (shownBytes total) := by
  have parts : newline ∉ text "  (" ∧ newline ∉ text " / " ∧ newline ∉ text ")" := by
    decide
  have bar : newline ∉ drawnBar pct := notMem_drawnBar (by decide) (by decide) pct
  have size : ∀ b, newline ∉ shownBytes b := notMem_shownBytes (by decide) (by decide)
  simp [usageLine, single, parts, bar, size]

variable {frame} {title line : GoString}

theorem findLine_screen {upper lower : List GoString} (isTitle : title ∈ titles)
    (isAmong : cpuLines frame ++ memoryLine frame.mem :: swapLines frame.mem =
      upper ++ line :: lower)
    (differ : ∀ other ∈ upper, Differs title other) (single : newline ∉ line)
    (titled : title <+: line) :
    ∃ more, findLine title (screen outOfRange frame order) = some (line ++ more) := by
  rcases screen_eq_lines outOfRange frame order with ⟨rest, _, isScreen⟩
  have split : screen outOfRange frame order = heading ++ unlines upper ++
      (line ++ (newline :: (unlines lower ++ (diskLine frame.diskUsage ++ rest)))) := by
    rw [isScreen, isAmong]
    simp [unlines]
  rw [split]
  exact findLine_below isTitle differ single titled List.mem_cons_self

theorem differs_of_title {other : GoString} (single : newline ∉ line) (isTitle : other ∈ titles)
    (different : other ≠ title) (titled : other <+: line) : Differs title line :=
  ⟨single, other, isTitle, different, titled⟩

theorem cpuLines_differ (different : text "CPU    " ≠ title) :
    ∀ line ∈ cpuLines frame, Differs title line := by
  intro line present
  rw [cpuLines, Option.mem_toList] at present
  rcases Option.map_eq_some_iff.mp present with ⟨pct, _, rfl⟩
  apply differs_of_title _ (by simp) different (List.prefix_append _ _)
  have bar : newline ∉ drawnBar pct := notMem_drawnBar (by decide) (by decide) pct
  have single : newline ∉ text "CPU    " := by decide
  simp [single, bar]

theorem usageLine_differs {other : GoString} (isTitle : other ∈ titles)
    (different : other ≠ title) (single : newline ∉ other) (pct : ℚ) (used total : UInt64) :
    Differs title (usageLine other (drawnBar pct) (shownBytes used) (shownBytes total)) := by
  apply differs_of_title (newline_notMem_usageLine single pct used total) isTitle different
  simp [usageLine]

/-- A reader of the text finds the line and gets what is in use of a total, in bytes. -/
def Shows (s title : GoString) (used total : ℕ) : Prop :=
  ∃ line figure, findLine title s = some line ∧ readFigure line = some figure ∧
    figure.Tells used total

theorem percentOf_eq (used total : UInt64) :
    percentOf used total = (used.toNat : ℚ) / total.toNat * 100 := by
  rw [percentOf]
  split
  · rename_i zero
    simp [zero]
  · rfl

theorem toNat_kilobytes {kb : UInt64} (small : kb.toNat < 2 ^ 54) :
    (kb * 1024).toNat = kb.toNat * 1024 := by
  have product : (kb * 1024).toNat = kb.toNat * 1024 % 2 ^ 64 := UInt64.toNat_mul _ _
  omega

/-- A line for kilobytes. -/
theorem shows_kilobytes {s : GoString} {totalKB freeKB : UInt64} {pct : ℚ} {more : GoString}
    (clean : closingBracket ∉ title ∧ openingParen ∉ title) (small : totalKB.toNat < 2 ^ 54)
    (isShare : pct = ((usedOf totalKB freeKB).toNat : ℚ) / totalKB.toNat * 100)
    (found : findLine title s = some (usageLine title (drawnBar pct)
      (shownBytes (usedOf totalKB freeKB * 1024)) (shownBytes (totalKB * 1024)) ++ more)) :
    Shows s title ((totalKB.toNat - freeKB.toNat) * 1024) (totalKB.toNat * 1024) := by
  have usedKB := toNat_usedOf totalKB freeKB
  have used : (usedOf totalKB freeKB * 1024).toNat = (totalKB.toNat - freeKB.toNat) * 1024 := by
    rw [toNat_kilobytes (by omega), usedKB]
  have total := toNat_kilobytes small
  have sameShare : pct = ((usedOf totalKB freeKB * 1024).toNat : ℚ) /
      (totalKB * 1024).toNat * 100 := by
    rw [isShare, used, total, usedKB]
    push_cast
    rw [mul_div_mul_right _ _ (by norm_num)]
  have atMost : (usedOf totalKB freeKB * 1024).toNat ≤ (totalKB * 1024).toNat := by omega
  rcases readFigure_usageLine clean atMost sameShare more with ⟨figure, reads, tells⟩
  rw [used, total] at tells
  exact ⟨_, figure, found, reads, tells⟩

theorem memory_shows (small : frame.mem.totalKB.toNat < 2 ^ 54) :
    Shows (screen outOfRange frame order) (text "Memory ")
      ((frame.mem.totalKB.toNat - frame.mem.availableKB.toNat) * 1024)
      (frame.mem.totalKB.toNat * 1024) := by
  have isTitle : text "Memory " ∈ titles := by simp
  have clean := titles_clean isTitle
  have single : newline ∉ memoryLine frame.mem := newline_notMem_usageLine clean.1 _ _ _
  have titled : text "Memory " <+: memoryLine frame.mem := by simp [memoryLine, usageLine]
  rcases findLine_screen outOfRange order isTitle rfl (cpuLines_differ (by decide)) single titled
    with ⟨more, found⟩
  exact shows_kilobytes clean.2 small (percentOf_eq _ _) found

theorem memoryLine_differs (different : text "Memory " ≠ title) (mem : MemInfo) :
    Differs title (memoryLine mem) := by
  have isTitle : text "Memory " ∈ titles := by simp
  exact usageLine_differs isTitle different (titles_clean isTitle).1 _ _ _

theorem swap_shows (isSwap : 0 < frame.mem.swapTotalKB)
    (small : frame.mem.swapTotalKB.toNat < 2 ^ 54) :
    Shows (screen outOfRange frame order) (text "Swap   ")
      ((frame.mem.swapTotalKB.toNat - frame.mem.swapFreeKB.toNat) * 1024)
      (frame.mem.swapTotalKB.toNat * 1024) := by
  have isTitle : text "Swap   " ∈ titles := by simp
  have clean := titles_clean isTitle
  have single : newline ∉ swapLine frame.mem := newline_notMem_usageLine clean.1 _ _ _
  have titled : text "Swap   " <+: swapLine frame.mem := by simp [swapLine, usageLine]
  have isAmong : cpuLines frame ++ memoryLine frame.mem :: swapLines frame.mem =
      (cpuLines frame ++ [memoryLine frame.mem]) ++ swapLine frame.mem :: [] := by
    simp [swapLines, isSwap]
  have differ : ∀ line ∈ cpuLines frame ++ [memoryLine frame.mem],
      Differs (text "Swap   ") line := by
    rw [List.forall_mem_append, List.forall_mem_singleton]
    exact ⟨cpuLines_differ (by decide), memoryLine_differs (by decide) _⟩
  rcases findLine_screen outOfRange order isTitle isAmong differ single titled with
    ⟨more, found⟩
  exact shows_kilobytes clean.2 small rfl found

theorem disk_shows : Shows (screen outOfRange frame order) (text "Disk   ")
    (frame.diskUsage.totalBytes.toNat - frame.diskUsage.freeBytes.toNat)
    frame.diskUsage.totalBytes.toNat := by
  have isTitle : text "Disk   " ∈ titles := by simp
  have clean := titles_clean isTitle
  have single : newline ∉ diskLine frame.diskUsage := newline_notMem_usageLine clean.1 _ _ _
  have titled : text "Disk   " <+: diskLine frame.diskUsage := by simp [diskLine, usageLine]
  have differ : ∀ line ∈ cpuLines frame ++ memoryLine frame.mem :: swapLines frame.mem,
      Differs (text "Disk   ") line := by
    rw [List.forall_mem_append, List.forall_mem_cons]
    refine ⟨cpuLines_differ (by decide), memoryLine_differs (by decide) _, ?_⟩
    intro line present
    have isSwapTitle : text "Swap   " ∈ titles := by simp
    rw [swapLines] at present
    split at present
    · rw [List.mem_singleton.mp present]
      exact usageLine_differs isSwapTitle (by decide) (titles_clean isSwapTitle).1 _ _ _
    · exact absurd present List.not_mem_nil
  rcases screen_eq_lines outOfRange frame order with ⟨rest, ends, isScreen⟩
  rcases findLine_below isTitle differ single titled ends with ⟨more, found⟩
  rw [← isScreen] at found
  have used := toNat_usedOf frame.diskUsage.totalBytes frame.diskUsage.freeBytes
  have atMost := UInt64.le_iff_toNat_le.mp
    (usedOf_le frame.diskUsage.totalBytes frame.diskUsage.freeBytes)
  rcases readFigure_usageLine clean.2 atMost (percentOf_eq _ _) more with ⟨figure, reads, tells⟩
  rw [used] at tells
  exact ⟨_, figure, found, reads, tells⟩

theorem cpu_shows {pct : ℚ} (isPct : frame.cpuPct.lookup (text "cpu") = some pct) :
    ∃ line, findLine (text "CPU    ") (screen outOfRange frame order) = some line ∧
      |readPercent line - clampPercent pct| ≤ 1 / 20 := by
  have isTitle : text "CPU    " ∈ titles := by simp
  have clean := titles_clean isTitle
  have bar : newline ∉ drawnBar pct := notMem_drawnBar (by decide) (by decide) pct
  have single : newline ∉ text "CPU    " ++ drawnBar pct := by simp [clean, bar]
  have isAmong : cpuLines frame ++ memoryLine frame.mem :: swapLines frame.mem =
      [] ++ (text "CPU    " ++ drawnBar pct) :: memoryLine frame.mem :: swapLines frame.mem := by
    simp [cpuLines, isPct]
  rcases findLine_screen outOfRange order isTitle isAmong (by simp) single
    (List.prefix_append _ _) with ⟨more, found⟩
  refine ⟨_, found, ?_⟩
  rw [readPercent_append clean.2.1]
  exact abs_shownPercent_sub_le pct

/-- **The screen reads back.** `render` draws a text from which a reader gets the percentage of the
CPU, and for the memory, the swap and the disk what is in use of which total: the percentages to the
nearest tenth, and the sizes up to five percent. Only the totals that are given in kilobytes have
to be smaller than 2^54. -/
theorem screen_reads_back (frame : Frame) :
    ∃ s, render outOfRange frame order = some s ∧
      (∀ pct, frame.cpuPct.lookup (text "cpu") = some pct →
        ∃ line, findLine (text "CPU    ") s = some line ∧
          |readPercent line - clampPercent pct| ≤ 1 / 20) ∧
      (frame.mem.totalKB.toNat < 2 ^ 54 → Shows s (text "Memory ")
        ((frame.mem.totalKB.toNat - frame.mem.availableKB.toNat) * 1024)
        (frame.mem.totalKB.toNat * 1024)) ∧
      (0 < frame.mem.swapTotalKB → frame.mem.swapTotalKB.toNat < 2 ^ 54 →
        Shows s (text "Swap   ")
          ((frame.mem.swapTotalKB.toNat - frame.mem.swapFreeKB.toNat) * 1024)
          (frame.mem.swapTotalKB.toNat * 1024)) ∧
      Shows s (text "Disk   ")
        (frame.diskUsage.totalBytes.toNat - frame.diskUsage.freeBytes.toNat)
        frame.diskUsage.totalBytes.toNat :=
  ⟨_, render_eq outOfRange frame order, fun _ => cpu_shows outOfRange order,
    memory_shows outOfRange order, swap_shows outOfRange order, disk_shows outOfRange order⟩

/-- Half of the memory, three quarters of the swap and all of the disk are in use. -/
def busyFrame : Frame where
  cpuPct := Finmap.singleton (text "cpu") 42
  mem := ⟨16, 2, 8, 0, 0, 4, 1⟩
  diskUsage := ⟨text "/\n/", 4096, 0⟩
  netRates := ∅
  latencyBuckets := []

theorem screen_reads_back_when_busy : ∃ s, render (fun _ => 0) busyFrame [] = some s ∧
    (∃ line, findLine (text "CPU    ") s = some line ∧ |readPercent line - 42| ≤ 1 / 20) ∧
    Shows s (text "Memory ") 8192 16384 ∧ Shows s (text "Swap   ") 3072 4096 ∧
    Shows s (text "Disk   ") 4096 4096 := by
  rcases screen_reads_back (fun _ => 0) [] busyFrame with ⟨s, drawn, cpu, memory, swap, disk⟩
  have isPct : busyFrame.cpuPct.lookup (text "cpu") = some 42 := Finmap.lookup_singleton_eq
  have inRange : clampPercent 42 = 42 := by norm_num [clampPercent]
  have hasSwap : 0 < busyFrame.mem.swapTotalKB := by decide
  refine ⟨s, drawn, ?_, memory (by decide), swap hasSwap (by decide), disk⟩
  rw [← inRange]
  exact cpu 42 isPct

end Frames

end Sysmon.Cmd
