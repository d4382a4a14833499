import Sysmon.Ebpf.Loader
import Sysmon.Go.Reading
import Sysmon.Library.Proportions

/-!
# Drawing the histogram

This file embeds `RenderASCII`. A first loop adds up the counts and finds the
largest, and a second one prints a line for each bucket that has counted
anything: its bar in proportion to the largest count, and its share of all
counts. Quotients are exact rationals.

The counts are added in 64 bits. As long as their sum fits, the drawing is
faithful.
-/

namespace Sysmon.Ebpf

open Sysmon.Go Proportions

/-- The body of the first loop of `RenderASCII`, on `total` and `maxCount`. -/
def tallyBucket (sums : UInt64 × UInt64) (b : LatencyBucket) : UInt64 × UInt64 :=
  (sums.1 + b.count, if b.count > sums.2 then b.count else sums.2)

def tally (buckets : List LatencyBucket) : UInt64 × UInt64 := buckets.foldl tallyBucket (0, 0)

abbrev barWidth : ℕ := 30

/-- The line that `fmt.Fprintf` prints for a bucket. -/
def bucketLine (b : LatencyBucket) (full empty : GoString) (pct : ℚ) : GoString :=
  text "  " ++ padRight 12 b.label ++ text " [" ++ full ++ empty ++ text "] " ++
    padLeft 6 (formatDecimal b.count.toNat) ++ text "  (" ++ padLeft 4 (formatFixed1 pct) ++
    text "%)\n"

/-- The body of the second loop of `RenderASCII`. It panics if the bar does not fit. -/
def renderBucket (total maxCount : UInt64) (sb : GoString) (b : LatencyBucket) :
    Option GoString :=
  if b.count = 0 then some sb
  else do
    let filled := truncate (b.count.toNat / maxCount.toNat * barWidth)
    let pct : ℚ := b.count.toNat / total.toNat * 100
    let full ← repeatString (text "█") filled
    let empty ← repeatString (text "─") (barWidth - filled)
    return sb ++ bucketLine b full empty pct

def nothingRecorded : GoString := text "  (no I/O recorded yet)\n"

/-- `RenderASCII`, without a result if it panics. -/
def renderASCII (buckets : List LatencyBucket) : Option GoString :=
  let sums := tally buckets
  if sums.1 = 0 then some nothingRecorded
  else buckets.foldlM (renderBucket sums.1 sums.2) []

/-- What a reader takes from the line of a bucket. -/
structure BucketFigure where
  label : GoString
  drawn : GoString
  count : ℕ
  percent : ℚ

/-- The label ends before the last opening bracket, and the bar stands between the brackets. The
percentage is what the parentheses contain. -/
def readBucketLine (line : GoString) : BucketFigure :=
  let right := beyondLast openingBracket line
  let numbers := beyond closingBracket right
  { label := trimBlanks ((upToLast openingBracket line).drop (text "  ").length)
    drawn := upTo closingBracket right
    count := decimalValue ((upTo openingParen numbers).filter isDigit)
    percent := readDecimal
      ((upTo percentSign (beyond openingParen numbers)).dropWhile (· = space)) }

abbrev LatencyBucket.weight (b : LatencyBucket) : ℕ := b.count.toNat

section Tally

theorem weight_eq_zero_iff {b : LatencyBucket} : b.weight = 0 ↔ b.count = 0 := by
  rw [← UInt64.toNat_inj]
  rfl

theorem toNat_tallyBucket_snd (sums : UInt64 × UInt64) (b : LatencyBucket) :
    (tallyBucket sums b).2.toNat = max sums.2.toNat b.weight := by
  rw [tallyBucket]
  split
  · rename_i above
    exact (max_eq_right (UInt64.lt_iff_toNat_lt.mp above).le).symm
  · rename_i notAbove
    exact (max_eq_left (UInt64.le_iff_toNat_le.mp (UInt64.not_lt.mp notAbove))).symm

theorem foldl_tallyBucket (buckets : List LatencyBucket) (sums : UInt64 × UInt64) :
    (buckets.foldl tallyBucket sums).1.toNat =
        (sums.1.toNat + total LatencyBucket.weight buckets) % 2 ^ 64 ∧
      (buckets.foldl tallyBucket sums).2.toNat =
        max sums.2.toNat (largest LatencyBucket.weight buckets) := by
  induction buckets generalizing sums with
  | nil => simp [Nat.mod_eq_of_lt sums.1.toNat_lt]
  | cons b buckets ih =>
      rcases ih (tallyBucket sums b) with ⟨sum, maximum⟩
      rw [List.foldl_cons, sum, maximum, toNat_tallyBucket_snd, tallyBucket, UInt64.toNat_add,
        total_cons, largest_cons, Nat.mod_add_mod, Nat.add_assoc, max_assoc]
      exact ⟨rfl, rfl⟩

variable {buckets : List LatencyBucket}

theorem toNat_tally_fst (fits : total LatencyBucket.weight buckets < 2 ^ 64) :
    (tally buckets).1.toNat = total LatencyBucket.weight buckets := by
  rw [tally, (foldl_tallyBucket buckets (0, 0)).1, UInt64.toNat_zero, Nat.zero_add,
    Nat.mod_eq_of_lt fits]

theorem toNat_tally_snd (buckets : List LatencyBucket) :
    (tally buckets).2.toNat = largest LatencyBucket.weight buckets := by
  rw [tally, (foldl_tallyBucket buckets (0, 0)).2, UInt64.toNat_zero, Nat.zero_max]

theorem exists_count_ne_zero_iff :
    total LatencyBucket.weight buckets ≠ 0 ↔ ∃ b ∈ buckets, b.count ≠ 0 := by
  simp only [ne_eq, total_eq_zero_iff, weight_eq_zero_iff, not_forall, exists_prop]

end Tally

section Drawing

variable (buckets : List LatencyBucket)

def shownBuckets : List LatencyBucket := buckets.filter fun b => b.count ≠ 0

def filledCells (b : LatencyBucket) : ℕ := cells LatencyBucket.weight buckets barWidth b

def emptyCells (b : LatencyBucket) : ℕ := barWidth - filledCells buckets b

/-- The percentage of a bucket before it is rounded. -/
def percentage (b : LatencyBucket) : ℚ := share LatencyBucket.weight buckets 100 b

/-- The line of a bucket among its list. -/
def drawnLine (b : LatencyBucket) : GoString :=
  bucketLine b (List.replicate (filledCells buckets b) (text "█")).flatten
    (List.replicate (emptyCells buckets b) (text "─")).flatten (percentage buckets b)

variable {buckets} {b : LatencyBucket}

theorem filledCells_le (present : b ∈ buckets) : filledCells buckets b ≤ barWidth :=
  cells_le present

theorem truncate_filled :
    truncate (b.count.toNat / (tally buckets).2.toNat * barWidth) = filledCells buckets b := by
  have product : (b.count.toNat / (tally buckets).2.toNat * barWidth : ℚ) =
      (barWidth * b.count.toNat : ℕ) / ((tally buckets).2.toNat : ℕ) := by
    push_cast
    ring
  rw [product, truncate_natCast_div, toNat_tally_snd, filledCells, cells]

theorem filter_isDigit_count (count : ℕ) :
    ([space] ++ padLeft 6 (formatDecimal count) ++ text "  ").filter isDigit =
      formatDecimal count := by
  have digits : ∀ c ∈ formatDecimal count, isDigit c := by
    intro c present
    exact isDigit_of_mem_formatDecimal present
  have blank : isDigit space = false := by decide
  have blanks : (text "  ").filter isDigit = [] := by decide
  simp only [padLeft, List.filter_append, List.filter_eq_self.mpr digits, blanks,
    List.filter_replicate, List.filter_singleton, blank]
  simp

/-- The line of a bucket is read as what it was made of, the percentage to the nearest tenth. -/
theorem readBucketLine_bucketLine {full empty : GoString}
    (clean : openingBracket ∉ full ++ empty ∧ closingBracket ∉ full ++ empty) (pct : ℚ) :
    readBucketLine (bucketLine b full empty pct) =
      ⟨trimBlanks b.label, full ++ empty, b.count.toNat, roundedTenths pct / 10⟩ := by
  let numbers := [space] ++ padLeft 6 (formatDecimal b.count.toNat) ++ text "  "
  let percent := padLeft 4 (formatFixed1 pct)
  have opening : text " [" = [space] ++ [openingBracket] := by decide
  have closing : text "] " = closingBracket :: [space] := by decide
  have parenthesis : text "  (" = text "  " ++ [openingParen] := by decide
  have sign : text "%)\n" = percentSign :: text ")\n" := by decide
  have isLine : bucketLine b full empty pct = (text "  " ++ (padRight 12 b.label ++ [space])) ++
      openingBracket :: ((full ++ empty) ++ closingBracket ::
        (numbers ++ openingParen :: (percent ++ percentSign :: text ")\n"))) := by
    simp [bucketLine, opening, closing, parenthesis, sign, numbers, percent]
  have digits : ∀ {c : UInt8}, isDigit c = false → c ≠ space → c ∉ text "." →
      c ∉ numbers ∧ c ∉ percent := by
    intro c notDigit notSpace notPoint
    have blanks : text "  " = [space, space] := by decide
    have count := notMem_padLeft notSpace 6 (notMem_formatDecimal notDigit b.count.toNat)
    have fixed := notMem_padLeft notSpace 4 (notMem_formatFixed1 notDigit notPoint pct)
    simp [numbers, percent, blanks, count, fixed, notSpace]
  have bracket := digits (c := openingBracket) (by decide) (by decide) (by decide)
  have paren := digits (c := openingParen) (by decide) (by decide) (by decide)
  have signs := digits (c := percentSign) (by decide) (by decide) (by decide)
  have lastBracket : openingBracket ∉ (full ++ empty) ++ closingBracket ::
      (numbers ++ openingParen :: (percent ++ percentSign :: text ")\n")) := by
    have others : openingBracket ∉ closingBracket :: openingParen :: percentSign :: text ")\n" := by
      decide
    simp only [List.mem_append, List.mem_cons, not_or] at clean others ⊢
    exact ⟨clean.1, others.1, bracket.1, others.2.1, bracket.2, others.2.2⟩
  rw [isLine, readBucketLine, (rspan_append_cons lastBracket _).1,
    (rspan_append_cons lastBracket _).2]
  simp only [List.drop_left, trimBlanks_concat, trimBlanks_padRight,
    (span_append_cons clean.2 _).1, (span_append_cons clean.2 _).2,
    (span_append_cons paren.1 _).1, (span_append_cons paren.1 _).2,
    (span_append_cons signs.2 _).1]
  rw [filter_isDigit_count, decimalValue_formatDecimal,
    dropWhile_padLeft (space_notMem_formatFixed1 pct), readDecimal_formatFixed1]

theorem renderBucket_eq (fits : total LatencyBucket.weight buckets < 2 ^ 64)
    (present : b ∈ buckets) (shown : b.count ≠ 0) (sb : GoString) :
    renderBucket (tally buckets).1 (tally buckets).2 sb b = some (sb ++ drawnLine buckets b) := by
  have rest : (barWidth : ℤ) - filledCells buckets b = emptyCells buckets b := by
    rw [emptyCells, Nat.cast_sub (filledCells_le present)]
  rw [renderBucket, if_neg shown]
  simp only [truncate_filled, rest, repeatString_natCast, toNat_tally_fst fits]
  rfl

theorem foldlM_renderBucket (fits : total LatencyBucket.weight buckets < 2 ^ 64)
    {rows : List LatencyBucket} (present : ∀ b ∈ rows, b ∈ buckets) (sb : GoString) :
    rows.foldlM (renderBucket (tally buckets).1 (tally buckets).2) sb =
      some (sb ++ (shownBuckets rows).flatMap (drawnLine buckets)) := by
  induction rows generalizing sb with
  | nil => simp [shownBuckets, pure]
  | cons b rows ih =>
      have later := ih fun b isRow => present b (by simp [isRow])
      rw [List.foldlM_cons, shownBuckets, List.filter_cons]
      by_cases empty : b.count = 0
      · rw [renderBucket, if_pos empty]
        simp [later, shownBuckets, empty]
      · rw [renderBucket_eq fits (present b (by simp)) empty]
        simp [later, shownBuckets, empty]

theorem renderASCII_of_zero (zero : ∀ b ∈ buckets, b.count = 0) :
    renderASCII buckets = some nothingRecorded := by
  have none : total LatencyBucket.weight buckets = 0 :=
    total_eq_zero_iff.mpr fun b present => weight_eq_zero_iff.mpr (zero b present)
  have tallied : (tally buckets).1 = 0 := by
    rw [← UInt64.toNat_inj, toNat_tally_fst (by rw [none]; decide), none]
    rfl
  exact if_pos tallied

theorem renderASCII_of_ne_zero (fits : total LatencyBucket.weight buckets < 2 ^ 64)
    (recorded : ∃ b ∈ buckets, b.count ≠ 0) :
    renderASCII buckets = some ((shownBuckets buckets).flatMap (drawnLine buckets)) := by
  have tallied : (tally buckets).1 ≠ 0 := by
    rw [ne_eq, ← UInt64.toNat_inj, toNat_tally_fst fits]
    exact exists_count_ne_zero_iff.mpr recorded
  rw [renderASCII]
  simp only [if_neg tallied]
  exact foldlM_renderBucket fits (fun b present => present) []

/-- What the second loop prints for a bucket, whether or not the sum of the counts fits. -/
def drawnBucket (buckets : List LatencyBucket) (b : LatencyBucket) : GoString :=
  if b.count = 0 then []
  else
    bucketLine b (List.replicate (filledCells buckets b) (text "█")).flatten
      (List.replicate (emptyCells buckets b) (text "─")).flatten
      ((b.count.toNat : ℚ) / (tally buckets).1.toNat * 100)

def drawnBuckets (buckets : List LatencyBucket) : GoString :=
  if (tally buckets).1 = 0 then nothingRecorded else buckets.flatMap (drawnBucket buckets)

theorem renderBucket_of_mem (present : b ∈ buckets) (sb : GoString) :
    renderBucket (tally buckets).1 (tally buckets).2 sb b =
      some (sb ++ drawnBucket buckets b) := by
  have rest : (barWidth : ℤ) - filledCells buckets b = emptyCells buckets b := by
    rw [emptyCells, Nat.cast_sub (filledCells_le present)]
  rw [renderBucket, drawnBucket]
  split
  · rw [List.append_nil]
  · simp only [truncate_filled, rest, repeatString_natCast]
    rfl

/-- `RenderASCII` does not panic, whatever the counts are. -/
theorem renderASCII_eq (buckets : List LatencyBucket) :
    renderASCII buckets = some (drawnBuckets buckets) := by
  have printed : ∀ (rows : List LatencyBucket) (sb : GoString), (∀ b ∈ rows, b ∈ buckets) →
      rows.foldlM (renderBucket (tally buckets).1 (tally buckets).2) sb =
        some (sb ++ rows.flatMap (drawnBucket buckets)) := by
    intro rows
    induction rows with
    | nil => simp [pure]
    | cons b rows ih =>
        intro sb present
        rw [List.foldlM_cons, renderBucket_of_mem (present b List.mem_cons_self)]
        simp [ih _ fun other isRow => present other (List.mem_cons_of_mem b isRow)]
  rw [renderASCII, drawnBuckets]
  split
  · rfl
  · exact printed buckets [] fun b present => present

theorem suffix_drawnLine (buckets : List LatencyBucket) (b : LatencyBucket) :
    text "%)\n" <:+ drawnLine buckets b :=
  List.suffix_append _ _

/-- A drawing ends with a percentage and not like the text without one. -/
theorem flatMap_drawnLine_ne {rows : List LatencyBucket} (nonempty : rows ≠ []) :
    rows.flatMap (drawnLine buckets) ≠ nothingRecorded := by
  intro same
  have ends : text "%)\n" <:+ rows.flatMap (drawnLine buckets) := by
    rw [← List.dropLast_append_getLast nonempty, List.flatMap_append, List.flatMap_singleton]
    exact (suffix_drawnLine buckets _).trans (List.suffix_append _ _)
  rw [same] at ends
  exact absurd ends (by decide +kernel)

theorem renderASCII_eq_nothingRecorded_iff (fits : total LatencyBucket.weight buckets < 2 ^ 64) :
    renderASCII buckets = some nothingRecorded ↔ ∀ b ∈ buckets, b.count = 0 := by
  constructor
  · intro nothing
    by_contra recorded
    simp only [not_forall, exists_prop] at recorded
    rw [renderASCII_of_ne_zero fits recorded, Option.some.injEq] at nothing
    rcases recorded with ⟨b, present, shown⟩
    have isShown : b ∈ shownBuckets buckets := by simp [shownBuckets, present, shown]
    exact flatMap_drawnLine_ne (List.ne_nil_of_mem isShown) nothing
  · exact renderASCII_of_zero

theorem sum_percentage (recorded : ∃ b ∈ buckets, b.count ≠ 0) :
    ((shownBuckets buckets).map (percentage buckets)).sum = 100 := by
  apply sum_share_filter 100 (exists_count_ne_zero_iff.mpr recorded)
  intro b _ dropped
  rw [weight_eq_zero_iff]
  simpa using dropped

theorem notMem_cells {c : UInt8} (notFull : c ∉ text "█") (notEmpty : c ∉ text "─")
    (full empty : ℕ) : c ∉ (List.replicate full (text "█")).flatten ++
      (List.replicate empty (text "─")).flatten := by
  simp [notFull, notEmpty]

theorem readBucketLine_drawnLine (buckets : List LatencyBucket) (b : LatencyBucket) :
    readBucketLine (drawnLine buckets b) =
      { label := trimBlanks b.label
        drawn := (List.replicate (filledCells buckets b) (text "█")).flatten ++
          (List.replicate (emptyCells buckets b) (text "─")).flatten
        count := b.count.toNat
        percent := roundedTenths (percentage buckets b) / 10 } := by
  apply readBucketLine_bucketLine
  constructor
  · exact notMem_cells (by decide) (by decide) _ _
  · exact notMem_cells (by decide) (by decide) _ _

/-- As long as the sum of the counts fits into 64 bits, the drawing has one line for each bucket
that has counted anything, with a bar in proportion to the largest count. The line is read as the
label, the bar, the count and the share of the bucket. -/
theorem renderASCII_faithful (fits : total LatencyBucket.weight buckets < 2 ^ 64) :
    (renderASCII buckets = some nothingRecorded ↔ ∀ b ∈ buckets, b.count = 0) ∧
    ((∃ b ∈ buckets, b.count ≠ 0) →
      renderASCII buckets = some ((shownBuckets buckets).flatMap (drawnLine buckets)) ∧
      ((shownBuckets buckets).map (percentage buckets)).sum = 100) ∧
    ∀ b ∈ shownBuckets buckets,
      filledCells buckets b = 30 * b.count.toNat / largest LatencyBucket.weight buckets ∧
      filledCells buckets b ≤ 30 ∧ filledCells buckets b + emptyCells buckets b = 30 ∧
      ((∀ other ∈ buckets, other.count ≤ b.count) → filledCells buckets b = 30) ∧
      (∀ other ∈ shownBuckets buckets, b.count ≤ other.count →
        filledCells buckets b ≤ filledCells buckets other) ∧
      readBucketLine (drawnLine buckets b) =
        { label := trimBlanks b.label
          drawn := (List.replicate (filledCells buckets b) (text "█")).flatten ++
            (List.replicate (emptyCells buckets b) (text "─")).flatten
          count := b.count.toNat
          percent := roundedTenths (percentage buckets b) / 10 } := by
  refine ⟨renderASCII_eq_nothingRecorded_iff fits, ?_, ?_⟩
  · intro recorded
    exact ⟨renderASCII_of_ne_zero fits recorded, sum_percentage recorded⟩
  · intro b isShown
    rw [shownBuckets, List.mem_filter, decide_eq_true_eq] at isShown
    rcases isShown with ⟨present, nonzero⟩
    refine ⟨rfl, filledCells_le present, Nat.add_sub_cancel' (filledCells_le present), ?_, ?_,
      readBucketLine_drawnLine buckets b⟩
    · intro isLargest
      apply cells_of_largest present (Nat.pos_of_ne_zero (mt weight_eq_zero_iff.mp nonzero))
      intro other isOther
      exact UInt64.le_iff_toNat_le.mp (isLargest other isOther)
    · intro other _ smaller
      exact cells_mono (UInt64.le_iff_toNat_le.mp smaller)

/-- Two buckets with an empty one between them. -/
theorem renderASCII_faithful_instance :
    ∃ buckets : List LatencyBucket,
      buckets = [⟨text "<1 µs", 1⟩, ⟨text "1–2 µs", 0⟩, ⟨text "2–4 µs", 3⟩] ∧
      buckets.map (filledCells buckets) = [10, 0, 30] ∧
      renderASCII buckets = some ((shownBuckets buckets).flatMap (drawnLine buckets)) ∧
      ((shownBuckets buckets).map (percentage buckets)).sum = 100 := by
  refine ⟨_, rfl, by decide +kernel, ?_⟩
  apply (renderASCII_faithful (by decide +kernel)).2.1
  exact ⟨⟨text "<1 µs", 1⟩, by simp, by decide⟩

example : renderASCII [⟨text "<1 µs", 0⟩, ⟨text "2–4 µs", 3⟩] =
    some (text "  2–4 µs       [██████████████████████████████]      3  (100.0%)\n") := by
  decide +kernel

end Drawing

end Sysmon.Ebpf
