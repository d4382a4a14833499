import Sysmon.Stats.Cpu
import Sysmon.Stats.Proc

/-!
# Reading `/proc/stat`

This file embeds `ParseCPUTimes`. A line that begins with `cpu` and has at
least eight fields is a CPU row, and gives one entry if the fields after its
name are all numbers; one that is not ends the reading with an error. Columns
are assigned from the left, so that missing columns stay zero and further ones
are ignored. All other lines are skipped.
-/

namespace Sysmon.Stats

open Sysmon.Go

namespace CPUTimes

/-- `CPUTimes{Name: name}`. -/
def named (name : GoString) : CPUTimes :=
  { name := name
    user := 0
    nice := 0
    system := 0
    idle := 0
    ioWait := 0
    irq := 0
    softIRQ := 0
    steal := 0
    guest := 0
    guestNice := 0 }

/-- `assign`: the targets of the columns, in order. -/
def assign : List (CPUTimes → UInt64 → CPUTimes) :=
  [fun ct v => { ct with user := v },
    fun ct v => { ct with nice := v },
    fun ct v => { ct with system := v },
    fun ct v => { ct with idle := v },
    fun ct v => { ct with ioWait := v },
    fun ct v => { ct with irq := v },
    fun ct v => { ct with softIRQ := v },
    fun ct v => { ct with steal := v },
    fun ct v => { ct with guest := v },
    fun ct v => { ct with guestNice := v }]

/-- The loop that assigns the values to the targets until one of them runs out. -/
def assignAll (ct : CPUTimes) (vals : List UInt64) : CPUTimes :=
  (assign.zip vals).foldl (fun ct target => target.1 ct target.2) ct

end CPUTimes

def parseStatField (fld : GoString) : Except ProcError UInt64 :=
  match parseUint fld with
  | .ok v => .ok v
  | .error err => .error (.parsingStatField fld err)

/-- The body of the loop of `ParseCPUTimes`. -/
def statLine (result : List CPUTimes) (line : GoString) : Except ProcError (List CPUTimes) :=
  if !hasPrefix line (text "cpu") then .ok result
  else
    let flds := fields line
    if flds.length < 8 then .ok result
    else do
      let vals ← (flds.drop 1).mapM parseStatField
      let ct := (CPUTimes.named (flds.headD [])).assignAll vals
      .ok (result ++ [ct])

/-- `ParseCPUTimes`, on the text that its reader yields. -/
def parseCPUTimes (r : GoString) : List CPUTimes × Option ProcError :=
  returned [] (scanLines (.scanning (text "/proc/stat")) statLine [] r)

section Rows

/-- A line that gives an entry. -/
def IsCPURow (line : GoString) : Prop := hasPrefix line (text "cpu") ∧ 8 ≤ (fields line).length

instance : DecidablePred IsCPURow := fun line =>
  inferInstanceAs (Decidable (hasPrefix line (text "cpu") ∧ 8 ≤ (fields line).length))

def cpuRows (r : GoString) : List GoString := (lines r).filter (IsCPURow ·)

/-- All fields after the name are numbers. -/
def ValidRow (row : GoString) : Prop := ∀ fld ∈ (fields row).drop 1, IsUint64 fld

instance : DecidablePred ValidRow := fun row =>
  inferInstanceAs (Decidable (∀ fld ∈ (fields row).drop 1, IsUint64 fld))

/-- The number in a field of a row, zero if there is no such field. -/
def column (row : GoString) (i : ℕ) : UInt64 :=
  UInt64.ofNat (decimalValue ((fields row)[i]?.getD []))

/-- The entry of a row. -/
def rowTimes (row : GoString) : CPUTimes :=
  { name := (fields row).headD []
    user := column row 1
    nice := column row 2
    system := column row 3
    idle := column row 4
    ioWait := column row 5
    irq := column row 6
    softIRQ := column row 7
    steal := column row 8
    guest := column row 9
    guestNice := column row 10 }

theorem assignAll_named (name : GoString) (vals : List UInt64) :
    (CPUTimes.named name).assignAll vals =
      { name := name
        user := vals[0]?.getD 0
        nice := vals[1]?.getD 0
        system := vals[2]?.getD 0
        idle := vals[3]?.getD 0
        ioWait := vals[4]?.getD 0
        irq := vals[5]?.getD 0
        softIRQ := vals[6]?.getD 0
        steal := vals[7]?.getD 0
        guest := vals[8]?.getD 0
        guestNice := vals[9]?.getD 0 } := by
  match vals with
  | [] | [_] | [_, _] | [_, _, _] | [_, _, _, _] | [_, _, _, _, _] | [_, _, _, _, _, _]
  | [_, _, _, _, _, _, _] | [_, _, _, _, _, _, _, _] | [_, _, _, _, _, _, _, _, _]
  | _ :: _ :: _ :: _ :: _ :: _ :: _ :: _ :: _ :: _ :: _ => rfl

theorem mapM_parseStatField {flds : List GoString} (valid : ∀ fld ∈ flds, IsUint64 fld) :
    flds.mapM parseStatField = .ok (flds.map fun fld => UInt64.ofNat (decimalValue fld)) := by
  induction flds with
  | nil => rfl
  | cons fld flds ih =>
      rw [List.mapM_cons, ih fun fld present => valid fld (by simp [present]), parseStatField,
        parseUint_of_isUint64 (valid fld (by simp))]
      rfl

theorem exists_mapM_parseStatField_eq_error {flds : List GoString} {fld : GoString}
    (present : fld ∈ flds) (notUint64 : ¬IsUint64 fld) :
    ∃ err, flds.mapM parseStatField = .error err := by
  induction flds with
  | nil => exact absurd present List.not_mem_nil
  | cons first flds ih =>
      rw [List.mapM_cons]
      cases parsed : parseStatField first with
      | error err => exact ⟨err, rfl⟩
      | ok v =>
          rcases List.mem_cons.mp present with rfl | later
          · rcases exists_parseUint_eq_error notUint64 with ⟨err, failed⟩
            rw [parseStatField, failed] at parsed
            exact absurd parsed (by simp)
          · rcases ih later with ⟨err, failed⟩
            rw [failed]
            exact ⟨err, rfl⟩

theorem statLine_of_not_isCPURow {line : GoString} (notRow : ¬IsCPURow line)
    (result : List CPUTimes) : statLine result line = .ok result := by
  rw [statLine]
  split
  · rfl
  · rename_i isPrefix
    have short : (fields line).length < 8 := by
      rw [IsCPURow, not_and, not_le] at notRow
      exact notRow (by simpa using isPrefix)
    simp only
    rw [if_pos short]

theorem statLine_of_isCPURow {line : GoString} (isRow : IsCPURow line) (result : List CPUTimes) :
    statLine result line = (((fields line).drop 1).mapM parseStatField).bind fun vals =>
      .ok (result ++ [(CPUTimes.named ((fields line).headD [])).assignAll vals]) := by
  rw [statLine, if_neg (by simp [isRow.1])]
  simp only
  rw [if_neg isRow.2.not_gt]
  rfl

theorem statLine_of_validRow {line : GoString} (isRow : IsCPURow line) (valid : ValidRow line)
    (result : List CPUTimes) : statLine result line = .ok (result ++ [rowTimes line]) := by
  have column_eq : ∀ i, (((fields line).drop 1).map fun fld =>
      UInt64.ofNat (decimalValue fld))[i]?.getD 0 = column line (i + 1) := by
    intro i
    rw [column, List.getElem?_map, List.getElem?_drop, Nat.add_comm 1 i]
    cases (fields line)[i + 1]? <;> rfl
  rw [statLine_of_isCPURow isRow, mapM_parseStatField valid]
  simp only [Except.bind, assignAll_named, column_eq]
  rfl

theorem exists_statLine_eq_error {line : GoString} (isRow : IsCPURow line)
    (notValid : ¬ValidRow line) (result : List CPUTimes) :
    ∃ err, statLine result line = .error err := by
  simp only [ValidRow, not_forall, exists_prop] at notValid
  rcases notValid with ⟨fld, present, notUint64⟩
  rcases exists_mapM_parseStatField_eq_error present notUint64 with ⟨err, failed⟩
  rw [statLine_of_isCPURow isRow, failed]
  exact ⟨err, rfl⟩

theorem parseCPUTimes_of_validRows {r : GoString} (fits : LinesFit r)
    (valid : ∀ row ∈ cpuRows r, ValidRow row) :
    parseCPUTimes r = ((cpuRows r).map rowTimes, none) := by
  rw [parseCPUTimes, returned_eq_none_iff, scanLines_eq_ok_iff]
  refine ⟨fits, ?_⟩
  apply foldlM_append IsCPURow rowTimes
  · intro line present isRow
    exact statLine_of_validRow isRow (valid line (by simpa [cpuRows] using ⟨present, isRow⟩))
  · intro line _ notRow
    exact statLine_of_not_isCPURow notRow

theorem validRow_of_parseCPUTimes {r : GoString} {entries : List CPUTimes}
    (accepted : parseCPUTimes r = (entries, none)) :
    LinesFit r ∧ ∀ row ∈ cpuRows r, ValidRow row := by
  rw [parseCPUTimes, returned_eq_none_iff, scanLines_eq_ok_iff] at accepted
  refine ⟨accepted.1, ?_⟩
  intro row isRow
  rw [cpuRows, List.mem_filter, decide_eq_true_eq] at isRow
  by_contra notValid
  rcases exists_foldlM_eq_error isRow.1 (exists_statLine_eq_error isRow.2 notValid) [] with
    ⟨err, failed⟩
  rw [failed] at accepted
  exact absurd accepted.2 (by simp)

theorem names_of_mapM_parseStatField {flds : List GoString} {err : ProcError}
    (failed : flds.mapM parseStatField = .error err) : err.Names (text "/proc/stat") := by
  induction flds with
  | nil => exact absurd failed (by simp [pure, Except.pure])
  | cons fld flds ih =>
      rw [List.mapM_cons, parseStatField] at failed
      cases parsed : parseUint fld with
      | error numError =>
          rw [parsed] at failed
          cases failed
          exact names_parsingStatField fld numError
      | ok v =>
          rw [parsed] at failed
          cases later : flds.mapM parseStatField with
          | error other =>
              rw [later] at failed
              cases failed
              exact ih later
          | ok vals => simp [later, bind, Except.bind, pure, Except.pure] at failed

/-- Every error of the reading names the file. -/
theorem names_of_parseCPUTimes {r : GoString} {err : ProcError}
    (rejected : (parseCPUTimes r).2 = some err) : err.Names (text "/proc/stat") := by
  apply of_scanLines_eq_error _ _ (eq_error_of_returned rejected)
  · exact names_scanning _
  · intro result line err failed
    by_cases isRow : IsCPURow line
    · rw [statLine_of_isCPURow isRow] at failed
      cases parsed : ((fields line).drop 1).mapM parseStatField with
      | error other =>
          rw [parsed] at failed
          cases failed
          exact names_of_mapM_parseStatField parsed
      | ok vals =>
          rw [parsed] at failed
          simp only [Except.bind, reduceCtorEq] at failed
    · rw [statLine_of_not_isCPURow isRow] at failed
      exact absurd failed (by simp)

end Rows

section Insertion

/-- A line that does not begin with `cpu` has no influence on the reading, wherever it stands,
if and only if it fits into the buffer of the scanner. -/
theorem parseCPUTimes_insertLine_iff {r r' line : GoString} {entries : List CPUTimes}
    (accepted : parseCPUTimes r = (entries, none)) (single : newline ∉ line)
    (ignored : ¬text "cpu" <+: line) (inserted : InsertLine line r r') :
    parseCPUTimes r' = parseCPUTimes r ↔ Fits line := by
  rcases inserted.exists_rawLines single with ⟨before, after, isRaw, isInserted⟩
  rw [accepted]
  have read := accepted
  rw [parseCPUTimes, returned_eq_none_iff, scanLines_eq_ok_iff] at read ⊢
  rcases read with ⟨fits, isResult⟩
  rw [LinesFit, isRaw] at fits
  rw [lines, isRaw, List.map_append] at isResult
  rcases isInserted with isRaw' | ⟨rfl, isRaw'⟩
  · have skipped : ∀ result, statLine result (dropCR line) = .ok result := by
      apply statLine_of_not_isCPURow
      intro isRow
      exact ignored ((of_decide_eq_true isRow.1).trans (dropCR_isPrefix line))
    rw [LinesFit, lines, isRaw', List.map_append, List.map_cons, foldlM_insert skipped]
    constructor
    · rintro ⟨fits', _⟩
      exact fits' line (by simp)
    · intro fitsLine
      refine ⟨?_, isResult⟩
      intro other present
      rcases List.mem_append.mp present with earlier | later
      · exact fits other (by simp [earlier])
      · rcases List.mem_cons.mp later with rfl | later
        · exact fitsLine
        · exact fits other (by simp [later])
  · rw [LinesFit, lines, isRaw', List.map_append]
    exact ⟨fun _ => by decide, fun _ => ⟨fits, isResult⟩⟩

/-- A short interrupt line is skipped. -/
theorem parseCPUTimes_insertLine_short :
    parseCPUTimes (text "intr 5 0 1\n" ++ text "cpu 1 2 3 4 5 6 7\n") =
      parseCPUTimes (text "cpu 1 2 3 4 5 6 7\n") := by
  have accepted : parseCPUTimes (text "cpu 1 2 3 4 5 6 7\n") =
      ([rowTimes (text "cpu 1 2 3 4 5 6 7")], none) := by decide +kernel
  have inserted : InsertLine (text "intr 5 0 1") (text "cpu 1 2 3 4 5 6 7\n")
      (text "intr 5 0 1\n" ++ text "cpu 1 2 3 4 5 6 7\n") :=
    InsertLine.before [] (text "cpu 1 2 3 4 5 6 7\n") (Or.inl rfl)
  exact (parseCPUTimes_insertLine_iff accepted (by decide) (by decide) inserted).mpr (by decide)

/-- An interrupt line of 65541 bytes makes the whole reading fail. -/
theorem parseCPUTimes_insertLine_long :
    ∃ line r, line = text "intr " ++ List.replicate 65536 48 ∧
      r = text "cpu 1 2 3 4 5 6 7\n" ∧ newline ∉ line ∧ ¬text "cpu" <+: line ∧
      InsertLine line r (line ++ newline :: r) ∧ (parseCPUTimes r).2 = none ∧
      parseCPUTimes (line ++ newline :: r) ≠ parseCPUTimes r := by
  have single : ∀ count : ℕ, newline ∉ text "intr " ++ List.replicate count 48 := by
    intro count present
    rcases List.mem_append.mp present with word | zeros
    · exact absurd word (by decide)
    · exact absurd (List.eq_of_mem_replicate zeros) (by decide)
  have ignored : ∀ count : ℕ, ¬text "cpu" <+: text "intr " ++ List.replicate count 48 := by
    intro count isPrefix
    have shorter := List.prefix_of_prefix_length_le isPrefix (List.prefix_append _ _) (by decide)
    exact absurd shorter (by decide)
  have long : ∀ count : ℕ, (text "intr " ++ List.replicate count 48).length = 5 + count := by
    intro count
    rw [List.length_append, List.length_replicate]
    rfl
  have accepted : parseCPUTimes (text "cpu 1 2 3 4 5 6 7\n") =
      ([rowTimes (text "cpu 1 2 3 4 5 6 7")], none) := by decide +kernel
  have inserted : ∀ line r : GoString, InsertLine line r (line ++ newline :: r) := by
    intro line r
    exact InsertLine.before [] r (Or.inl rfl)
  refine ⟨_, _, rfl, rfl, single 65536, ignored 65536, inserted _ _, ?_, ?_⟩
  · rw [accepted]
  · intro unchanged
    rw [accepted] at unchanged
    have fits := (validRow_of_parseCPUTimes unchanged).1
    rw [LinesFit, rawLines_cons (single 65536)] at fits
    have fitsLine := fits _ List.mem_cons_self
    rw [Fits, long] at fitsLine
    exact absurd fitsLine (by decide)

end Insertion

section Printing

namespace CPUTimes

/-- The columns of a CPU line, in order. -/
def counters (ct : CPUTimes) : List UInt64 :=
  [ct.user, ct.nice, ct.system, ct.idle, ct.ioWait, ct.irq, ct.softIRQ, ct.steal, ct.guest,
    ct.guestNice]

end CPUTimes

/-- A CPU record as `/proc/stat` shows it, with some white space before each of its columns and
after the last one. The columns that are left out are zero. -/
structure StatRow where
  times : CPUTimes
  gaps : List GoString
  trailing : GoString
  columns : 7 ≤ gaps.length ∧ gaps.length ≤ 10
  separated : ∀ gap ∈ gaps, spaces.Blank gap ∧ gap ≠ []
  blank : spaces.Blank trailing
  isCPU : hasPrefix times.name (text "cpu")
  isWord : spaces.IsWord times.name
  leftOut : ∀ v ∈ times.counters.drop gaps.length, v = 0

namespace StatRow

variable (row : StatRow)

def shown : List GoString :=
  (row.times.counters.take row.gaps.length).map fun v => formatDecimal v.toNat

def print : GoString :=
  (row.times.name ++ (row.gaps.zip row.shown).flatMap fun entry => entry.1 ++ entry.2) ++
    row.trailing

theorem length_shown : row.shown.length = row.gaps.length := by
  have columns := row.columns
  simp [shown, CPUTimes.counters]
  omega

theorem fields_print : fields row.print = row.times.name :: row.shown := by
  have isDecimal : ∀ word ∈ row.shown, spaces.IsWord word := by
    intro word present
    rcases List.mem_map.mp present with ⟨v, _, rfl⟩
    exact isWord_of_isUint64 (isUint64_formatDecimal v)
  have words := Words.Separators.words_append_flatMap row.times.name
    (fun entry present => row.separated entry.1 (List.of_mem_zip present).1)
    fun entry present => isDecimal entry.2 (List.of_mem_zip present).2
  rw [fields, print, Words.Separators.words_append_trailing _ row.blank, words,
    row.isWord.words_eq, List.map_snd_zip (by rw [row.length_shown])]
  rfl

theorem isCPURow_print : IsCPURow row.print := by
  have columns := row.columns
  constructor
  · have isPrefix : text "cpu" <+: row.times.name := by
      simpa [hasPrefix] using row.isCPU
    rw [hasPrefix, decide_eq_true_eq, print, List.append_assoc]
    exact isPrefix.trans (List.prefix_append _ _)
  · rw [row.fields_print, List.length_cons, row.length_shown]
    omega

theorem validRow_print : ValidRow row.print := by
  intro fld present
  rw [row.fields_print] at present
  rcases List.mem_map.mp present with ⟨v, _, rfl⟩
  exact isUint64_formatDecimal v

theorem column_print (i : ℕ) : column row.print (i + 1) = row.times.counters[i]?.getD 0 := by
  rw [column, row.fields_print, List.getElem?_cons_succ, shown, List.getElem?_map]
  rcases Nat.lt_or_ge i row.gaps.length with inside | leftOut
  · rw [List.getElem?_take_of_lt inside]
    cases row.times.counters[i]? with
    | none => rfl
    | some v => simp
  · rw [List.getElem?_eq_none (by simp; omega)]
    cases isColumn : row.times.counters[i]? with
    | none => rfl
    | some v =>
        have isLeftOut : v ∈ row.times.counters.drop row.gaps.length := by
          rw [List.mem_iff_getElem?]
          refine ⟨i - row.gaps.length, ?_⟩
          rw [List.getElem?_drop, Nat.add_sub_cancel' leftOut, isColumn]
        rw [row.leftOut v isLeftOut]
        rfl

theorem rowTimes_print : rowTimes row.print = row.times := by
  simp only [rowTimes, column_print, row.fields_print]
  rfl

end StatRow

/-- A line of `/proc/stat`: a CPU record, or anything that is not a CPU row. -/
inductive StatItem where
  | record (row : StatRow)
  | other (line : GoString) (notRow : ¬IsCPURow line)

namespace StatItem

def print : StatItem → GoString
  | record row => row.print
  | other line _ => line

def times? : StatItem → Option CPUTimes
  | record row => some row.times
  | other _ _ => none

end StatItem

theorem isCPURow_dropCR (line : GoString) : IsCPURow (dropCR line) ↔ IsCPURow line := by
  rw [IsCPURow, IsCPURow, hasPrefix_dropCR (by decide), fields_dropCR]

theorem validRow_dropCR (line : GoString) : ValidRow (dropCR line) ↔ ValidRow line := by
  rw [ValidRow, ValidRow, fields_dropCR]

theorem rowTimes_dropCR (line : GoString) : rowTimes (dropCR line) = rowTimes line := by
  simp only [rowTimes, column, fields_dropCR]

theorem map_rowTimes_items (items : List StatItem) :
    (((items.map StatItem.print).map dropCR).filter (IsCPURow ·)).map rowTimes =
      items.filterMap StatItem.times? := by
  rw [List.map_map]
  apply map_filter_printed IsCPURow rowTimes
  · intro item ct isTimes
    cases item with
    | record row =>
        cases isTimes
        exact ⟨(isCPURow_dropCR row.print).mpr row.isCPURow_print,
          (rowTimes_dropCR row.print).trans row.rowTimes_print⟩
    | other line notRow => exact absurd isTimes (by simp [StatItem.times?])
  · intro item none
    cases item with
    | record row => exact absurd none (by simp [StatItem.times?])
    | other line notRow => exact mt (isCPURow_dropCR line).mp notRow

theorem parseCPUTimes_unlines {items : List StatItem}
    (single : ∀ item ∈ items, newline ∉ item.print) (fits : ∀ item ∈ items, Fits item.print) :
    parseCPUTimes (unlines (items.map StatItem.print)) =
      (items.filterMap StatItem.times?, none) := by
  have singleLines : ∀ line ∈ items.map StatItem.print, newline ∉ line := by
    simpa using single
  have areLines := lines_unlines singleLines
  have valid : ∀ row ∈ cpuRows (unlines (items.map StatItem.print)), ValidRow row := by
    intro row present
    rw [cpuRows, areLines, List.map_map, List.mem_filter, decide_eq_true_eq] at present
    rcases List.mem_map.mp present.1 with ⟨item, isItem, rfl⟩
    apply (validRow_dropCR _).mpr
    cases item with
    | record row => exact row.validRow_print
    | other line notRow => exact absurd ((isCPURow_dropCR line).mp present.2) notRow
  rw [parseCPUTimes_of_validRows (linesFit_unlines singleLines (by simpa using fits)) valid,
    cpuRows, areLines, map_rowTimes_items]

/-- The reading of `/proc/stat` is exact. If all lines fit, the entries are those of the CPU rows
as long as all of these are valid, and there are none otherwise; and printed records are read
back, whatever stands between them. -/
theorem parseCPUTimes_exact :
    (∀ r, LinesFit r →
      ((∀ row ∈ cpuRows r, ValidRow row) → parseCPUTimes r = ((cpuRows r).map rowTimes, none)) ∧
      ((∃ row ∈ cpuRows r, ¬ValidRow row) → ∃ err, parseCPUTimes r = ([], some err))) ∧
    ∀ items : List StatItem,
      (∀ item ∈ items, newline ∉ item.print) → (∀ item ∈ items, Fits item.print) →
        parseCPUTimes (unlines (items.map StatItem.print)) =
          (items.filterMap StatItem.times?, none) := by
  refine ⟨?_, fun items single fits => parseCPUTimes_unlines single fits⟩
  intro r fits
  constructor
  · exact parseCPUTimes_of_validRows fits
  · rintro ⟨row, isRow, notValid⟩
    apply exists_returned_eq_error
    intro entries accepted
    exact notValid ((validRow_of_parseCPUTimes accepted).2 row isRow)

/-- A row with a bad column, and an old row with seven columns after an interrupt line. -/
theorem parseCPUTimes_exact_instances :
    (∃ err, parseCPUTimes (text "cpu0 1 2 3 4 5 6 7\ncpu1 1 2 x 4 5 6 7\n") = ([], some err)) ∧
      ∃ row : StatRow, row.times = (CPUTimes.named (text "cpu0")).assignAll [1, 2, 3, 4, 5, 6, 7] ∧
        parseCPUTimes (unlines [text "intr 5 0", row.print]) = ([row.times], none) := by
  constructor
  · have fits : LinesFit (text "cpu0 1 2 3 4 5 6 7\ncpu1 1 2 x 4 5 6 7\n") := by decide +kernel
    apply (parseCPUTimes_exact.1 _ fits).2
    exact ⟨text "cpu1 1 2 x 4 5 6 7", by decide +kernel, by decide +kernel⟩
  · let row : StatRow :=
      { times := (CPUTimes.named (text "cpu0")).assignAll [1, 2, 3, 4, 5, 6, 7]
        gaps := List.replicate 7 (text "  ")
        trailing := text "  "
        columns := by decide
        separated := by
          intro gap present
          rw [List.eq_of_mem_replicate present]
          exact ⟨⟨[[0x20], [0x20]], by decide +kernel, rfl⟩, by decide⟩
        blank := ⟨[[0x20], [0x20]], by decide +kernel, rfl⟩
        isCPU := by decide
        isWord := ⟨by decide, by decide +kernel⟩
        leftOut := by
          intro v isLeftOut
          change v ∈ [0, 0, 0] at isLeftOut
          simpa using isLeftOut }
    refine ⟨row, rfl, ?_⟩
    apply parseCPUTimes_exact.2 [.other (text "intr 5 0") (by decide +kernel), .record row]
    · intro item present
      rcases List.mem_pair.mp present with rfl | rfl <;> decide +kernel
    · intro item present
      rcases List.mem_pair.mp present with rfl | rfl <;> decide +kernel

end Printing

end Sysmon.Stats
