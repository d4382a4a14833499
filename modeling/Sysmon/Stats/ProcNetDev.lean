import Sysmon.Stats.Net
import Sysmon.Stats.Proc

/-!
# Reading `/proc/net/dev`

This file embeds `ParseNetIO`. The first two lines are skipped by their
position. A later line gives an entry if it has a colon, at least ten columns
after it, and numbers in the four columns that are used; the name before the
colon may be anything. All other lines are skipped, and none of them ends the
reading.
-/

namespace Sysmon.Stats

open Sysmon.Go

/-- The body of the loop of `ParseNetIO`, with the count of the lines before it. -/
def netLine (state : ℕ × List NetIO) (line : GoString) : Except ProcError (ℕ × List NetIO) :=
  let lineNum := state.1 + 1
  let result := state.2
  if lineNum ≤ 2 then .ok (lineNum, result) -- skip the two header lines
  else
    match indexByte line colonByte with
    | none => .ok (lineNum, result)
    | some colon =>
      let iface := trimSpace (line.take colon)
      let flds := fields (line.drop (colon + 1))
      if flds.length < 10 then .ok (lineNum, result)
      else
        match parseUint (flds.getD 0 []), parseUint (flds.getD 1 []), parseUint (flds.getD 8 []),
          parseUint (flds.getD 9 []) with
        | .ok rxBytes, .ok rxPackets, .ok txBytes, .ok txPackets =>
          .ok (lineNum, result ++
            [{ interface := iface
               rxBytes := rxBytes
               rxPackets := rxPackets
               txBytes := txBytes
               txPackets := txPackets }])
        | _, _, _, _ => .ok (lineNum, result)

/-- `ParseNetIO`, on the text that its reader yields. -/
def parseNetIO (r : GoString) : List NetIO × Option ProcError :=
  returned [] do
    let (_, result) ← scanLines (.scanning (text "/proc/net/dev")) netLine (0, []) r
    return result

section Rows

/-- The columns after the first colon of a line, none if there is no colon. -/
def netColumns (line : GoString) : List GoString :=
  match indexByte line colonByte with
  | none => []
  | some colon => fields (line.drop (colon + 1))

/-- The name before the first colon of a line. -/
def netName (line : GoString) : GoString :=
  trimSpace (line.take ((indexByte line colonByte).getD 0))

def netColumn (line : GoString) (i : ℕ) : GoString := (netColumns line).getD i []

/-- A line that gives an entry. -/
def NetRow (line : GoString) : Prop :=
  10 ≤ (netColumns line).length ∧ ∀ i ∈ [0, 1, 8, 9], IsUint64 (netColumn line i)

instance : DecidablePred NetRow := fun line =>
  inferInstanceAs (Decidable
    (10 ≤ (netColumns line).length ∧ ∀ i ∈ [0, 1, 8, 9], IsUint64 (netColumn line i)))

def netEntry (line : GoString) : NetIO :=
  { interface := netName line
    rxBytes := UInt64.ofNat (decimalValue (netColumn line 0))
    rxPackets := UInt64.ofNat (decimalValue (netColumn line 1))
    txBytes := UInt64.ofNat (decimalValue (netColumn line 8))
    txPackets := UInt64.ofNat (decimalValue (netColumn line 9)) }

theorem netLine_of_netRow {line : GoString} (isRow : NetRow line) {lineNum : ℕ}
    (afterHeader : 2 ≤ lineNum) (result : List NetIO) :
    netLine (lineNum, result) line = .ok (lineNum + 1, result ++ [netEntry line]) := by
  rcases isRow with ⟨long, counters⟩
  have rxBytes := parseUint_of_isUint64 (counters 0 (by simp))
  have rxPackets := parseUint_of_isUint64 (counters 1 (by simp))
  have txBytes := parseUint_of_isUint64 (counters 8 (by simp))
  have txPackets := parseUint_of_isUint64 (counters 9 (by simp))
  have notHeader : ¬lineNum + 1 ≤ 2 := by omega
  simp only [netEntry, netName]
  simp only [netColumn, netColumns] at long rxBytes rxPackets txBytes txPackets ⊢
  cases found : indexByte line colonByte with
  | none => simp [found] at long
  | some colon =>
      simp only [found] at long rxBytes rxPackets txBytes txPackets ⊢
      simp only [netLine, if_neg notHeader, found, if_neg long.not_gt, rxBytes, rxPackets, txBytes,
        txPackets]
      rfl

theorem netLine_of_not_netRow {line : GoString} (notRow : ¬NetRow line) (lineNum : ℕ)
    (result : List NetIO) : netLine (lineNum, result) line = .ok (lineNum + 1, result) := by
  simp only [netLine]
  split
  · rfl
  · cases found : indexByte line colonByte with
    | none => rfl
    | some colon =>
        simp only
        split
        · rfl
        · rename_i long
          split
          · rename_i rxBytes rxPackets txBytes txPackets isRxBytes isRxPackets isTxBytes
              isTxPackets
            exfalso
            apply notRow
            simp only [NetRow, netColumn, netColumns, found]
            refine ⟨not_lt.mp long, ?_⟩
            intro i isCounter
            simp only [List.mem_cons, List.not_mem_nil, or_false] at isCounter
            rcases isCounter with rfl | rfl | rfl | rfl
            · exact (parseUint_eq_ok_iff.mp isRxBytes).1
            · exact (parseUint_eq_ok_iff.mp isRxPackets).1
            · exact (parseUint_eq_ok_iff.mp isTxBytes).1
            · exact (parseUint_eq_ok_iff.mp isTxPackets).1
          · rfl

theorem foldlM_netLine (rows : List GoString) {lineNum : ℕ} (afterHeader : 2 ≤ lineNum)
    (result : List NetIO) :
    rows.foldlM netLine (lineNum, result) =
      .ok (lineNum + rows.length, result ++ (rows.filter (NetRow ·)).map netEntry) := by
  induction rows generalizing lineNum result with
  | nil => simp [pure, Except.pure]
  | cons row rows ih =>
      have later := ih (Nat.le_succ_of_le afterHeader)
      rw [List.foldlM_cons, List.length_cons, Nat.add_comm rows.length, ← Nat.add_assoc]
      by_cases isRow : NetRow row
      · rw [netLine_of_netRow isRow afterHeader]
        simp [bind, Except.bind, later, isRow]
      · rw [netLine_of_not_netRow isRow]
        simp [bind, Except.bind, later, isRow]

/-- If all lines fit, the reading succeeds and gives the entries of the rows after the header. -/
theorem parseNetIO_eq {r : GoString} (fits : LinesFit r) :
    parseNetIO r = ((((lines r).drop 2).filter (NetRow ·)).map netEntry, none) := by
  have loop : ∃ lineNum, (lines r).foldlM netLine (0, []) =
      .ok (lineNum, (((lines r).drop 2).filter (NetRow ·)).map netEntry) := by
    match lines r with
    | [] => exact ⟨0, rfl⟩
    | [first] => exact ⟨1, rfl⟩
    | first :: second :: rows => exact ⟨_, foldlM_netLine rows le_rfl []⟩
  rcases loop with ⟨lineNum, isResult⟩
  rw [Stats.parseNetIO, returned_eq_none_iff, scanLines_eq_ok_iff.mpr ⟨fits, isResult⟩]
  rfl

theorem exists_parseNetIO_eq_error {r : GoString} (long : ¬LinesFit r) :
    ∃ err, parseNetIO r = ([], some err) := by
  apply exists_returned_eq_error
  intro entries accepted
  rw [returned_eq_none_iff] at accepted
  cases scanned : scanLines (.scanning (text "/proc/net/dev")) netLine (0, []) r with
  | error err =>
      rw [scanned] at accepted
      exact absurd accepted (by simp [bind, Except.bind])
  | ok state => exact long (scanLines_eq_ok_iff.mp scanned).1

theorem exists_netLine_eq_ok (state : ℕ × List NetIO) (line : GoString) :
    ∃ next, netLine state line = .ok next := by
  rcases state with ⟨lineNum, result⟩
  by_cases isRow : NetRow line
  · by_cases isHeader : lineNum + 1 ≤ 2
    · exact ⟨_, if_pos isHeader⟩
    · exact ⟨_, netLine_of_netRow isRow (by omega) result⟩
  · exact ⟨_, netLine_of_not_netRow isRow lineNum result⟩

/-- The names of the interfaces contain what the text contains. -/
theorem mem_of_mem_interface {r : GoString} {entries : List NetIO}
    (accepted : parseNetIO r = (entries, none)) {entry : NetIO} (present : entry ∈ entries)
    {c : UInt8} (inName : c ∈ entry.interface) : c ∈ r := by
  by_cases fits : LinesFit r
  · have whole := (parseNetIO_eq fits).symm.trans accepted
    rw [← (Prod.mk.inj whole).1] at present
    rcases List.mem_map.mp present with ⟨line, isRow, rfl⟩
    apply mem_of_mem_lines (List.mem_of_mem_drop (List.mem_of_mem_filter isRow))
    exact List.mem_of_mem_take ((spaces.trim_infix _).subset inName)
  · rcases exists_parseNetIO_eq_error fits with ⟨err, rejected⟩
    rw [rejected] at accepted
    cases accepted

/-- Every error of the reading names the file. -/
theorem names_of_parseNetIO {r : GoString} {err : ProcError}
    (rejected : (Stats.parseNetIO r).2 = some err) : err.Names (text "/proc/net/dev") := by
  have failed : scanLines (.scanning (text "/proc/net/dev")) netLine (0, []) r = .error err :=
    eq_error_of_returned_bind Prod.snd rejected
  apply of_scanLines_eq_error _ _ failed
  · exact names_scanning _
  · intro state line err failed
    rcases exists_netLine_eq_ok state line with ⟨next, accepted⟩
    rw [accepted] at failed
    exact absurd failed (by simp)

end Rows

section Columns

variable {before : GoString}

theorem netColumns_of_notMem {line : GoString} (absent : colonByte ∉ line) :
    netColumns line = [] := by
  rw [netColumns, indexByte_of_notMem absent]

theorem netColumns_append_cons (absent : colonByte ∉ before) (rest : GoString) :
    netColumns (before ++ colonByte :: rest) = fields rest := by
  simp only [netColumns, indexByte_append_cons absent, ← List.drop_drop, List.drop_left,
    List.drop_one, List.tail_cons]

theorem netName_append_cons (absent : colonByte ∉ before) (rest : GoString) :
    netName (before ++ colonByte :: rest) = trimSpace before := by
  rw [netName, indexByte_append_cons absent, Option.getD_some, List.take_left]

theorem NetRow.colon_mem {line : GoString} (isRow : NetRow line) : colonByte ∈ line := by
  by_contra absent
  have long := isRow.1
  rw [netColumns_of_notMem absent] at long
  exact absurd long (by decide)

theorem netColumns_dropCR (line : GoString) : netColumns (dropCR line) = netColumns line := by
  by_cases present : colonByte ∈ line
  · rcases List.eq_append_cons_of_mem present with ⟨before, rest, rfl, absent⟩
    rw [dropCR_append_cons before (by decide), netColumns_append_cons absent,
      netColumns_append_cons absent, fields_dropCR]
  · have absent := mt ((dropCR_isPrefix line).subset (a := colonByte)) present
    rw [netColumns_of_notMem absent, netColumns_of_notMem present]

theorem netColumn_dropCR (line : GoString) (i : ℕ) :
    netColumn (dropCR line) i = netColumn line i := by
  rw [netColumn, netColumns_dropCR, netColumn]

theorem netName_dropCR {line : GoString} (present : colonByte ∈ line) :
    netName (dropCR line) = netName line := by
  rcases List.eq_append_cons_of_mem present with ⟨before, rest, rfl, absent⟩
  rw [dropCR_append_cons before (by decide), netName_append_cons absent,
    netName_append_cons absent]

theorem netRow_dropCR (line : GoString) : NetRow (dropCR line) ↔ NetRow line := by
  simp only [NetRow, netColumns_dropCR, netColumn_dropCR]

theorem netEntry_dropCR {line : GoString} (isRow : NetRow line) :
    netEntry (dropCR line) = netEntry line := by
  simp only [netEntry, netColumn_dropCR, netName_dropCR isRow.colon_mem]

end Columns

section Printing

/-- The counters of an entry, each with its column. -/
def NetIO.counters (entry : NetIO) : List (ℕ × UInt64) :=
  [(0, entry.rxBytes), (1, entry.rxPackets), (8, entry.txBytes), (9, entry.txPackets)]

/-- An interface as `/proc/net/dev` shows it: white space and the name, a colon, and at least ten
columns with white space before each of them, which the first one may lack, and after the last. -/
structure NetRecord where
  entry : NetIO
  leading : GoString
  gaps : List GoString
  columns : List GoString
  trailing : GoString
  isWord : spaces.IsWord entry.interface
  noColon : colonByte ∉ entry.interface
  blankLeading : spaces.Blank leading
  blankTrailing : spaces.Blank trailing
  blankGaps : ∀ gap ∈ gaps, spaces.Blank gap
  separated : ∀ gap ∈ gaps.tail, gap ≠ []
  paired : gaps.length = columns.length
  long : 10 ≤ columns.length
  areWords : ∀ column ∈ columns, spaces.IsWord column
  shown : ∀ counter ∈ entry.counters, IsUint64 (columns.getD counter.1 []) ∧
    decimalValue (columns.getD counter.1 []) = counter.2.toNat

namespace NetRecord

variable (record : NetRecord)

def shownColumns : GoString :=
  (record.gaps.zip record.columns).flatMap fun column => column.1 ++ column.2

def print : GoString :=
  (record.leading ++ record.entry.interface) ++
    colonByte :: (record.shownColumns ++ record.trailing)

theorem colonByte_notMem : colonByte ∉ record.leading ++ record.entry.interface := by
  intro present
  rcases List.mem_append.mp present with leading | name
  · have clean : ∀ sep ∈ spaces.list, colonByte ∉ sep := by decide +kernel
    rcases record.blankLeading.exists_mem leading with ⟨sep, isSep, inside⟩
    exact clean sep isSep inside
  · exact record.noColon name

theorem fields_shownColumns : fields record.shownColumns = record.columns := by
  rcases record with
    ⟨_, _, gaps, columns, _, _, _, _, _, blankGaps, separated, paired, _, areWords, _⟩
  rw [shownColumns]
  match gaps, columns with
  | [], [] => rfl
  | [], _ :: _ | _ :: _, [] => simp at paired
  | gap :: gaps, column :: columns =>
      have isColumn := areWords column (by simp)
      have spaced : ∀ entry ∈ gaps.zip columns, spaces.Blank entry.1 ∧ entry.1 ≠ [] := by
        intro entry present
        have isGap := (List.of_mem_zip present).1
        exact ⟨blankGaps _ (by simp [isGap]), separated _ isGap⟩
      have words : ∀ entry ∈ gaps.zip columns, spaces.IsWord entry.2 := by
        intro entry present
        exact areWords _ (by simp [(List.of_mem_zip present).2])
      have short : columns.length ≤ gaps.length := by
        simp only [List.length_cons, Nat.succ.injEq] at paired
        exact paired.ge
      simp only [fields, List.zip_cons_cons, List.flatMap_cons, List.append_assoc]
      rw [Words.Separators.words_blank_append (blankGaps gap (by simp)),
        Words.Separators.words_append_flatMap column spaced words, isColumn.words_eq,
        List.map_snd_zip short]
      rfl

theorem netColumns_print : netColumns record.print = record.columns := by
  rw [print, netColumns_append_cons record.colonByte_notMem, fields,
    Words.Separators.words_append_trailing _ record.blankTrailing]
  exact record.fields_shownColumns

theorem netName_print : netName record.print = record.entry.interface := by
  rw [print, netName_append_cons record.colonByte_notMem]
  exact Words.Separators.trim_blank_append record.blankLeading record.isWord

theorem netRow_print : NetRow record.print := by
  simp only [NetRow, netColumn, record.netColumns_print]
  refine ⟨record.long, ?_⟩
  intro i isCounter
  have counter : ∃ v, (i, v) ∈ record.entry.counters := by
    simp only [List.mem_cons, List.not_mem_nil, or_false] at isCounter
    rcases isCounter with rfl | rfl | rfl | rfl <;> simp [Stats.NetIO.counters]
  rcases counter with ⟨v, present⟩
  exact (record.shown _ present).1

theorem netEntry_print : netEntry record.print = record.entry := by
  have value : ∀ counter ∈ record.entry.counters,
      UInt64.ofNat (decimalValue (record.columns.getD counter.1 [])) = counter.2 := by
    intro counter present
    rw [(record.shown counter present).2, UInt64.ofNat_toNat]
  simp only [Stats.NetIO.counters, List.mem_cons, List.not_mem_nil, or_false, forall_eq_or_imp,
    forall_eq] at value
  simp only [netEntry, netColumn, record.netColumns_print, record.netName_print, value]

end NetRecord

/-- A line that the reading skips. -/
inductive Malformed (line : GoString) : Prop where
  | noColon (absent : colonByte ∉ line)
  | fewColumns (few : (netColumns line).length < 10)
  | badColumn (i : ℕ) (used : i ∈ [0, 1, 8, 9]) (notUint64 : ¬IsUint64 (netColumn line i))

theorem malformed_iff {line : GoString} : Malformed line ↔ ¬NetRow line := by
  constructor
  · intro malformed isRow
    cases malformed with
    | noColon absent => exact absent isRow.colon_mem
    | fewColumns few => exact isRow.1.not_gt few
    | badColumn i used notUint64 => exact notUint64 (isRow.2 i used)
  · intro notRow
    rw [NetRow, not_and_or, not_le, not_forall] at notRow
    rcases notRow with few | ⟨i, bad⟩
    · exact .fewColumns few
    · rw [Classical.not_imp] at bad
      exact .badColumn i bad.1 bad.2

/-- A line after the header. -/
inductive NetItem where
  | interface (record : NetRecord)
  | malformed (line : GoString) (isMalformed : Malformed line)

namespace NetItem

def print : NetItem → GoString
  | interface record => record.print
  | malformed line _ => line

def entry? : NetItem → Option NetIO
  | interface record => some record.entry
  | malformed _ _ => none

end NetItem

theorem map_netEntry_items (items : List NetItem) :
    (((items.map NetItem.print).map dropCR).filter (NetRow ·)).map netEntry =
      items.filterMap NetItem.entry? := by
  rw [List.map_map]
  apply map_filter_printed NetRow netEntry
  · intro item entry isEntry
    cases item with
    | interface record =>
        cases isEntry
        have isRow := record.netRow_print
        exact ⟨(netRow_dropCR record.print).mpr isRow,
          (netEntry_dropCR isRow).trans record.netEntry_print⟩
    | malformed line isMalformed => exact absurd isEntry (by simp [NetItem.entry?])
  · intro item none
    cases item with
    | interface record => exact absurd none (by simp [NetItem.entry?])
    | malformed line isMalformed =>
        exact mt (netRow_dropCR line).mp (malformed_iff.mp isMalformed)

/-- The interfaces of `/proc/net/dev` are read back, whatever the two header lines are and whatever
malformed lines stand among them. -/
theorem parseNetIO_unlines {first second : GoString} (items : List NetItem)
    (single : ∀ line ∈ first :: second :: items.map NetItem.print, newline ∉ line)
    (fits : ∀ line ∈ first :: second :: items.map NetItem.print, Fits line) :
    parseNetIO (unlines (first :: second :: items.map NetItem.print)) =
      (items.filterMap NetItem.entry?, none) := by
  rw [parseNetIO_eq (linesFit_unlines single fits), lines_unlines single, List.map_cons,
    List.map_cons, ← map_netEntry_items]
  rfl

/-- The loopback interface, directly after its colon, between a line without a colon and a line
that is cut off. -/
theorem parseNetIO_unlines_lo :
    ∃ record : NetRecord, record.entry =
        { interface := text "lo", rxBytes := 0, rxPackets := 1, txBytes := 8, txPackets := 9 } ∧
      record.print = text "  lo:0 1 2 3 4 5 6 7 8 9" ∧
      parseNetIO (unlines [text "Inter-|", text " face |", text "none", record.print,
        text "eth0: 1 2"]) = ([record.entry], none) := by
  let record : NetRecord :=
    { entry :=
        { interface := text "lo", rxBytes := 0, rxPackets := 1, txBytes := 8, txPackets := 9 }
      leading := text "  "
      gaps := [] :: List.replicate 9 (text " ")
      columns := (List.range 10).map formatDecimal
      trailing := []
      isWord := ⟨by decide, by decide +kernel⟩
      noColon := by decide
      blankLeading := ⟨[[0x20], [0x20]], by decide +kernel, rfl⟩
      blankTrailing := ⟨[], by simp, rfl⟩
      blankGaps := by
        intro gap present
        rcases List.mem_cons.mp present with rfl | isSpace
        · exact ⟨[], by simp, rfl⟩
        · rw [List.eq_of_mem_replicate isSpace]
          exact ⟨[[0x20]], by decide +kernel, rfl⟩
      separated := by
        intro gap present
        rw [List.eq_of_mem_replicate present]
        decide
      paired := by decide
      long := by decide
      areWords := by
        intro column present
        have numbers : ∀ column ∈ (List.range 10).map formatDecimal, IsUint64 column := by
          decide +kernel
        exact isWord_of_isUint64 (numbers column present)
      shown := by decide +kernel }
  have few : (netColumns (text "eth0: 1 2")).length < 10 := by decide +kernel
  refine ⟨record, rfl, by decide +kernel, ?_⟩
  apply parseNetIO_unlines
    [.malformed (text "none") (.noColon (by decide)), .interface record,
      .malformed (text "eth0: 1 2") (.fewColumns few)]
  · intro line present
    simp only [List.map_cons, List.map_nil, NetItem.print, List.mem_cons, List.not_mem_nil,
      or_false] at present
    rcases present with rfl | rfl | rfl | rfl | rfl <;> decide +kernel
  · intro line present
    simp only [List.map_cons, List.map_nil, NetItem.print, List.mem_cons, List.not_mem_nil,
      or_false] at present
    rcases present with rfl | rfl | rfl | rfl | rfl <;> decide +kernel

end Printing

end Sysmon.Stats
