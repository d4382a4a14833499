import Sysmon.Stats.Proc

/-!
# Reading `/proc/diskstats`

This file embeds `ParseDiskIO` and the filter `isWholeDisk` that it applies to
the names of devices. A row with at least 14 fields gives an entry if its
device passes the filter and its four counters are numbers; all other rows are
skipped, and none of them ends the reading.

The filter knows the names of some drivers and lets all other names pass. For
the whole disks of `sd`, `vd`, `xvd` and `nvme` and their partitions it is
right; partitions of other drivers pass it along with their disks.
-/

namespace Sysmon.Stats

open Sysmon.Go

structure DiskIO where
  device : GoString
  readSectors : UInt64
  writeSectors : UInt64
  readOps : UInt64
  writeOps : UInt64
deriving DecidableEq

/-- The prefixes of virtual devices. -/
def virtualPrefixes : List GoString := [text "loop", text "ram", text "dm-", text "sr"]

/-- The prefixes of disks whose names end in a letter. -/
def letterPrefixes : List GoString := [text "sd", text "vd", text "xvd"]

/-- `isWholeDisk`. A name with one of the prefixes of the third case has a last byte. -/
def isWholeDisk (name : GoString) : Bool :=
  if virtualPrefixes.any (hasPrefix name) then false
  else if hasPrefix name (text "nvme") then !contains name (text "p")
  else if letterPrefixes.any (hasPrefix name) then
    let last := name.getLastD 0
    last < 48 || last > 57
  else true

/-- The body of the loop of `ParseDiskIO`. -/
def diskLine (result : List DiskIO) (line : GoString) : Except ProcError (List DiskIO) :=
  let flds := fields line
  if flds.length < 14 then .ok result
  else
    let name := flds.getD 2 []
    if !isWholeDisk name then .ok result
    else
      match parseUint (flds.getD 3 []), parseUint (flds.getD 5 []), parseUint (flds.getD 7 []),
        parseUint (flds.getD 9 []) with
      | .ok readOps, .ok readSectors, .ok writeOps, .ok writeSectors =>
        .ok (result ++
          [{ device := name
             readSectors := readSectors
             writeSectors := writeSectors
             readOps := readOps
             writeOps := writeOps }])
      | _, _, _, _ => .ok result

/-- `ParseDiskIO`, on the text that its reader yields. -/
def parseDiskIO (r : GoString) : List DiskIO × Option ProcError :=
  returned [] (scanLines (.scanning (text "/proc/diskstats")) diskLine [] r)

section Rows

/-- A field of a row, counted from zero. -/
def diskField (row : GoString) (i : ℕ) : GoString := (fields row).getD i []

def deviceName (row : GoString) : GoString := diskField row 2

/-- A row has at least 14 fields, and its four counters are numbers below `2 ^ 64`. -/
def WellFormedRow (row : GoString) : Prop :=
  14 ≤ (fields row).length ∧ ∀ i ∈ [3, 5, 7, 9], IsUint64 (diskField row i)

instance : DecidablePred WellFormedRow := fun row =>
  inferInstanceAs (Decidable
    (14 ≤ (fields row).length ∧ ∀ i ∈ [3, 5, 7, 9], IsUint64 (diskField row i)))

def diskEntry (row : GoString) : DiskIO :=
  { device := deviceName row
    readSectors := UInt64.ofNat (decimalValue (diskField row 5))
    writeSectors := UInt64.ofNat (decimalValue (diskField row 9))
    readOps := UInt64.ofNat (decimalValue (diskField row 3))
    writeOps := UInt64.ofNat (decimalValue (diskField row 7)) }

/-- A row that gives an entry. -/
def Passes (row : GoString) : Prop := WellFormedRow row ∧ isWholeDisk (deviceName row)

instance : DecidablePred Passes := fun row =>
  inferInstanceAs (Decidable (WellFormedRow row ∧ isWholeDisk (deviceName row) = true))

theorem diskLine_of_passes {row : GoString} (passes : Passes row) (result : List DiskIO) :
    diskLine result row = .ok (result ++ [diskEntry row]) := by
  rcases passes with ⟨⟨long, counters⟩, whole⟩
  have readOps := parseUint_of_isUint64 (counters 3 (by simp))
  have readSectors := parseUint_of_isUint64 (counters 5 (by simp))
  have writeOps := parseUint_of_isUint64 (counters 7 (by simp))
  have writeSectors := parseUint_of_isUint64 (counters 9 (by simp))
  simp only [diskField] at readOps readSectors writeOps writeSectors
  simp only [deviceName, diskField] at whole
  simp only [diskLine, if_neg long.not_gt, whole, readOps, readSectors, writeOps, writeSectors]
  rfl

theorem diskLine_of_not_passes {row : GoString} (dropped : ¬Passes row) (result : List DiskIO) :
    diskLine result row = .ok result := by
  simp only [diskLine]
  split
  · rfl
  · rename_i long
    split
    · rfl
    · rename_i whole
      split
      · rename_i readOps readSectors writeOps writeSectors isReadOps isReadSectors isWriteOps
          isWriteSectors
        exfalso
        apply dropped
        refine ⟨⟨not_lt.mp long, ?_⟩, by simpa [deviceName, diskField] using whole⟩
        intro i isCounter
        simp only [List.mem_cons, List.not_mem_nil, or_false] at isCounter
        rcases isCounter with rfl | rfl | rfl | rfl
        · exact (parseUint_eq_ok_iff.mp isReadOps).1
        · exact (parseUint_eq_ok_iff.mp isReadSectors).1
        · exact (parseUint_eq_ok_iff.mp isWriteOps).1
        · exact (parseUint_eq_ok_iff.mp isWriteSectors).1
      · rfl

/-- If all lines fit, the reading succeeds and gives the entries of the rows that pass. -/
theorem parseDiskIO_eq {r : GoString} (fits : LinesFit r) :
    parseDiskIO r = (((lines r).filter (Passes ·)).map diskEntry, none) := by
  rw [Stats.parseDiskIO, returned_eq_none_iff, scanLines_eq_ok_iff]
  refine ⟨fits, ?_⟩
  apply foldlM_append Passes diskEntry
  · intro row _ passes
    exact diskLine_of_passes passes
  · intro row _ dropped
    exact diskLine_of_not_passes dropped

theorem exists_parseDiskIO_eq_error {r : GoString} (long : ¬LinesFit r) :
    ∃ err, parseDiskIO r = ([], some err) := by
  apply exists_returned_eq_error
  intro entries accepted
  rw [returned_eq_none_iff, scanLines_eq_ok_iff] at accepted
  exact long accepted.1

end Rows

section Names

def endsInDigit (name : GoString) : Bool := name.getLast?.any isDigit

/-- A non-empty string of digits. -/
def Digits (s : GoString) : Prop := s ≠ [] ∧ ∀ c ∈ s, isDigit c

theorem digits_formatDecimal (n : ℕ) : Digits (formatDecimal n) :=
  ⟨formatDecimal_ne_nil n, fun _ present => isDigit_of_mem_formatDecimal present⟩

theorem endsInDigit_append {digits : GoString} (isNumber : Digits digits) (name : GoString) :
    endsInDigit (name ++ digits) := by
  have isLast := List.getLast?_eq_some_getLast isNumber.1
  rw [endsInDigit, List.getLast?_append_of_ne_nil _ isNumber.1, isLast]
  exact isNumber.2 _ (List.getLast_mem isNumber.1)

theorem not_isPrefix_of_isPrefix {pre other name : GoString} (isPrefix : pre <+: name)
    (apart : ¬pre <+: other ∧ ¬other <+: pre) : ¬other <+: name := by
  intro isOther
  rcases List.prefix_or_prefix_of_prefix isPrefix isOther with shorter | longer
  · exact apart.1 shorter
  · exact apart.2 longer

theorem any_hasPrefix_iff {prefixes : List GoString} {name : GoString} :
    prefixes.any (hasPrefix name) ↔ ∃ pre ∈ prefixes, pre <+: name := by
  simp [hasPrefix]

theorem isWholeDisk_of_virtual {name : GoString}
    (isVirtual : ∃ pre ∈ virtualPrefixes, pre <+: name) :
    isWholeDisk name = false := by
  rw [isWholeDisk, if_pos (any_hasPrefix_iff.mpr isVirtual)]

theorem isWholeDisk_of_nvme {name : GoString} (isNvme : text "nvme" <+: name) :
    isWholeDisk name = !contains name (text "p") := by
  have notVirtual : ¬∃ pre ∈ virtualPrefixes, pre <+: name := by
    rintro ⟨pre, isVirtual, isPrefix⟩
    have apart : ∀ pre ∈ virtualPrefixes, ¬text "nvme" <+: pre ∧ ¬pre <+: text "nvme" := by
      decide +kernel
    exact not_isPrefix_of_isPrefix isNvme (apart pre isVirtual) isPrefix
  rw [isWholeDisk, if_neg (mt any_hasPrefix_iff.mp notVirtual), if_pos (by simpa [hasPrefix])]

theorem isWholeDisk_of_letter {name : GoString} (isLetter : ∃ pre ∈ letterPrefixes, pre <+: name) :
    isWholeDisk name = !endsInDigit name := by
  rcases isLetter with ⟨pre, isFamily, isPrefix⟩
  have apart : ∀ pre ∈ letterPrefixes, ∀ other ∈ text "nvme" :: virtualPrefixes,
      ¬pre <+: other ∧ ¬other <+: pre := by
    decide +kernel
  have notOther : ∀ other ∈ text "nvme" :: virtualPrefixes, ¬other <+: name := by
    intro other isOther
    exact not_isPrefix_of_isPrefix isPrefix (apart pre isFamily other isOther)
  have notVirtual : ¬∃ pre ∈ virtualPrefixes, pre <+: name := by
    rintro ⟨other, isVirtual, isOther⟩
    exact notOther other (List.mem_cons_of_mem _ isVirtual) isOther
  have notNvme : ¬hasPrefix name (text "nvme") = true := by
    simpa [hasPrefix] using notOther (text "nvme") (by simp)
  rw [isWholeDisk, if_neg (mt any_hasPrefix_iff.mp notVirtual), if_neg notNvme,
    if_pos (any_hasPrefix_iff.mpr ⟨pre, isFamily, isPrefix⟩)]
  have last : endsInDigit name = isDigit (name.getLastD 0) := by
    rw [endsInDigit, List.getLastD_eq_getLast?]
    cases name.getLast? <;> rfl
  simp only [last, isDigit, Bool.not_and, gt_iff_lt, ← decide_not, UInt8.not_le]

theorem isWholeDisk_of_other {name : GoString}
    (isOther : ¬∃ pre ∈ virtualPrefixes ++ letterPrefixes, pre <+: name)
    (notNvme : ¬text "nvme" <+: name) : isWholeDisk name = true := by
  simp only [List.mem_append, not_exists, not_and] at isOther
  have notVirtual : ¬∃ pre ∈ virtualPrefixes, pre <+: name := by
    rintro ⟨pre, isVirtual, isPrefix⟩
    exact isOther pre (Or.inl isVirtual) isPrefix
  have notLetter : ¬∃ pre ∈ letterPrefixes, pre <+: name := by
    rintro ⟨pre, isLetter, isPrefix⟩
    exact isOther pre (Or.inr isLetter) isPrefix
  rw [isWholeDisk, if_neg (mt any_hasPrefix_iff.mp notVirtual), if_neg (by simpa [hasPrefix]),
    if_neg (mt any_hasPrefix_iff.mp notLetter)]

theorem contains_p_iff {name : GoString} : contains name (text "p") ↔ 112 ∈ name := by
  have single : text "p" = [112] := by decide
  rw [contains, decide_eq_true_eq, single, List.singleton_infix_iff]

end Names

section Partitions

/-- The kernel's names of partitions: the number of a partition follows the name of its disk, after
a `p` if that name ends in a digit. -/
inductive IsPartition (disk : GoString) : GoString → Prop where
  | numbered (n : ℕ) (positive : 1 ≤ n) (nonempty : disk ≠ []) (noDigit : ¬endsInDigit disk) :
      IsPartition disk (disk ++ formatDecimal n)
  | separated (n : ℕ) (positive : 1 ≤ n) (digit : endsInDigit disk) :
      IsPartition disk (disk ++ (text "p" ++ formatDecimal n))

/-- The names of disks whose partitions the filter knows. -/
def Covered (disk : GoString) : Prop :=
  (∃ pre ∈ virtualPrefixes ++ letterPrefixes, pre <+: disk) ∨
    (text "nvme" <+: disk ∧ (endsInDigit disk ∨ contains disk (text "p")))

theorem IsPartition.part_endsInDigit {disk part : GoString} (isPartition : IsPartition disk part) :
    endsInDigit part := by
  cases isPartition with
  | numbered n => exact endsInDigit_append (digits_formatDecimal n) disk
  | separated n =>
      rw [← List.append_assoc]
      exact endsInDigit_append (digits_formatDecimal n) _

/-- A partition has the prefixes of its disk. -/
theorem IsPartition.prefix_iff {disk part pre : GoString} (isPartition : IsPartition disk part)
    (noDigits : ∀ c ∈ pre, ¬isDigit c) : pre <+: part ↔ pre <+: disk := by
  have longer : ∀ suffix, pre <+: disk ++ suffix →
      (endsInDigit disk ∨ ∀ c ∈ suffix.head?, isDigit c) → disk ≠ [] → pre <+: disk := by
    intro suffix isPrefix ends nonempty
    rcases List.prefix_or_prefix_of_prefix isPrefix (List.prefix_append disk suffix) with
      within | ⟨beyond, rfl⟩
    · exact within
    · cases beyond with
      | nil => simp
      | cons c beyond =>
          exfalso
          rcases ends with ends | digit
          · rw [endsInDigit, List.getLast?_eq_some_getLast nonempty] at ends
            exact noDigits _ (List.mem_append_left _ (List.getLast_mem nonempty)) ends
          · rcases (List.prefix_append_right_inj disk).mp isPrefix with ⟨tail, rfl⟩
            exact noDigits c (by simp) (digit c (by simp))
  constructor
  · intro isPrefix
    cases isPartition with
    | numbered n positive nonempty =>
        apply longer _ isPrefix _ nonempty
        right
        intro c isHead
        exact isDigit_of_mem_formatDecimal (List.mem_of_mem_head? isHead)
    | separated n positive digit =>
        apply longer _ isPrefix (Or.inl digit)
        rintro rfl
        exact absurd digit (by decide)
  · intro isPrefix
    cases isPartition with
    | numbered => exact isPrefix.trans (List.prefix_append _ _)
    | separated => exact isPrefix.trans (List.prefix_append _ _)

theorem IsPartition.isWholeDisk_eq_false_iff {disk part : GoString}
    (isPartition : IsPartition disk part) : isWholeDisk part = false ↔ Covered disk := by
  have noDigits : ∀ pre ∈ text "nvme" :: (virtualPrefixes ++ letterPrefixes),
      pre.all (fun c => !isDigit c) = true := by
    decide +kernel
  have same : ∀ pre ∈ text "nvme" :: (virtualPrefixes ++ letterPrefixes),
      (pre <+: part ↔ pre <+: disk) := by
    intro pre known
    apply isPartition.prefix_iff
    simpa using noDigits pre known
  by_cases known : ∃ pre ∈ virtualPrefixes ++ letterPrefixes, pre <+: disk
  · apply iff_of_true _ (Or.inl known)
    rcases known with ⟨pre, isKnown, isPrefix⟩
    have isPrefixPart := (same pre (List.mem_cons_of_mem _ isKnown)).mpr isPrefix
    rcases List.mem_append.mp isKnown with isVirtual | isLetter
    · exact isWholeDisk_of_virtual ⟨pre, isVirtual, isPrefixPart⟩
    · rw [isWholeDisk_of_letter ⟨pre, isLetter, isPrefixPart⟩, isPartition.part_endsInDigit]
      rfl
  · by_cases isNvme : text "nvme" <+: disk
    · rw [isWholeDisk_of_nvme ((same _ (by simp)).mpr isNvme), Covered, or_iff_right known,
        and_iff_right isNvme, Bool.not_eq_false', contains_p_iff, contains_p_iff]
      cases isPartition with
      | numbered n positive nonempty noDigit =>
          have notInNumber : 112 ∉ formatDecimal n := by
            intro present
            exact absurd (isDigit_of_mem_formatDecimal present) (by decide)
          simp [notInNumber, noDigit]
      | separated n positive digit =>
          have inSeparator : 112 ∈ text "p" := by decide
          apply iff_of_true _ (Or.inl digit)
          simp [inSeparator]
    · have other : ¬∃ pre ∈ virtualPrefixes ++ letterPrefixes, pre <+: part := by
        rintro ⟨pre, isKnown, isPrefix⟩
        exact known ⟨pre, isKnown, (same pre (List.mem_cons_of_mem _ isKnown)).mp isPrefix⟩
      have notNvme : ¬text "nvme" <+: part := mt (same _ (by simp)).mp isNvme
      rw [isWholeDisk_of_other other notNvme]
      apply iff_of_false (by simp)
      rintro (isKnown | ⟨isNvme', _⟩)
      · exact known isKnown
      · exact isNvme isNvme'

/-- A partition with a well-formed row gives no entry if and only if a line is too long, or the
filter knows the partitions of its disk. -/
theorem parseDiskIO_omits_partition_iff {r row disk : GoString} (present : row ∈ lines r)
    (wellFormed : WellFormedRow row) (isPartition : IsPartition disk (deviceName row)) :
    (∀ entry ∈ (Stats.parseDiskIO r).1, entry.device ≠ deviceName row) ↔
      ¬LinesFit r ∨ Covered disk := by
  rw [← isPartition.isWholeDisk_eq_false_iff]
  by_cases fits : LinesFit r
  · rw [parseDiskIO_eq fits, or_iff_right (not_not_intro fits)]
    constructor
    · intro omitted
      by_contra whole
      have passes : Passes row := ⟨wellFormed, by simpa using whole⟩
      apply omitted (diskEntry row) _ rfl
      exact List.mem_map_of_mem (by simpa using ⟨present, passes⟩)
    · rintro notWhole entry isEntry same
      rcases List.mem_map.mp isEntry with ⟨other, isOther, rfl⟩
      have passes : Passes other := by simpa using (List.mem_filter.mp isOther).2
      have whole := passes.2
      change deviceName other = deviceName row at same
      rw [same, notWhole] at whole
      exact absurd whole (by decide)
  · rcases exists_parseDiskIO_eq_error fits with ⟨err, rejected⟩
    rw [rejected]
    exact iff_of_true (by simp) (Or.inl fits)

/-- The partition of an SCSI disk gives no entry. -/
theorem parseDiskIO_omits_sda1 :
    ∃ r, r = text "8 0 sda 9 0 8 0 7 0 6 0 0 0 0\n8 1 sda1 9 0 8 0 7 0 6 0 0 0 0\n" ∧
      ∀ entry ∈ (Stats.parseDiskIO r).1, entry.device ≠ text "sda1" := by
  refine ⟨_, rfl, ?_⟩
  have name : deviceName (text "8 1 sda1 9 0 8 0 7 0 6 0 0 0 0") = text "sda1" := by
    decide +kernel
  have isPartition : IsPartition (text "sda")
      (deviceName (text "8 1 sda1 9 0 8 0 7 0 6 0 0 0 0")) := by
    have number : text "sda1" = text "sda" ++ formatDecimal 1 := by decide +kernel
    rw [name, number]
    exact .numbered 1 le_rfl (by decide) (by decide)
  rw [← name]
  apply (parseDiskIO_omits_partition_iff (by decide +kernel) (by decide +kernel) isPartition).mpr
  exact Or.inr (Or.inl ⟨text "sd", by decide +kernel, by decide +kernel⟩)

/-- The partition of an MMC disk is counted beside its disk. -/
theorem parseDiskIO_counts_mmcblk0p1 :
    ∃ r rowD rowP,
      r = text "179 0 mmcblk0 9 0 8 0 7 0 6 0 0 0 0\n179 1 mmcblk0p1 9 0 8 0 7 0 6 0 0 0 0\n" ∧
      rowD ∈ lines r ∧ rowP ∈ lines r ∧ WellFormedRow rowD ∧ WellFormedRow rowP ∧
      IsPartition (deviceName rowD) (deviceName rowP) ∧
      ∃ entry ∈ (Stats.parseDiskIO r).1, entry.device = deviceName rowP := by
  refine ⟨_, text "179 0 mmcblk0 9 0 8 0 7 0 6 0 0 0 0",
    text "179 1 mmcblk0p1 9 0 8 0 7 0 6 0 0 0 0", rfl, ?_, ?_, ?_, ?_, ?_, ?_⟩
  · decide +kernel
  · decide +kernel
  · decide +kernel
  · decide +kernel
  · have name : deviceName (text "179 1 mmcblk0p1 9 0 8 0 7 0 6 0 0 0 0") =
        deviceName (text "179 0 mmcblk0 9 0 8 0 7 0 6 0 0 0 0") ++
          (text "p" ++ formatDecimal 1) := by decide +kernel
    rw [name]
    exact .separated 1 le_rfl (by decide +kernel)
  · exact ⟨diskEntry (text "179 1 mmcblk0p1 9 0 8 0 7 0 6 0 0 0 0"), by decide +kernel, rfl⟩

end Partitions

section Families

def isLower (c : UInt8) : Bool := 97 ≤ c && c ≤ 122

/-- `sd`, `vd` or `xvd` followed by lowercase letters. -/
def LetterDisk (name : GoString) : Prop :=
  ∃ pre ∈ letterPrefixes, ∃ letters : GoString,
    letters ≠ [] ∧ (∀ c ∈ letters, isLower c) ∧ name = pre ++ letters

/-- `nvme<i>n<j>`. -/
def NvmeDisk (name : GoString) : Prop :=
  ∃ i j, Digits i ∧ Digits j ∧ name = text "nvme" ++ (i ++ (text "n" ++ j))

theorem letterDisk_iff {name : GoString} :
    LetterDisk name ↔ ∃ pre ∈ letterPrefixes, pre <+: name ∧ name.drop pre.length ≠ [] ∧
      (name.drop pre.length).all isLower := by
  constructor
  · rintro ⟨pre, isFamily, letters, nonempty, lower, rfl⟩
    refine ⟨pre, isFamily, List.prefix_append _ _, ?_⟩
    rw [List.drop_left]
    exact ⟨nonempty, List.all_eq_true.mpr lower⟩
  · rintro ⟨pre, isFamily, ⟨letters, rfl⟩, nonempty, lower⟩
    rw [List.drop_left] at nonempty lower
    exact ⟨pre, isFamily, letters, nonempty, List.all_eq_true.mp lower, rfl⟩

def afterNvme (name : GoString) : GoString := name.drop (text "nvme").length

theorem nvmeDisk_iff {name : GoString} :
    NvmeDisk name ↔ text "nvme" <+: name ∧ Digits ((afterNvme name).takeWhile isDigit) ∧
      text "n" <+: (afterNvme name).dropWhile isDigit ∧
      Digits (((afterNvme name).dropWhile isDigit).drop (text "n").length) := by
  constructor
  · rintro ⟨i, j, isI, isJ, rfl⟩
    have letter : text "n" = [110] ∧ isDigit 110 = false := by decide
    simp only [afterNvme, List.drop_left, List.takeWhile_append_of_pos isI.2,
      List.dropWhile_append_of_pos isI.2, letter.1, List.cons_append, List.nil_append,
      List.takeWhile_cons, List.dropWhile_cons, letter.2]
    refine ⟨List.prefix_append _ _, by simpa using isI, ?_, by simpa using isJ⟩
    exact List.prefix_append [110] j
  · rintro ⟨⟨suffix, rfl⟩, isI, ⟨j, isRest⟩, isJ⟩
    simp only [afterNvme, List.drop_left] at isI isRest isJ
    rw [← isRest, List.drop_left] at isJ
    refine ⟨suffix.takeWhile isDigit, j, isI, isJ, ?_⟩
    rw [isRest, List.takeWhile_append_dropWhile]

instance : DecidablePred Digits := fun s =>
  decidable_of_iff (s ≠ [] ∧ s.all isDigit) (by rw [Digits, List.all_eq_true])

instance : DecidablePred LetterDisk := fun _ => decidable_of_iff' _ letterDisk_iff

instance : DecidablePred NvmeDisk := fun _ => decidable_of_iff' _ nvmeDisk_iff

/-- A row for a whole disk. -/
def WholeDiskRow (row : GoString) : Prop :=
  WellFormedRow row ∧ (LetterDisk (deviceName row) ∨ NvmeDisk (deviceName row))

instance : DecidablePred WholeDiskRow := fun row =>
  inferInstanceAs (Decidable
    (WellFormedRow row ∧ (LetterDisk (deviceName row) ∨ NvmeDisk (deviceName row))))

/-- A partition of a disk of the documented families, or a virtual device. -/
inductive Filtered : GoString → Prop where
  | letterPartition (disk digits : GoString) (isDisk : LetterDisk disk) (isNumber : Digits digits) :
      Filtered (disk ++ digits)
  | nvmePartition (disk digits : GoString) (isDisk : NvmeDisk disk) (isNumber : Digits digits) :
      Filtered (disk ++ (text "p" ++ digits))
  | virtual (name pre : GoString) (isVirtual : pre ∈ virtualPrefixes) (isPrefix : pre <+: name) :
      Filtered name

theorem LetterDisk.isWholeDisk {name : GoString} (isDisk : LetterDisk name) :
    isWholeDisk name = true := by
  rcases isDisk with ⟨pre, isFamily, letters, nonempty, lower, rfl⟩
  have isLast := List.getLast?_eq_some_getLast nonempty
  have isLetter := lower _ (List.getLast_mem nonempty)
  have notDigit : isDigit (letters.getLast nonempty) = false := by
    simp only [isLower, isDigit, Bool.and_eq_true, decide_eq_true_eq, Bool.and_eq_false_iff,
      decide_eq_false_iff_not, UInt8.le_iff_toNat_le] at isLetter ⊢
    right
    intro small
    exact absurd (isLetter.1.trans small) (by decide)
  rw [isWholeDisk_of_letter ⟨pre, isFamily, List.prefix_append _ _⟩, endsInDigit,
    List.getLast?_append_of_ne_nil _ nonempty, isLast, Option.any_some, notDigit]
  rfl

theorem NvmeDisk.isWholeDisk {name : GoString} (isDisk : NvmeDisk name) :
    isWholeDisk name = true := by
  rcases isDisk with ⟨i, j, isI, isJ, rfl⟩
  have notInDigits : ∀ digits, Digits digits → 112 ∉ digits := by
    intro digits isNumber present
    exact absurd (isNumber.2 _ present) (by decide)
  have notInLetters : 112 ∉ text "nvme" ∧ 112 ∉ text "n" := by decide
  rw [isWholeDisk_of_nvme (List.prefix_append _ _), Bool.not_eq_true', ← Bool.not_eq_true,
    contains_p_iff]
  simp only [List.mem_append, notInLetters, notInDigits i isI, notInDigits j isJ, or_self,
    not_false_eq_true]

theorem Filtered.isWholeDisk {name : GoString} (filtered : Filtered name) :
    isWholeDisk name = false := by
  cases filtered with
  | letterPartition disk digits isDisk isNumber =>
      rcases isDisk with ⟨pre, isFamily, letters, _, _, rfl⟩
      have isPrefix : pre <+: pre ++ letters ++ digits := by
        rw [List.append_assoc]
        exact List.prefix_append _ _
      rw [isWholeDisk_of_letter ⟨pre, isFamily, isPrefix⟩, endsInDigit_append isNumber]
      rfl
  | nvmePartition disk digits isDisk isNumber =>
      rcases isDisk with ⟨i, j, _, _, rfl⟩
      have inSeparator : 112 ∈ text "p" := by decide
      have isPrefix : text "nvme" <+:
          text "nvme" ++ (i ++ (text "n" ++ j)) ++ (text "p" ++ digits) := by
        rw [List.append_assoc]
        exact List.prefix_append _ _
      rw [isWholeDisk_of_nvme isPrefix, Bool.not_eq_false', contains_p_iff]
      simp [inSeparator]
  | virtual _ pre isVirtual isPrefix => exact isWholeDisk_of_virtual ⟨pre, isVirtual, isPrefix⟩

/-- Of rows for disks of the documented families, their partitions and virtual devices, and of
malformed rows, exactly the rows for whole disks give entries. -/
theorem parseDiskIO_exact {r : GoString} (fits : LinesFit r)
    (documented : ∀ row ∈ lines r,
      WholeDiskRow row ∨ (WellFormedRow row ∧ Filtered (deviceName row)) ∨ ¬WellFormedRow row) :
    parseDiskIO r = (((lines r).filter (WholeDiskRow ·)).map diskEntry, none) := by
  have same : (lines r).filter (Passes ·) = (lines r).filter (WholeDiskRow ·) := by
    apply List.filter_congr
    intro row present
    rw [decide_eq_decide]
    constructor
    · rintro ⟨wellFormed, whole⟩
      rcases documented row present with isDisk | ⟨_, filtered⟩ | malformed
      · exact isDisk
      · rw [filtered.isWholeDisk] at whole
        exact absurd whole (by decide)
      · exact absurd wellFormed malformed
    · rintro ⟨wellFormed, isLetter | isNvme⟩
      · exact ⟨wellFormed, isLetter.isWholeDisk⟩
      · exact ⟨wellFormed, isNvme.isWholeDisk⟩
  rw [parseDiskIO_eq fits, same]

/-- An NVMe disk, its second partition and a line that is cut off. -/
theorem parseDiskIO_exact_nvme :
    parseDiskIO
        (text "259 0 nvme0n1 9 0 8 0 7 0 6 0 0 0 0\n259 2 nvme0n1p2 9 0 8 0 7 0 6 0 0 0 0\n8 0") =
      ([{ device := text "nvme0n1", readSectors := 8, writeSectors := 6, readOps := 9,
          writeOps := 7 }], none) := by
  have areLines : lines
      (text "259 0 nvme0n1 9 0 8 0 7 0 6 0 0 0 0\n259 2 nvme0n1p2 9 0 8 0 7 0 6 0 0 0 0\n8 0") =
        [text "259 0 nvme0n1 9 0 8 0 7 0 6 0 0 0 0", text "259 2 nvme0n1p2 9 0 8 0 7 0 6 0 0 0 0",
          text "8 0"] := by decide +kernel
  rw [parseDiskIO_exact (by decide +kernel), areLines]
  · decide +kernel
  · intro row present
    rw [areLines] at present
    simp only [List.mem_cons, List.not_mem_nil, or_false] at present
    rcases present with rfl | rfl | rfl
    · left
      decide +kernel
    · right
      left
      refine ⟨by decide +kernel, ?_⟩
      have name : deviceName (text "259 2 nvme0n1p2 9 0 8 0 7 0 6 0 0 0 0") =
          text "nvme0n1" ++ (text "p" ++ text "2") := by decide +kernel
      rw [name]
      exact .nvmePartition _ _ (by decide +kernel) (by decide +kernel)
    · right
      right
      decide +kernel

end Families

end Sysmon.Stats
