import Sysmon.Library.KeyedList
import Sysmon.Stats.Proc
import Sysmon.Stats.Usage

/-!
# Reading `/proc/meminfo`

This file embeds `ParseMemInfo`. The part of a line before its first colon
names the field that the line reports, if it is one of seven, and the rest of
the line has to be a number then. Of several lines for a field the last one
counts, and what stands on other lines has no influence.

Whether the available memory was reported is read off its value after the loop:
the approximation for kernels that do not report it also replaces a reported
zero.
-/

namespace Sysmon.Stats

open Sysmon.Go

/-- The fields that the parser writes through pointers. -/
inductive MemField where
  | totalKB
  | freeKB
  | availableKB
  | buffersKB
  | cachedKB
  | swapTotalKB
  | swapFreeKB
deriving DecidableEq

namespace MemInfo

/-- `MemInfo{}`. -/
def zero : MemInfo :=
  { totalKB := 0
    freeKB := 0
    availableKB := 0
    buffersKB := 0
    cachedKB := 0
    swapTotalKB := 0
    swapFreeKB := 0 }

def get (mi : MemInfo) : MemField → UInt64
  | .totalKB => mi.totalKB
  | .freeKB => mi.freeKB
  | .availableKB => mi.availableKB
  | .buffersKB => mi.buffersKB
  | .cachedKB => mi.cachedKB
  | .swapTotalKB => mi.swapTotalKB
  | .swapFreeKB => mi.swapFreeKB

def set (mi : MemInfo) (target : MemField) (v : UInt64) : MemInfo :=
  match target with
  | .totalKB => { mi with totalKB := v }
  | .freeKB => { mi with freeKB := v }
  | .availableKB => { mi with availableKB := v }
  | .buffersKB => { mi with buffersKB := v }
  | .cachedKB => { mi with cachedKB := v }
  | .swapTotalKB => { mi with swapTotalKB := v }
  | .swapFreeKB => { mi with swapFreeKB := v }

@[simp]
theorem get_zero (field : MemField) : zero.get field = 0 := by
  cases field <;> rfl

@[simp]
theorem get_set (mi : MemInfo) (target field : MemField) (v : UInt64) :
    (mi.set target v).get field = if target = field then v else mi.get field := by
  cases target <;> cases field <;> rfl

theorem ext_get {mi mi' : MemInfo} (same : ∀ field, mi.get field = mi'.get field) : mi = mi' := by
  cases mi
  cases mi'
  simp only [MemInfo.mk.injEq]
  exact ⟨same .totalKB, same .freeKB, same .availableKB, same .buffersKB, same .cachedKB,
    same .swapTotalKB, same .swapFreeKB⟩

end MemInfo

def targets : List (GoString × MemField) :=
  [(text "MemTotal", .totalKB),
    (text "MemFree", .freeKB),
    (text "MemAvailable", .availableKB),
    (text "Buffers", .buffersKB),
    (text "Cached", .cachedKB),
    (text "SwapTotal", .swapTotalKB),
    (text "SwapFree", .swapFreeKB)]

/-- `valuePart`: the text after the colon without white space and unit. -/
def valuePart (rest : GoString) : GoString :=
  let valuePart := trimSpace rest
  let valuePart := trimSuffix valuePart (text " kB")
  trimSpace valuePart

/-- The body of the loop of `ParseMemInfo`. -/
def memLine (mi : MemInfo) (line : GoString) : Except ProcError MemInfo :=
  match indexByte line colonByte with
  | none => .ok mi
  | some colon =>
    let key := line.take colon
    match targets.lookup key with
    | none => .ok mi
    | some target =>
      match parseUint (valuePart (line.drop (colon + 1))) with
      | .error err => .error (.parsingMeminfoLine line err)
      | .ok v => .ok (mi.set target v)

/-- The approximation for kernels without `MemAvailable`. -/
def MemInfo.withFallback (mi : MemInfo) : MemInfo :=
  if mi.availableKB = 0 then { mi with availableKB := mi.freeKB + mi.buffersKB + mi.cachedKB }
  else mi

/-- `ParseMemInfo`, on the text that its reader yields. -/
def parseMemInfo (r : GoString) : MemInfo × Option ProcError :=
  returned .zero do
    let mi ← scanLines (.scanning (text "/proc/meminfo")) memLine .zero r
    .ok mi.withFallback

section Lines

/-- The field that a line reports: the one whose key stands before the first colon. -/
def lineField (line : GoString) : Option MemField :=
  (indexByte line colonByte).bind fun colon => targets.lookup (line.take colon)

/-- The text that is read as the number of a line. -/
def lineValue (line : GoString) : GoString :=
  valuePart (line.drop ((indexByte line colonByte).getD 0 + 1))

def lineNumber (line : GoString) : ℕ := decimalValue (lineValue line)

def Reports (field : MemField) (line : GoString) : Prop := lineField line = some field

instance (field : MemField) : DecidablePred (Reports field) := fun line =>
  inferInstanceAs (Decidable (lineField line = some field))

def Recognised (line : GoString) : Prop := (lineField line).isSome

theorem Reports.recognised {field : MemField} {line : GoString} (reports : Reports field line) :
    Recognised line := by
  rw [Recognised, reports]
  rfl

instance : DecidablePred Recognised := fun line =>
  inferInstanceAs (Decidable ((lineField line).isSome = true))

theorem lookup_targets_iff {key : GoString} {field : MemField} :
    targets.lookup key = some field ↔ (key, field) ∈ targets := by
  have found : ∀ entry ∈ targets, targets.lookup entry.1 = some entry.2 := by decide +kernel
  constructor
  · intro isTarget
    rcases List.lookup_eq_some_iff.mp isTarget with ⟨before, after, split, _⟩
    rw [split]
    simp
  · exact found (key, field)

/-- What stands before the first colon is the key, and what stands behind it the value. -/
theorem reports_append_colon {key : GoString} (noColon : colonByte ∉ key) (value : GoString)
    (field : MemField) :
    (Reports field (key ++ text ":" ++ value) ↔ (key, field) ∈ targets) ∧
      lineValue (key ++ text ":" ++ value) = valuePart value := by
  have colon : text ":" = [colonByte] := by decide
  have isLine : key ++ text ":" ++ value = key ++ colonByte :: value := by
    rw [colon, List.append_assoc, List.singleton_append]
  have behind : (key ++ colonByte :: value).drop (key.length + 1) = value := by
    rw [← List.drop_drop, List.drop_left, List.drop_succ_cons, List.drop_zero]
  rw [isLine, Reports, lineField, lineValue, indexByte_append_cons noColon, Option.bind_some,
    List.take_left, lookup_targets_iff, Option.getD_some, behind]
  exact ⟨Iff.rfl, rfl⟩

theorem not_recognised_of_notMem {line : GoString} (noColon : colonByte ∉ line) :
    ¬Recognised line := by
  simp [Recognised, lineField, indexByte_of_notMem noColon]

/-- The number on the last line for a field, zero if there is no such line. -/
def lastNumber (field : MemField) (r : GoString) : ℕ :=
  ((History.last (Reports field) (lines r)).map lineNumber).getD 0

def update (mi : MemInfo) (line : GoString) : MemInfo :=
  match lineField line with
  | none => mi
  | some field => mi.set field (UInt64.ofNat (lineNumber line))

theorem memLine_of_lineField_eq_none {line : GoString} (ignored : lineField line = none)
    (mi : MemInfo) : memLine mi line = .ok mi := by
  rw [lineField] at ignored
  rw [memLine]
  cases found : indexByte line colonByte with
  | none => rfl
  | some colon =>
      rw [found, Option.bind_some] at ignored
      simp only [ignored]

theorem memLine_of_reports {field : MemField} {line : GoString} (reports : Reports field line)
    (mi : MemInfo) :
    memLine mi line =
      match parseUint (lineValue line) with
      | .error err => .error (.parsingMeminfoLine line err)
      | .ok v => .ok (mi.set field v) := by
  rw [Reports, lineField] at reports
  rw [memLine, lineValue]
  cases found : indexByte line colonByte with
  | none => simp [found] at reports
  | some colon =>
      rw [found, Option.bind_some] at reports
      simp only [reports, Option.getD_some]

theorem memLine_eq_update {line : GoString} (valid : Recognised line → IsUint64 (lineValue line))
    (mi : MemInfo) : memLine mi line = .ok (update mi line) := by
  rw [update]
  cases reported : lineField line with
  | none => exact memLine_of_lineField_eq_none reported mi
  | some field =>
      have isUint64 := valid (Reports.recognised reported)
      rw [memLine_of_reports reported, parseUint_of_isUint64 isUint64]
      rfl

theorem exists_memLine_eq_error {line : GoString} (recognised : Recognised line)
    (notUint64 : ¬IsUint64 (lineValue line)) (mi : MemInfo) :
    ∃ err, memLine mi line = .error err := by
  rcases Option.isSome_iff_exists.mp recognised with ⟨field, reported⟩
  rcases exists_parseUint_eq_error notUint64 with ⟨err, failed⟩
  rw [memLine_of_reports reported, failed]
  exact ⟨_, rfl⟩

theorem get_foldl_update (ls : List GoString) (field : MemField) :
    (ls.foldl update .zero).get field =
      ((History.last (Reports field) ls).map fun line =>
        UInt64.ofNat (lineNumber line)).getD 0 := by
  induction ls using List.reverseRecOn with
  | nil => simp
  | append_singleton ls line ih =>
      rw [List.foldl_append, List.foldl_cons, List.foldl_nil, History.last_concat, update]
      cases reported : lineField line with
      | none =>
          have silent : ¬Reports field line := by simp [Reports, reported]
          rw [if_neg silent]
          exact ih
      | some other =>
          simp only [MemInfo.get_set]
          by_cases same : other = field
          · subst same
            have reports : Reports other line := reported
            rw [if_pos rfl, if_pos reports, Option.map_some, Option.getD_some]
          · have silent : ¬Reports field line := by simp [Reports, reported, same]
            rw [if_neg same, if_neg silent, ih]

end Lines

section Whole

/-- Every line for one of the fields has a number below `2 ^ 64`. -/
def NumbersValid (r : GoString) : Prop :=
  ∀ line ∈ lines r, Recognised line → IsUint64 (lineValue line)

theorem toNat_get_foldl_update {r : GoString} (valid : NumbersValid r) (field : MemField) :
    (((lines r).foldl update .zero).get field).toNat = lastNumber field r := by
  rw [get_foldl_update, lastNumber]
  cases isLast : History.last (Reports field) (lines r) with
  | none => rfl
  | some line =>
      rcases History.last_mem isLast with ⟨present, reports⟩
      simp only [Option.map_some, Option.getD_some]
      exact toNat_decimalValue (valid line present reports.recognised)

/-- A text is accepted if its lines fit and its numbers are valid. -/
theorem parseMemInfo_eq_iff {r : GoString} {mi : MemInfo} :
    parseMemInfo r = (mi, none) ↔
      LinesFit r ∧ NumbersValid r ∧ mi = ((lines r).foldl update .zero).withFallback := by
  have loop : NumbersValid r →
      (lines r).foldlM memLine .zero = .ok ((lines r).foldl update .zero) := by
    intro valid
    apply foldlM_eq_ok
    intro line present
    exact memLine_eq_update (valid line present)
  have read : parseMemInfo r = (mi, none) ↔
      ∃ raw, scanLines (.scanning (text "/proc/meminfo")) memLine .zero r = .ok raw ∧
        raw.withFallback = mi := by
    rw [parseMemInfo, returned_eq_none_iff]
    cases scanLines _ memLine .zero r <;> simp [bind, Except.bind]
  simp only [read, scanLines_eq_ok_iff]
  constructor
  · rintro ⟨raw, ⟨fits, isRaw⟩, rfl⟩
    have valid : NumbersValid r := by
      intro line present recognised
      by_contra notUint64
      rcases exists_foldlM_eq_error present (exists_memLine_eq_error recognised notUint64) .zero
        with ⟨err, failed⟩
      rw [failed] at isRaw
      exact absurd isRaw (by simp)
    rw [loop valid, Except.ok.injEq] at isRaw
    exact ⟨fits, valid, by rw [isRaw]⟩
  · rintro ⟨fits, valid, rfl⟩
    exact ⟨_, ⟨fits, loop valid⟩, rfl⟩

theorem get_withFallback (mi : MemInfo) {field : MemField} (notAvailable : field ≠ .availableKB) :
    mi.withFallback.get field = mi.get field := by
  rw [MemInfo.withFallback]
  split
  · cases field <;> first | rfl | exact absurd rfl notAvailable
  · rfl

theorem toNat_availableKB_withFallback (mi : MemInfo) :
    mi.withFallback.availableKB.toNat =
      if mi.availableKB.toNat = 0 then
        (mi.freeKB.toNat + mi.buffersKB.toNat + mi.cachedKB.toNat) % 2 ^ 64
      else mi.availableKB.toNat := by
  have isZero : mi.availableKB = 0 ↔ mi.availableKB.toNat = 0 := UInt64.toNat_inj.symm
  simp only [MemInfo.withFallback, isZero]
  split
  · simp [UInt64.toNat_add]
  · rfl

/-- Every error of the reading names the file. -/
theorem names_of_parseMemInfo {r : GoString} {err : ProcError}
    (rejected : (parseMemInfo r).2 = some err) : err.Names (text "/proc/meminfo") := by
  have failed : scanLines (.scanning (text "/proc/meminfo")) memLine .zero r = .error err :=
    eq_error_of_returned_bind MemInfo.withFallback rejected
  apply of_scanLines_eq_error _ _ failed
  · exact names_scanning _
  · intro mi line err failed
    cases reported : lineField line with
    | none =>
        rw [memLine_of_lineField_eq_none reported] at failed
        exact absurd failed (by simp)
    | some field =>
        rw [memLine_of_reports reported] at failed
        cases parsed : parseUint (lineValue line) with
        | error numError =>
            rw [parsed] at failed
            cases failed
            exact names_parsingMeminfoLine line numError
        | ok v => simp [parsed] at failed

/-- A reported amount of available memory is shown if and only if it is not zero, or is what the
approximation gives. -/
theorem parseMemInfo_available_iff {r line : GoString} {mi : MemInfo}
    (accepted : parseMemInfo r = (mi, none))
    (isLast : History.last (Reports .availableKB) (lines r) = some line) :
    (mi.availableKB.toNat = lineNumber line ∧
      (mi.usedKB.toNat : ℤ) = max 0 ((mi.totalKB.toNat : ℤ) - lineNumber line)) ↔
    lineNumber line ≠ 0 ∨
      (lastNumber .freeKB r + lastNumber .buffersKB r + lastNumber .cachedKB r) % 2 ^ 64 = 0 := by
  rcases parseMemInfo_eq_iff.mp accepted with ⟨_, valid, rfl⟩
  have reported : ((lines r).foldl update .zero).availableKB.toNat = lineNumber line := by
    have number := toNat_get_foldl_update valid .availableKB
    rw [lastNumber, isLast] at number
    simp only [MemInfo.get, Option.map_some, Option.getD_some] at number
    exact number
  have free := toNat_get_foldl_update valid .freeKB
  have buffers := toNat_get_foldl_update valid .buffersKB
  have cached := toNat_get_foldl_update valid .cachedKB
  simp only [MemInfo.get] at free buffers cached
  rw [MemInfo.usedKB, toNat_usedOf, toNat_availableKB_withFallback, reported, free, buffers, cached]
  split
  · rename_i isZero
    omega
  · omega

/-- A machine on which no memory is available. -/
theorem parseMemInfo_available_exhausted :
    ∃ mi, parseMemInfo (text "MemTotal: 100 kB\nMemFree: 30 kB\nMemAvailable: 0 kB\n") =
        (mi, none) ∧
      History.last (Reports .availableKB)
          (lines (text "MemTotal: 100 kB\nMemFree: 30 kB\nMemAvailable: 0 kB\n")) =
        some (text "MemAvailable: 0 kB") ∧
      lineNumber (text "MemAvailable: 0 kB") = 0 ∧ mi.availableKB = 30 ∧ mi.usedKB = 70 := by
  refine ⟨⟨100, 30, 30, 0, 0, 0, 0⟩, ?_, ?_, ?_, ?_, ?_⟩
  · decide +kernel
  · decide +kernel
  · decide +kernel
  · decide
  · decide

/-- A machine on which a third of the memory is available. -/
theorem parseMemInfo_available_some :
    ∃ mi, parseMemInfo (text "MemTotal: 90 kB\nMemAvailable: 30 kB\n") = (mi, none) ∧
      mi.availableKB.toNat = 30 ∧ (mi.usedKB.toNat : ℤ) = max 0 ((mi.totalKB.toNat : ℤ) - 30) := by
  have accepted : parseMemInfo (text "MemTotal: 90 kB\nMemAvailable: 30 kB\n") =
      (⟨90, 0, 30, 0, 0, 0, 0⟩, none) := by decide +kernel
  have isLast : History.last (Reports .availableKB)
      (lines (text "MemTotal: 90 kB\nMemAvailable: 30 kB\n")) =
        some (text "MemAvailable: 30 kB") := by decide +kernel
  have number : lineNumber (text "MemAvailable: 30 kB") = 30 := by decide +kernel
  have shown := (parseMemInfo_available_iff accepted isLast).mpr (by rw [number]; decide)
  rw [number] at shown
  exact ⟨_, accepted, shown⟩

/-- Every key stands on at most one line. -/
def KeysOnce (r : GoString) : Prop := ∀ field, (lines r).countP (Reports field ·) ≤ 1

theorem lastNumber_of_reports {r line : GoString} {field : MemField} (once : KeysOnce r)
    (present : line ∈ lines r) (reports : Reports field line) :
    lastNumber field r = lineNumber line := by
  rw [lastNumber, History.last_of_atMostOne (once field) present reports, Option.map_some,
    Option.getD_some]

theorem lastNumber_of_silent {r : GoString} {field : MemField}
    (silent : ∀ line ∈ lines r, ¬Reports field line) : lastNumber field r = 0 := by
  cases isLast : History.last (Reports field) (lines r) with
  | none => rw [lastNumber, isLast]; rfl
  | some line =>
      rcases History.last_mem isLast with ⟨present, reports⟩
      exact absurd reports (silent line present)

theorem get_foldl_update_of_perm {ls ls' : List GoString}
    (once : ∀ field, ls.countP (Reports field ·) ≤ 1)
    (same : (ls'.filter (Recognised ·)).Perm (ls.filter (Recognised ·))) :
    ls'.foldl update .zero = ls.foldl update .zero := by
  apply MemInfo.ext_get
  intro field
  have reporting : ∀ all : List GoString,
      all.filter (Reports field ·) = (all.filter (Recognised ·)).filter (Reports field ·) := by
    intro all
    rw [List.filter_filter]
    apply List.filter_congr
    intro line _
    by_cases reports : Reports field line
    · simp [reports, reports.recognised]
    · simp [reports]
  have sameList : ls'.filter (Reports field ·) = ls.filter (Reports field ·) := by
    apply KeyedList.eq_of_perm_of_length_le_one
    · rw [reporting ls', reporting ls]
      exact same.filter _
    · rw [← List.countP_eq_length_filter]
      exact once field
  rw [get_foldl_update, get_foldl_update, History.last, History.last, sameList]

theorem exists_parseMemInfo_eq_error {r : GoString} (notValid : ¬NumbersValid r) :
    ∃ err, parseMemInfo r = (.zero, some err) := by
  apply exists_returned_eq_error
  intro mi accepted
  exact notValid (parseMemInfo_eq_iff.mp accepted).2.1

theorem numbersValid_of_perm {r r' : GoString}
    (same : ((lines r').filter (Recognised ·)).Perm ((lines r).filter (Recognised ·)))
    (valid : NumbersValid r) : NumbersValid r' := by
  intro line present recognised
  have isRecognised : line ∈ (lines r').filter (Recognised ·) := by
    simpa using ⟨present, recognised⟩
  have isOther := same.mem_iff.mp isRecognised
  rw [List.mem_filter] at isOther
  exact valid line isOther.1 recognised

/-- The values of an accepted text in which every key stands at most once. -/
theorem fields_of_parseMemInfo {r : GoString} {mi : MemInfo} (once : KeysOnce r)
    (accepted : parseMemInfo r = (mi, none)) :
    (∀ field, field ≠ .availableKB →
      (∀ line ∈ lines r, Reports field line → (mi.get field).toNat = lineNumber line) ∧
      ((∀ line ∈ lines r, ¬Reports field line) → (mi.get field).toNat = 0)) ∧
    (∀ line ∈ lines r, Reports .availableKB line → lineNumber line ≠ 0 →
      mi.availableKB.toNat = lineNumber line) ∧
    ((∀ line ∈ lines r, ¬Reports .availableKB line) →
      mi.availableKB.toNat =
        (mi.freeKB.toNat + mi.buffersKB.toNat + mi.cachedKB.toNat) % 2 ^ 64) := by
  rcases parseMemInfo_eq_iff.mp accepted with ⟨_, valid, rfl⟩
  have number := toNat_get_foldl_update valid
  have available := number .availableKB
  rw [MemInfo.get] at available
  refine ⟨?_, ?_, ?_⟩
  · intro field notAvailable
    rw [get_withFallback _ notAvailable, number]
    constructor
    · intro line present reports
      exact lastNumber_of_reports once present reports
    · exact lastNumber_of_silent
  · intro line present reports nonzero
    rw [lastNumber_of_reports once present reports] at available
    rw [toNat_availableKB_withFallback, available, if_neg nonzero]
  · intro silent
    have unchanged : ∀ field, field ≠ MemField.availableKB → _ :=
      fun _ => get_withFallback ((lines r).foldl update .zero)
    have free := unchanged .freeKB (by decide)
    have buffers := unchanged .buffersKB (by decide)
    have cached := unchanged .cachedKB (by decide)
    simp only [MemInfo.get] at free buffers cached
    rw [lastNumber_of_silent silent] at available
    rw [toNat_availableKB_withFallback, if_pos available, free, buffers, cached]

/-- The reading of `/proc/meminfo` is exact, does not depend on the order of the lines or on other
lines, and gives nothing if one of its numbers is malformed. The lines that count are those whose
text before the first colon is one of seven keys. -/
theorem parseMemInfo_exact {r : GoString} (fits : LinesFit r) (once : KeysOnce r) :
    (∀ key value field, colonByte ∉ key →
      (Reports field (key ++ text ":" ++ value) ↔ (key, field) ∈
        [(text "MemTotal", .totalKB), (text "MemFree", .freeKB),
          (text "MemAvailable", .availableKB), (text "Buffers", .buffersKB),
          (text "Cached", .cachedKB), (text "SwapTotal", .swapTotalKB),
          (text "SwapFree", .swapFreeKB)]) ∧
      lineValue (key ++ text ":" ++ value) =
        trimSpace (trimSuffix (trimSpace value) (text " kB"))) ∧
    (∀ line, Recognised line ↔ ∃ field, Reports field line) ∧
    (∀ line, colonByte ∉ line → ¬Recognised line) ∧
    ((∃ err, parseMemInfo r = (.zero, some err)) ↔
      ∃ line ∈ lines r, Recognised line ∧ ¬IsUint64 (lineValue line)) ∧
    ((∀ line ∈ lines r, Recognised line → IsUint64 (lineValue line)) →
      ∃ mi, parseMemInfo r = (mi, none) ∧
        mi =
          { totalKB := mi.get .totalKB
            freeKB := mi.get .freeKB
            availableKB := mi.get .availableKB
            buffersKB := mi.get .buffersKB
            cachedKB := mi.get .cachedKB
            swapTotalKB := mi.get .swapTotalKB
            swapFreeKB := mi.get .swapFreeKB } ∧
        (∀ field, field ≠ .availableKB →
          (∀ line ∈ lines r, Reports field line → (mi.get field).toNat = lineNumber line) ∧
          ((∀ line ∈ lines r, ¬Reports field line) → (mi.get field).toNat = 0)) ∧
        (∀ line ∈ lines r, Reports .availableKB line → lineNumber line ≠ 0 →
          mi.availableKB.toNat = lineNumber line) ∧
        ((∀ line ∈ lines r, ¬Reports .availableKB line) →
          mi.availableKB.toNat =
            (mi.freeKB.toNat + mi.buffersKB.toNat + mi.cachedKB.toNat) % 2 ^ 64)) ∧
    ∀ r', LinesFit r' →
      ((lines r').filter (Recognised ·)).Perm ((lines r).filter (Recognised ·)) →
        (parseMemInfo r').1 = (parseMemInfo r).1 ∧
          ((parseMemInfo r').2 = none ↔ (parseMemInfo r).2 = none) := by
  have accepts : ∀ r, LinesFit r → NumbersValid r →
      parseMemInfo r = (((lines r).foldl update .zero).withFallback, none) := by
    intro r fits valid
    exact parseMemInfo_eq_iff.mpr ⟨fits, valid, rfl⟩
  refine ⟨fun key value field noColon => reports_append_colon noColon value field,
    fun line => Option.isSome_iff_exists, fun line => not_recognised_of_notMem, ?_, ?_, ?_⟩
  · have someInvalid : (∃ line ∈ lines r, Recognised line ∧ ¬IsUint64 (lineValue line)) ↔
        ¬NumbersValid r := by
      simp only [NumbersValid, not_forall, exists_prop]
    rw [someInvalid]
    constructor
    · rintro ⟨err, rejected⟩ valid
      rw [accepts r fits valid] at rejected
      exact absurd rejected (by simp)
    · exact exists_parseMemInfo_eq_error
  · intro valid
    exact ⟨_, accepts r fits valid, rfl, fields_of_parseMemInfo once (accepts r fits valid)⟩
  · intro r' fits' same
    by_cases valid : NumbersValid r
    · rw [accepts r fits valid, accepts r' fits' (numbersValid_of_perm same valid),
        get_foldl_update_of_perm once same]
      exact ⟨rfl, Iff.rfl⟩
    · have notValid' := mt (numbersValid_of_perm same.symm) valid
      rcases exists_parseMemInfo_eq_error valid with ⟨err, rejected⟩
      rcases exists_parseMemInfo_eq_error notValid' with ⟨err', rejected'⟩
      rw [rejected, rejected']
      exact ⟨rfl, by simp⟩

/-- A kernel that does not report the available memory, and the same lines in another order. -/
theorem parseMemInfo_exact_old_kernel :
    ∃ mi, parseMemInfo
        (text "MemTotal: 90 kB\nHugePages_Total: 4\nMemFree: 30 kB\nCached: 5 kB\n") = (mi, none) ∧
      (mi.get .totalKB).toNat = 90 ∧
      mi.availableKB.toNat = (mi.freeKB.toNat + mi.buffersKB.toNat + mi.cachedKB.toNat) % 2 ^ 64 ∧
      (parseMemInfo (text "Cached: 5 kB\nMemFree: 30 kB\nMemTotal: 90 kB\n")).1 = mi := by
  have fits : LinesFit
      (text "MemTotal: 90 kB\nHugePages_Total: 4\nMemFree: 30 kB\nCached: 5 kB\n") := by
    decide +kernel
  have once : KeysOnce
      (text "MemTotal: 90 kB\nHugePages_Total: 4\nMemFree: 30 kB\nCached: 5 kB\n") := by
    intro field
    cases field <;> decide +kernel
  rcases parseMemInfo_exact fits once with ⟨_, _, _, _, accepted, reordered⟩
  rcases accepted (by decide +kernel) with ⟨mi, isResult, _, fields, _, approximated⟩
  have sameResult := (reordered (text "Cached: 5 kB\nMemFree: 30 kB\nMemTotal: 90 kB\n")
    (by decide +kernel) (by decide +kernel)).1
  rw [isResult] at sameResult
  have total := (fields .totalKB (by decide)).1 (text "MemTotal: 90 kB") (by decide +kernel)
    (by decide +kernel)
  refine ⟨mi, isResult, ?_, approximated (by decide +kernel), sameResult⟩
  rw [total]
  decide +kernel

end Whole

end Sysmon.Stats
