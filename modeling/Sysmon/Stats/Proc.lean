import Sysmon.Go.Bufio
import Sysmon.Go.Strconv

/-!
# Reading files of `/proc`

The parsers of `cpu.go`, `mem.go`, `disk.go` and `net.go` return a value
together with an error, and the zero value of its type if there is an error.
This file gives the errors, with the texts that `fmt.Errorf` makes of them.
-/

namespace Sysmon.Stats

open Sysmon.Go

abbrev colonByte : UInt8 := 58

inductive ProcError where
  | parsingStatField (fld : GoString) (err : NumError)
  | parsingMeminfoLine (line : GoString) (err : NumError)
  | scanning (path : GoString) (err : ScanError)
deriving DecidableEq

/-- The text of an error, where `quote` is the verb `%q`. -/
def ProcError.error (quote : GoString → GoString) : ProcError → GoString
  | parsingStatField fld err =>
    text "parsing /proc/stat field " ++ quote fld ++ text ": " ++ err.error quote
  | parsingMeminfoLine line err =>
    text "parsing /proc/meminfo line " ++ quote line ++ text ": " ++ err.error quote
  | scanning path err => text "scanning " ++ path ++ text ": " ++ err.error

/-- The text of the error names the file. -/
def ProcError.Names (path : GoString) (err : ProcError) : Prop :=
  ∀ quote, path <:+: err.error quote

theorem names_scanning (path : GoString) (err : ScanError) :
    (ProcError.scanning path err).Names path := by
  intro quote
  rw [ProcError.error, List.append_assoc]
  exact List.infix_append (text "scanning ") path _

theorem names_parsingStatField (fld : GoString) (err : NumError) :
    (ProcError.parsingStatField fld err).Names (text "/proc/stat") := by
  intro quote
  have inside : text "/proc/stat" <:+: text "parsing /proc/stat field " := by decide +kernel
  simp only [ProcError.error, List.append_assoc]
  exact inside.trans (List.prefix_append _ _).isInfix

theorem names_parsingMeminfoLine (line : GoString) (err : NumError) :
    (ProcError.parsingMeminfoLine line err).Names (text "/proc/meminfo") := by
  intro quote
  have inside : text "/proc/meminfo" <:+: text "parsing /proc/meminfo line " := by decide +kernel
  simp only [ProcError.error, List.append_assoc]
  exact inside.trans (List.prefix_append _ _).isInfix

/-- What a parser returns: no value comes with an error. -/
def returned {Value : Type} (zero : Value) (result : Except ProcError Value) :
    Value × Option ProcError :=
  match result with
  | .ok value => (value, none)
  | .error err => (zero, some err)

theorem returned_eq_none_iff {Value : Type} {zero value : Value}
    {result : Except ProcError Value} :
    returned zero result = (value, none) ↔ result = .ok value := by
  cases result <;> simp [returned]

theorem eq_error_of_returned {Value : Type} {zero : Value} {result : Except ProcError Value}
    {err : ProcError} (rejected : (returned zero result).2 = some err) : result = .error err := by
  cases result with
  | ok value => exact absurd rejected (by simp [returned])
  | error other => simpa [returned] using rejected

/-- If only the scanning of the lines can fail, its error is returned. -/
theorem eq_error_of_returned_bind {State Value : Type} {zero : Value}
    {scanned : Except ProcError State} (finish : State → Value) {err : ProcError}
    (rejected : (returned zero (scanned.bind fun state => .ok (finish state))).2 = some err) :
    scanned = .error err := by
  cases scanned with
  | ok state => exact absurd rejected (by simp [returned, Except.bind])
  | error other => simpa [returned, Except.bind] using rejected

theorem exists_returned_eq_error {Value : Type} {zero : Value} {result : Except ProcError Value}
    (rejected : ∀ value, returned zero result ≠ (value, none)) :
    ∃ err, returned zero result = (zero, some err) := by
  cases result with
  | ok value => exact absurd rfl (rejected value)
  | error err => exact ⟨err, rfl⟩

end Sysmon.Stats
