import Sysmon.Stats.ProcDiskstats
import Sysmon.Stats.ProcNetDev
import Sysmon.Stats.ProcStat

/-!
# Reading a file in pieces

The parsers of `/proc/stat`, `/proc/diskstats` and `/proc/net/dev` append what
a line gives to what they have, whatever the lines before it were. A text that
is cut between two lines may therefore be read piece by piece, with all entries
in order or the first error as the result. For `/proc/net/dev`, a later piece
needs two lines of its own in place of the header.

`ParseMemInfo` has no such property, since a later line for a field replaces an
earlier one.
-/

namespace Sysmon.Stats

open Sysmon.Go

variable {Value : Type}

/-- Two readings one after the other: all entries, or the first error. -/
def followedBy : List Value × Option ProcError → List Value × Option ProcError →
    List Value × Option ProcError
  | (entries, none), (more, none) => (entries ++ more, none)
  | (_, none), (_, some err) => ([], some err)
  | (_, some err), _ => ([], some err)

theorem returned_bind_map (reading more : Except ProcError (List Value)) :
    returned [] (reading.bind fun entries => more.map (entries ++ ·)) =
      followedBy (returned [] reading) (returned [] more) := by
  cases reading with
  | error err => rfl
  | ok entries => cases more <;> rfl

/-- A parser whose body is row-wise may read a text piece by piece. -/
theorem returned_append_of_rowWise {fail : ScanError → ProcError}
    {body : List Value → GoString → Except ProcError (List Value)} (rowWise : RowWise body)
    {before : GoString} (boundary : IsBoundary before) (rest : GoString) :
    returned [] (scanLines fail body [] (before ++ rest)) =
      followedBy (returned [] (scanLines fail body [] before))
        (returned [] (scanLines fail body [] rest)) := by
  rw [← returned_bind_map, scanLines_append boundary]
  congr 2
  funext entries
  exact rowWise.scanLines_eq entries rest

theorem rowWise_diskLine : RowWise diskLine := by
  intro result line
  by_cases passes : Passes line
  · simp [diskLine_of_passes passes, Except.map]
  · simp [diskLine_of_not_passes passes, Except.map]

theorem rowWise_statLine : RowWise statLine := by
  intro result line
  by_cases isRow : IsCPURow line
  · simp only [statLine_of_isCPURow isRow]
    cases ((fields line).drop 1).mapM parseStatField <;> rfl
  · simp [statLine_of_not_isCPURow isRow, Except.map]

theorem parseNetIO_of_not_linesFit {r : GoString} (long : ¬LinesFit r) :
    parseNetIO r = ([], some (.scanning (text "/proc/net/dev") .errTooLong)) := by
  rw [Stats.parseNetIO, scanLines_of_not_linesFit exists_netLine_eq_ok long]
  rfl

section Net

variable {before : GoString}

theorem linesFit_append_iff (boundary : IsBoundary before) (rest : GoString) :
    LinesFit (before ++ rest) ↔ LinesFit before ∧ LinesFit rest := by
  simp only [LinesFit, boundary.rawLines_append, List.mem_append, or_imp, forall_and]

theorem lines_append (boundary : IsBoundary before) (rest : GoString) :
    lines (before ++ rest) = lines before ++ lines rest := by
  simp [lines, boundary.rawLines_append]

theorem parseNetIO_append (boundary : IsBoundary before)
    (hasHeader : 2 ≤ (lines before).length) {header : GoString} (isHeader : IsBoundary header)
    (twoLines : (lines header).length = 2) (headerFits : LinesFit header) (rest : GoString) :
    parseNetIO (before ++ rest) =
      followedBy (Stats.parseNetIO before) (Stats.parseNetIO (header ++ rest)) := by
  by_cases fits : LinesFit before
  · by_cases restFits : LinesFit rest
    · have whole := (linesFit_append_iff boundary rest).mpr ⟨fits, restFits⟩
      have later := (linesFit_append_iff isHeader rest).mpr ⟨headerFits, restFits⟩
      have afterHeader : (lines header ++ lines rest).drop 2 = lines rest := by
        rw [← twoLines, List.drop_left]
      rw [parseNetIO_eq whole, parseNetIO_eq fits, parseNetIO_eq later, lines_append boundary,
        lines_append isHeader, afterHeader, List.drop_append_of_le_length hasHeader]
      simp [followedBy]
    · have whole : ¬LinesFit (before ++ rest) := by
        simp [linesFit_append_iff boundary, restFits]
      have later : ¬LinesFit (header ++ rest) := by
        simp [linesFit_append_iff isHeader, restFits]
      rw [parseNetIO_of_not_linesFit whole, parseNetIO_of_not_linesFit later, parseNetIO_eq fits]
      rfl
  · have whole : ¬LinesFit (before ++ rest) := by
      simp [linesFit_append_iff boundary, fits]
    rw [parseNetIO_of_not_linesFit whole, parseNetIO_of_not_linesFit fits]
    rfl

end Net

/-- **Pieces.** A text that is cut between two lines is read as its pieces are, one after the
other. -/
theorem parsers_read_pieces (before rest : GoString) (boundary : IsBoundary before) :
    parseCPUTimes (before ++ rest) = followedBy (parseCPUTimes before) (parseCPUTimes rest) ∧
    parseDiskIO (before ++ rest) = followedBy (Stats.parseDiskIO before) (Stats.parseDiskIO rest) ∧
    (2 ≤ (lines before).length → ∀ header, IsBoundary header → (lines header).length = 2 →
      LinesFit header → parseNetIO (before ++ rest) =
        followedBy (Stats.parseNetIO before) (Stats.parseNetIO (header ++ rest))) := by
  refine ⟨?_, ?_, ?_⟩
  · exact returned_append_of_rowWise rowWise_statLine boundary rest
  · exact returned_append_of_rowWise rowWise_diskLine boundary rest
  · intro hasHeader header isHeader twoLines headerFits
    exact parseNetIO_append boundary hasHeader isHeader twoLines headerFits rest

theorem parsers_read_pieces_of_two :
    (parseCPUTimes (text "cpu  1 2 3 4 5 6 7 8\n" ++ text "cpu0 1 2 3 4 5 6 x 8")).2.isSome ∧
      parseNetIO (text "1\n2\neth0: 5 1 0 0 0 0 0 0 6 1\n" ++
          text "eth1: 7 1 0 0 0 0 0 0 8 1\n") =
        ([⟨text "eth0", 5, 1, 6, 1⟩, ⟨text "eth1", 7, 1, 8, 1⟩], none) := by
  have cut := parsers_read_pieces (text "cpu  1 2 3 4 5 6 7 8\n")
    (text "cpu0 1 2 3 4 5 6 x 8") (Or.inr rfl)
  have netCut := parsers_read_pieces (text "1\n2\neth0: 5 1 0 0 0 0 0 0 6 1\n")
    (text "eth1: 7 1 0 0 0 0 0 0 8 1\n") (Or.inr rfl)
  have header : 2 ≤ (lines (text "1\n2\neth0: 5 1 0 0 0 0 0 0 6 1\n")).length ∧
      (lines (text "1\n2\n")).length = 2 ∧ LinesFit (text "1\n2\n") := by
    decide +kernel
  rw [cut.1, netCut.2.2 header.1 (text "1\n2\n") (Or.inr rfl) header.2.1 header.2.2]
  decide +kernel

end Sysmon.Stats
