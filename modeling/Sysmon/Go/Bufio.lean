import Sysmon.Go.Strings

/-!
# Package `bufio`

This file embeds the loop over the lines of a reader that all parsers share: a
`bufio.Scanner` with the default split function, a body that may return early,
and the check of `scanner.Err` after the loop. A reader is the text that it
yields; reading it does not fail.

A line ends at a newline or at the end of the text, and loses one carriage
return. The buffer of a scanner holds 65536 bytes, and a line that does not fit
with its newline ends the loop with an error.
-/

namespace Sysmon.Go

abbrev newline : UInt8 := 10

abbrev carriageReturn : UInt8 := 13

abbrev maxScanTokenSize : ℕ := 64 * 1024

inductive ScanError where
  | errTooLong
deriving DecidableEq

def ScanError.error : ScanError → GoString
  | errTooLong => text "bufio.Scanner: token too long"

def dropCR (data : GoString) : GoString :=
  if data.getLast? = some carriageReturn then data.dropLast else data

/-- The lines of a text without their newlines. -/
def rawLines (input : GoString) : List GoString :=
  let pieces := input.splitOn newline
  if pieces.getLast? = some [] then pieces.dropLast else pieces

def Fits (line : GoString) : Prop := line.length < maxScanTokenSize

instance : DecidablePred Fits := fun line =>
  inferInstanceAs (Decidable (line.length < maxScanTokenSize))

/-- Every line of the text fits into the buffer of a scanner. -/
def LinesFit (input : GoString) : Prop := ∀ line ∈ rawLines input, Fits line

instance : DecidablePred LinesFit := fun input =>
  inferInstanceAs (Decidable (∀ line ∈ rawLines input, Fits line))

/-- The lines that a scanner yields if they all fit. -/
def lines (input : GoString) : List GoString := (rawLines input).map dropCR

/-- The tokens of a scanner and its error after the last one. -/
def scan (input : GoString) : List GoString × Option ScanError :=
  (((rawLines input).takeWhile (Fits ·)).map dropCR,
    if LinesFit input then none else some .errTooLong)

section Steps

variable {State Item Err : Type} {body : State → Item → Except Err State} {items : List Item}

/-- A loop whose body never returns early. -/
theorem foldlM_eq_ok {update : State → Item → State}
    (steps : ∀ item ∈ items, ∀ state, body state item = .ok (update state item)) (start : State) :
    items.foldlM body start = .ok (items.foldl update start) := by
  induction items generalizing start with
  | nil => rfl
  | cons item items ih =>
      rw [List.foldlM_cons, steps item (by simp), List.foldl_cons]
      exact ih (fun item present => steps item (by simp [present])) _

/-- A loop that appends a value for the items of a kind and skips the others. -/
theorem foldlM_append {Value : Type} {body : List Value → Item → Except Err (List Value)}
    (select : Item → Prop) [DecidablePred select] (value : Item → Value)
    (appends : ∀ item ∈ items, select item → ∀ result,
      body result item = .ok (result ++ [value item]))
    (skips : ∀ item ∈ items, ¬select item → ∀ result, body result item = .ok result)
    (start : List Value) :
    items.foldlM body start = .ok (start ++ (items.filter (select ·)).map value) := by
  induction items generalizing start with
  | nil => simp [pure, Except.pure]
  | cons item items ih =>
      have later := ih (fun item present => appends item (by simp [present]))
        fun item present => skips item (by simp [present])
      rw [List.foldlM_cons]
      by_cases selected : select item
      · rw [appends item (by simp) selected]
        simp [bind, Except.bind, later, selected]
      · rw [skips item (by simp) selected]
        simp [bind, Except.bind, later, selected]

/-- An item at which the body returns early ends the loop, if no earlier item does. -/
theorem exists_foldlM_eq_error {item : Item} (present : item ∈ items)
    (fails : ∀ state, ∃ err, body state item = .error err) (start : State) :
    ∃ err, items.foldlM body start = .error err := by
  induction items generalizing start with
  | nil => exact absurd present List.not_mem_nil
  | cons first items ih =>
      rw [List.foldlM_cons]
      cases step : body start first with
      | error err => exact ⟨err, rfl⟩
      | ok next =>
          rcases List.mem_cons.mp present with rfl | later
          · rcases fails start with ⟨err, failed⟩
            rw [failed] at step
            exact absurd step (by simp)
          · exact ih later next

/-- An item that the body skips leaves the result of the loop unchanged. -/
theorem foldlM_insert {before after : List Item} {item : Item}
    (skipped : ∀ state, body state item = .ok state) (start : State) :
    (before ++ item :: after).foldlM body start = (before ++ after).foldlM body start := by
  simp only [List.foldlM_append, List.foldlM_cons]
  congr 1
  funext state
  rw [skipped]
  rfl

/-- What holds of the errors of the body holds of the errors of the loop. -/
theorem of_foldlM_eq_error {holds : Err → Prop}
    (ofBody : ∀ state item err, body state item = .error err → holds err) {start : State}
    {err : Err} (failed : items.foldlM body start = .error err) : holds err := by
  induction items generalizing start with
  | nil => exact absurd failed (by simp [pure, Except.pure])
  | cons item items ih =>
      rw [List.foldlM_cons] at failed
      cases step : body start item with
      | error other =>
          rw [step] at failed
          cases failed
          exact ofBody start item err step
      | ok next =>
          rw [step] at failed
          exact ih failed

end Steps

section Loop

variable {State Err : Type}

/-- A loop `for scanner.Scan()` followed by the check of `scanner.Err`. -/
def scanLines (fail : ScanError → Err) (body : State → GoString → Except Err State)
    (start : State) (input : GoString) : Except Err State := do
  let (tokens, err) := scan input
  let state ← tokens.foldlM body start
  match err with
  | some err => .error (fail err)
  | none => .ok state

variable {fail : ScanError → Err} {body : State → GoString → Except Err State} {start : State}
  {input : GoString}

theorem scan_eq (fits : LinesFit input) : scan input = (lines input, none) := by
  have whole : (rawLines input).takeWhile (Fits ·) = rawLines input := by
    apply List.takeWhile_eq_self_iff.mpr
    intro line present
    simpa using fits line present
  rw [scan, whole, if_pos fits]
  rfl

/-- A loop over lines succeeds if all lines fit and the body never returns early. -/
theorem scanLines_eq_ok_iff {state : State} :
    scanLines fail body start input = .ok state ↔
      LinesFit input ∧ (lines input).foldlM body start = .ok state := by
  by_cases fits : LinesFit input
  · rw [scanLines, scan_eq fits]
    simp only [fits, true_and]
    cases (lines input).foldlM body start <;> simp [bind, Except.bind]
  · simp only [scanLines, scan, fits, false_and, iff_false]
    cases List.foldlM body start _ <;> simp [bind, Except.bind]

/-- If the body never returns early, only a line that does not fit ends the loop. -/
theorem scanLines_of_not_linesFit
    (accepts : ∀ state line, ∃ next, body state line = .ok next) (long : ¬LinesFit input) :
    scanLines fail body start input = .error (fail .errTooLong) := by
  have runs : ∀ (tokens : List GoString) (state : State), ∃ last,
      tokens.foldlM body state = .ok last := by
    intro tokens
    induction tokens with
    | nil => exact fun state => ⟨state, rfl⟩
    | cons line tokens ih =>
        intro state
        rcases accepts state line with ⟨next, accepted⟩
        rw [List.foldlM_cons, accepted]
        exact ih next
  rcases runs (scan input).1 start with ⟨last, ran⟩
  have stopped : (scan input).2 = some .errTooLong := if_neg long
  simp only [scanLines, ran, stopped]
  rfl

/-- What holds of the errors of the body and of the scanner holds of the errors of the loop. -/
theorem of_scanLines_eq_error {holds : Err → Prop} (ofScanner : ∀ err, holds (fail err))
    (ofBody : ∀ state line err, body state line = .error err → holds err) {err : Err}
    (failed : scanLines fail body start input = .error err) : holds err := by
  simp only [scanLines] at failed
  cases loop : (scan input).1.foldlM body start with
  | error other =>
      rw [loop] at failed
      cases failed
      exact of_foldlM_eq_error ofBody loop
  | ok state =>
      rw [loop] at failed
      cases ended : (scan input).2 with
      | none => simp [ended, bind, Except.bind] at failed
      | some scanError =>
          simp only [ended, bind, Except.bind, Except.error.injEq] at failed
          exact failed ▸ ofScanner scanError

end Loop

section Lines

theorem rawLines_append_newline (before rest : GoString) :
    rawLines (before ++ newline :: rest) = before.splitOn newline ++ rawLines rest := by
  have nonempty := List.splitOn_ne_nil newline rest
  rw [rawLines, rawLines, List.splitOn_append_cons_self, List.getLast?_append_of_ne_nil _ nonempty,
    List.dropLast_append_of_ne_nil nonempty]
  split <;> rfl

theorem rawLines_of_notMem {line : GoString} (single : newline ∉ line) :
    rawLines line = if line = [] then [] else [line] := by
  rw [rawLines, List.splitOn_eq_singleton single]
  simp only [List.getLast?_singleton, Option.some.injEq, List.dropLast_singleton]

theorem mem_of_mem_intercalate {separator : UInt8} {pieces : List GoString} {piece : GoString}
    (present : piece ∈ pieces) {c : UInt8} (inPiece : c ∈ piece) :
    c ∈ [separator].intercalate pieces := by
  induction pieces with
  | nil => exact absurd present List.not_mem_nil
  | cons first pieces ih =>
      cases pieces with
      | nil =>
          rw [List.mem_singleton] at present
          rwa [List.intercalate_singleton, ← present]
      | cons second pieces =>
          rw [List.intercalate_cons_cons]
          rcases List.mem_cons.mp present with rfl | later
          · simp [inPiece]
          · simp [ih later]

/-- The lines of a text contain what the text contains. -/
theorem mem_of_mem_lines {input line : GoString} (isLine : line ∈ lines input) {c : UInt8}
    (inLine : c ∈ line) : c ∈ input := by
  rcases List.mem_map.mp isLine with ⟨raw, isRaw, rfl⟩
  have inRaw : c ∈ raw := by
    rw [dropCR] at inLine
    split at inLine
    · exact List.mem_of_mem_dropLast inLine
    · exact inLine
  have isPiece : raw ∈ input.splitOn newline := by
    simp only [rawLines] at isRaw
    split at isRaw
    · exact List.mem_of_mem_dropLast isRaw
    · exact isRaw
  have joined : [newline].intercalate (input.splitOn newline) = input :=
    List.intercalate_splitOn newline
  rw [← joined]
  exact mem_of_mem_intercalate isPiece inRaw

def unlines (printed : List GoString) : GoString :=
  printed.flatMap fun line => line ++ [newline]

/-- A text is made of its lines. -/
theorem rawLines_unlines {printed : List GoString} (single : ∀ line ∈ printed, newline ∉ line) :
    rawLines (unlines printed) = printed := by
  induction printed with
  | nil => rfl
  | cons line printed ih =>
      have later := ih fun line present => single line (by simp [present])
      rw [unlines, List.flatMap_cons, ← unlines, List.append_assoc, List.singleton_append,
        rawLines_append_newline, later, List.splitOn_eq_singleton (single line (by simp))]
      rfl

theorem linesFit_unlines {printed : List GoString} (single : ∀ line ∈ printed, newline ∉ line)
    (fits : ∀ line ∈ printed, Fits line) : LinesFit (unlines printed) := by
  rw [LinesFit, rawLines_unlines single]
  exact fits

theorem lines_unlines {printed : List GoString} (single : ∀ line ∈ printed, newline ∉ line) :
    lines (unlines printed) = printed.map dropCR := by
  rw [lines, rawLines_unlines single]

/-- The values of the lines of a kind are those of the items that print such lines, in order. -/
theorem map_filter_printed {Item Value : Type} (select : GoString → Prop) [DecidablePred select]
    (value : GoString → Value) (print : Item → GoString) (value? : Item → Option Value)
    (reads : ∀ item v, value? item = some v → select (print item) ∧ value (print item) = v)
    (skips : ∀ item, value? item = none → ¬select (print item)) (items : List Item) :
    ((items.map print).filter (select ·)).map value = items.filterMap value? := by
  induction items with
  | nil => rfl
  | cons item items ih =>
      rw [List.map_cons, List.filter_cons]
      cases isValue : value? item with
      | none =>
          rw [if_neg (by simpa using skips item isValue), List.filterMap_cons_none isValue, ih]
      | some v =>
          rcases reads item v isValue with ⟨selected, same⟩
          rw [if_pos (decide_eq_true selected), List.filterMap_cons_some isValue, List.map_cons, ih,
            same]

theorem dropCR_isPrefix (data : GoString) : dropCR data <+: data := by
  rw [dropCR]
  split
  · exact List.dropLast_prefix data
  · exact List.prefix_refl data

theorem hasPrefix_dropCR {start : GoString} (clean : carriageReturn ∉ start) (data : GoString) :
    hasPrefix (dropCR data) start = hasPrefix data start := by
  rw [dropCR]
  split
  · rename_i isLast
    rcases List.getLast?_eq_some_iff.mp isLast with ⟨rest, rfl⟩
    have notWhole : start ≠ rest ++ [carriageReturn] := by
      rintro rfl
      simp at clean
    simp [hasPrefix, List.prefix_concat_iff, notWhole]
  · rfl

theorem dropCR_append_cons (before : GoString) {c : UInt8} (other : c ≠ carriageReturn)
    (rest : GoString) : dropCR (before ++ c :: rest) = before ++ c :: dropCR rest := by
  rcases List.eq_nil_or_concat rest with rfl | ⟨start, last, rfl⟩
  · rw [dropCR, List.getLast?_concat, if_neg (by simpa using other)]
    rfl
  · rw [List.concat_eq_append, ← List.cons_append, ← List.append_assoc, dropCR, dropCR,
      List.getLast?_concat, List.getLast?_concat, List.dropLast_concat, List.dropLast_concat]
    split
    · rfl
    · rw [List.append_assoc, List.cons_append]

theorem fields_dropCR (data : GoString) : fields (dropCR data) = fields data := by
  rw [dropCR]
  split
  · rename_i isLast
    rcases List.getLast?_eq_some_iff.mp isLast with ⟨rest, rfl⟩
    have isSep : [carriageReturn] ∈ spaces.list := by decide +kernel
    have cut := Words.Separators.words_append_of_mem rest [] isSep
    simpa [fields] using cut.symm
  · rfl

end Lines

section Insertion

/-- Every line of the text is ended by a newline, so that a line can begin after it. -/
def IsBoundary (start : GoString) : Prop := start = [] ∨ start.getLast? = some newline

/-- The second text is the first one with a line inserted at one of its line boundaries: where a
line begins or the text ends, or after a last line without a newline. -/
inductive InsertLine (line : GoString) : GoString → GoString → Prop where
  | before (start rest : GoString) (boundary : IsBoundary start) :
      InsertLine line (start ++ rest) (start ++ (line ++ newline :: rest))
  | atEnd (start : GoString) (boundary : IsBoundary start) :
      InsertLine line start (start ++ line)
  | afterLast (start last : GoString) (boundary : IsBoundary start) (nonempty : last ≠ [])
      (single : newline ∉ last) :
      InsertLine line (start ++ last) (start ++ (last ++ newline :: line))

theorem IsBoundary.exists_rawLines {start : GoString} (boundary : IsBoundary start) :
    ∃ before, ∀ rest, rawLines (start ++ rest) = before ++ rawLines rest := by
  rcases boundary with rfl | ends
  · exact ⟨[], fun rest => rfl⟩
  · rcases List.getLast?_eq_some_iff.mp ends with ⟨complete, rfl⟩
    refine ⟨complete.splitOn newline, ?_⟩
    intro rest
    rw [List.append_assoc, List.singleton_append, rawLines_append_newline]

theorem rawLines_cons {line : GoString} (single : newline ∉ line) (rest : GoString) :
    rawLines (line ++ newline :: rest) = line :: rawLines rest := by
  rw [rawLines_append_newline, List.splitOn_eq_singleton single, List.singleton_append]

/-- The lines of the second text are those of the first with one more line, unless that line is an
empty end of the text. -/
theorem InsertLine.exists_rawLines {line r r' : GoString} (inserted : InsertLine line r r')
    (single : newline ∉ line) :
    ∃ before after, rawLines r = before ++ after ∧
      (rawLines r' = before ++ line :: after ∨ line = [] ∧ rawLines r' = before ++ after) := by
  cases inserted with
  | before start rest boundary =>
      rcases boundary.exists_rawLines with ⟨before, isBefore⟩
      refine ⟨before, rawLines rest, isBefore rest, Or.inl ?_⟩
      rw [isBefore, rawLines_cons single]
  | atEnd start boundary =>
      rcases boundary.exists_rawLines with ⟨before, isBefore⟩
      have whole := isBefore []
      rw [List.append_nil] at whole
      refine ⟨before, [], whole, ?_⟩
      rw [isBefore, rawLines_of_notMem single]
      by_cases empty : line = [] <;> simp [empty]
  | afterLast start last boundary nonempty singleLast =>
      rcases boundary.exists_rawLines with ⟨before, isBefore⟩
      refine ⟨before ++ [last], [], ?_, ?_⟩
      · rw [isBefore, rawLines_of_notMem singleLast, if_neg nonempty, List.append_nil]
      · rw [isBefore, rawLines_cons singleLast, rawLines_of_notMem single]
        by_cases empty : line = [] <;> simp [empty]

end Insertion

section Pieces

variable {State Err : Type} {fail : ScanError → Err} {before : GoString}

theorem IsBoundary.rawLines_append (boundary : IsBoundary before) (rest : GoString) :
    rawLines (before ++ rest) = rawLines before ++ rawLines rest := by
  rcases boundary.exists_rawLines with ⟨pieces, isPieces⟩
  have whole := isPieces []
  have empty : rawLines [] = [] := rfl
  rw [List.append_nil, empty, List.append_nil] at whole
  rw [isPieces, whole]

theorem scan_append_of_linesFit (boundary : IsBoundary before) (fits : LinesFit before)
    (rest : GoString) : scan (before ++ rest) = (lines before ++ (scan rest).1, (scan rest).2) := by
  have fitting : ∀ line ∈ rawLines before, decide (Fits line) = true := by
    simpa [LinesFit] using fits
  have same : LinesFit (before ++ rest) ↔ LinesFit rest := by
    simp only [LinesFit, boundary.rawLines_append, List.mem_append]
    constructor
    · exact fun all line present => all line (Or.inr present)
    · exact fun later line present => present.elim (fits line) (later line)
  simp [scan, boundary.rawLines_append, List.takeWhile_append_of_pos fitting, lines, same]

theorem scan_append_of_not_linesFit (boundary : IsBoundary before) (long : ¬LinesFit before)
    (rest : GoString) : scan (before ++ rest) = scan before := by
  have stops : ((rawLines before).takeWhile (Fits ·)).length ≠ (rawLines before).length := by
    intro whole
    apply long
    intro line present
    have all := List.takeWhile_eq_self_iff.mp
      ((List.takeWhile_prefix (l := rawLines before) (Fits ·)).eq_of_length whole)
    simpa using all line present
  have longer : ¬LinesFit (before ++ rest) := by
    intro all
    apply long
    intro line present
    apply all
    simp [boundary.rawLines_append, present]
  simp [scan, boundary.rawLines_append, List.takeWhile_append, stops, long, longer]

/-- A loop over the lines of a text may stop between two lines and go on from there. -/
theorem scanLines_append {body : State → GoString → Except Err State} (boundary : IsBoundary before)
    (start : State) (rest : GoString) :
    scanLines fail body start (before ++ rest) =
      (scanLines fail body start before).bind fun state => scanLines fail body state rest := by
  by_cases fits : LinesFit before
  · simp only [scanLines, scan_append_of_linesFit boundary fits, scan_eq fits, List.foldlM_append]
    cases (lines before).foldlM body start <;> rfl
  · simp only [scanLines, scan_append_of_not_linesFit boundary fits]
    cases (scan before).1.foldlM body start with
    | error err => rfl
    | ok state =>
        have stopped : (scan before).2 = some .errTooLong := if_neg fits
        simp only [stopped]
        rfl

variable {Value : Type} {body : List Value → GoString → Except Err (List Value)}

/-- The body appends what a line gives, whatever it has so far. -/
def RowWise (body : List Value → GoString → Except Err (List Value)) : Prop :=
  ∀ result line, body result line = (body [] line).map (result ++ ·)

theorem RowWise.foldlM_eq (rowWise : RowWise body) (rows : List GoString) (result : List Value) :
    rows.foldlM body result = (rows.foldlM body []).map (result ++ ·) := by
  induction rows generalizing result with
  | nil => simp [pure, Except.pure, Except.map]
  | cons row rows ih =>
      rw [List.foldlM_cons, List.foldlM_cons, rowWise]
      cases body [] row with
      | error err => rfl
      | ok entries =>
          change rows.foldlM body (result ++ entries) = (rows.foldlM body entries).map (result ++ ·)
          rw [ih, ih entries]
          cases rows.foldlM body [] with
          | error err => rfl
          | ok more => simp [Except.map]

theorem RowWise.scanLines_eq (rowWise : RowWise body) (result : List Value) (input : GoString) :
    scanLines fail body result input = (scanLines fail body [] input).map (result ++ ·) := by
  simp only [scanLines]
  rw [rowWise.foldlM_eq]
  cases (scan input).1.foldlM body [] with
  | error err => rfl
  | ok entries =>
      change (match (scan input).2 with
        | some err => Except.error (fail err)
        | none => .ok (result ++ entries)) = _
      cases (scan input).2 <;> rfl

end Pieces

end Sysmon.Go
