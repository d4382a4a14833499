import Mathlib.Data.List.DropRight
import Sysmon.Go.Fmt

/-!
# Reading a text back

This file cuts a text at the first or at the last occurrence of a byte, so that
what has been printed can be compared with what is read. A name may contain any
byte, and what stands to its right is found from the end of its line.
-/

namespace Sysmon.Go

abbrev percentSign : UInt8 := 37

abbrev openingParen : UInt8 := 40

abbrev closingParen : UInt8 := 41

abbrev slash : UInt8 := 47

abbrev openingBracket : UInt8 := 91

abbrev closingBracket : UInt8 := 93

/-! ## The first occurrence -/

def upTo (c : UInt8) (s : GoString) : GoString := s.takeWhile (· ≠ c)

def beyond (c : UInt8) (s : GoString) : GoString := (s.dropWhile (· ≠ c)).drop 1

theorem span_append_cons {c : UInt8} {first : GoString} (clean : c ∉ first) (rest : GoString) :
    upTo c (first ++ c :: rest) = first ∧ beyond c (first ++ c :: rest) = rest := by
  have goesOn : ∀ other ∈ first, decide (other ≠ c) = true := by
    intro other present
    exact decide_eq_true (ne_of_mem_of_not_mem present clean)
  rw [upTo, beyond, List.takeWhile_append_of_pos goesOn, List.dropWhile_append_of_pos goesOn]
  simp

/-! ## The last occurrence -/

def upToLast (c : UInt8) (s : GoString) : GoString := (s.rdropWhile (· ≠ c)).dropLast

def beyondLast (c : UInt8) (s : GoString) : GoString := s.rtakeWhile (· ≠ c)

theorem rspan_append_cons {c : UInt8} {rest : GoString} (clean : c ∉ rest) (first : GoString) :
    upToLast c (first ++ c :: rest) = first ∧ beyondLast c (first ++ c :: rest) = rest := by
  have goesOn : ∀ other ∈ rest.reverse, decide (other ≠ c) = true := by
    intro other present
    exact decide_eq_true (ne_of_mem_of_not_mem (List.mem_reverse.mp present) clean)
  have backwards : (first ++ c :: rest).reverse = rest.reverse ++ c :: first.reverse := by
    simp
  rw [upToLast, beyondLast, List.rdropWhile, List.rtakeWhile, backwards,
    List.takeWhile_append_of_pos goesOn, List.dropWhile_append_of_pos goesOn]
  simp

/-! ## Blanks -/

/-- The text without the blanks at its end. -/
def trimBlanks (s : GoString) : GoString := s.rdropWhile (· = space)

theorem trimBlanks_padRight (width : ℕ) (s : GoString) :
    trimBlanks (padRight width s) = trimBlanks s := by
  have blanks : ∀ c ∈ List.replicate (width - runeCount s) space, decide (c = space) = true := by
    intro c present
    exact decide_eq_true (List.eq_of_mem_replicate present)
  rw [trimBlanks, padRight, List.rdropWhile, List.reverse_append, List.reverse_replicate,
    List.dropWhile_append_of_pos blanks]
  rfl

theorem trimBlanks_concat (s : GoString) : trimBlanks (s ++ [space]) = trimBlanks s :=
  List.rdropWhile_concat_pos _ _ _ (by simp)

end Sysmon.Go
