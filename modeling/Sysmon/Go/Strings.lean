import Sysmon.Go.Values
import Sysmon.Library.Words

/-!
# Package `strings`

This file embeds the functions of `strings` with which the parsers take lines
apart. White space is that of `unicode.IsSpace`: in a UTF-8 string its
characters are the separators `spaces`, none of which begins inside the
encoding of another character, so that looking for their encodings from left to
right finds exactly the characters that decoding the string finds.
-/

namespace Sysmon.Go

/-- The encodings of the characters for which `unicode.IsSpace` holds. -/
def spaceEncodings : List GoString :=
  [[0x09], [0x0A], [0x0B], [0x0C], [0x0D], [0x20], [0xC2, 0x85], [0xC2, 0xA0],
    [0xE1, 0x9A, 0x80], [0xE2, 0x80, 0x80], [0xE2, 0x80, 0x81], [0xE2, 0x80, 0x82],
    [0xE2, 0x80, 0x83], [0xE2, 0x80, 0x84], [0xE2, 0x80, 0x85], [0xE2, 0x80, 0x86],
    [0xE2, 0x80, 0x87], [0xE2, 0x80, 0x88], [0xE2, 0x80, 0x89], [0xE2, 0x80, 0x8A],
    [0xE2, 0x80, 0xA8], [0xE2, 0x80, 0xA9], [0xE2, 0x80, 0xAF], [0xE2, 0x81, 0x9F],
    [0xE3, 0x80, 0x80]]

def spaces : Words.Separators UInt8 where
  list := spaceEncodings
  nonempty := by decide
  prefixFree := by decide +kernel
  apart := by
    intro sep isSep other isOther item isHead
    -- The first byte of an encoding never continues a character.
    have first : ∀ sep ∈ spaceEncodings, sep.head?.all (fun c => c < 0x80 || 0xC0 ≤ c) = true := by
      decide +kernel
    have continued : ∀ sep ∈ spaceEncodings,
        sep.tail.all (fun c => 0x80 ≤ c && c < 0xC0) = true := by
      decide +kernel
    have isFirst := first sep isSep
    rw [Option.mem_def.mp isHead] at isFirst
    intro present
    have isContinued := List.all_eq_true.mp (continued other isOther) item present
    simp only [Option.all_some, Bool.or_eq_true, decide_eq_true_eq, Bool.and_eq_true,
      UInt8.lt_iff_toNat_lt, UInt8.le_iff_toNat_le] at isFirst isContinued
    omega

/-- `strings.Fields`: the words between runs of white space. -/
def fields (s : GoString) : List GoString := spaces.words s

def trimSpace (s : GoString) : GoString := spaces.trim s

def trimSuffix (s suffix : GoString) : GoString :=
  if suffix <:+ s then s.take (s.length - suffix.length) else s

def hasPrefix (s start : GoString) : Bool := decide (start <+: s)

def indexByte (s : GoString) (c : UInt8) : Option ℕ := s.findIdx? (· = c)

/-- `strings.Repeat`, which panics at a negative count. -/
def repeatString (s : GoString) (count : ℤ) : Option GoString :=
  if count < 0 then none else some (List.replicate count.toNat s).flatten

theorem repeatString_natCast (s : GoString) (count : ℕ) :
    repeatString s count = some (List.replicate count s).flatten := by
  rw [repeatString, if_neg (Int.natCast_nonneg count).not_gt, Int.toNat_natCast]

theorem indexByte_of_notMem {before : GoString} {c : UInt8} (absent : c ∉ before) :
    indexByte before c = none := by
  rw [indexByte, List.findIdx?_eq_none_iff]
  intro other present
  exact decide_eq_false (ne_of_mem_of_not_mem present absent)

/-- The first `c` of a string is found. -/
theorem indexByte_append_cons {before : GoString} {c : UInt8} (absent : c ∉ before)
    (rest : GoString) : indexByte (before ++ c :: rest) c = some before.length := by
  have notBefore := indexByte_of_notMem absent
  rw [indexByte] at notBefore
  rw [indexByte, List.findIdx?_append, notBefore, List.findIdx?_cons]
  simp

example : fields (text " cpu\t1  2\u00a03 \n") = [text "cpu", text "1", text "2", text "3"] := by
  decide +kernel

example : trimSpace (text " \t16 kB\r\n") = text "16 kB" := by
  decide +kernel

end Sysmon.Go
