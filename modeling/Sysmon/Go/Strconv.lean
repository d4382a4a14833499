import Sysmon.Go.Strings

/-!
# Package `strconv`

This file embeds `strconv.ParseUint` for base 10 and 64 bits. It reads the
digits from the left and stops at the first byte that is not a digit or that
takes the number beyond 64 bits, so that exactly the non-empty strings of
digits with a value below `2 ^ 64` are accepted. What `%d` prints is read back.
-/

namespace Sysmon.Go

inductive NumErrorKind where
  | errSyntax
  | errRange
deriving DecidableEq

/-- `*strconv.NumError` of `ParseUint`. -/
structure NumError where
  num : GoString
  err : NumErrorKind
deriving DecidableEq

def NumErrorKind.error : NumErrorKind → GoString
  | errSyntax => text "invalid syntax"
  | errRange => text "value out of range"

/-- `NumError.Error`, where `quote` is `strconv.Quote`. -/
def NumError.error (quote : GoString → GoString) (e : NumError) : GoString :=
  text "strconv.ParseUint: parsing " ++ quote e.num ++ text ": " ++ e.err.error

def isDigit (c : UInt8) : Bool := 48 ≤ c && c ≤ 57

def appendDigit (n : ℕ) (c : UInt8) : ℕ := n * 10 + (c.toNat - 48)

def parseDigits (n : ℕ) : GoString → Except NumErrorKind ℕ
  | [] => .ok n
  | c :: rest =>
    if isDigit c then
      let n := appendDigit n c
      if 2 ^ 64 ≤ n then .error .errRange else parseDigits n rest
    else .error .errSyntax

/-- `strconv.ParseUint(s, 10, 64)`. -/
def parseUint (s : GoString) : Except NumError UInt64 :=
  if s = [] then .error { num := s, err := .errSyntax }
  else
    match parseDigits 0 s with
    | .ok n => .ok (UInt64.ofNat n)
    | .error err => .error { num := s, err := err }

/-- The number that a string of digits stands for. -/
def decimalValue (s : GoString) : ℕ :=
  s.foldl appendDigit 0

/-- A decimal number below `2 ^ 64`. -/
def IsUint64 (s : GoString) : Prop :=
  s ≠ [] ∧ (∀ c ∈ s, isDigit c) ∧ decimalValue s < 2 ^ 64

instance : DecidablePred IsUint64 := fun s =>
  decidable_of_iff (s ≠ [] ∧ s.all isDigit ∧ decimalValue s < 2 ^ 64)
    (by rw [IsUint64, List.all_eq_true])

section ParseUint

theorem le_foldl_digits (n : ℕ) (s : GoString) :
    n ≤ s.foldl appendDigit n := by
  induction s generalizing n with
  | nil => exact le_rfl
  | cons c rest ih =>
      have later := ih (appendDigit n c)
      rw [List.foldl_cons]
      rw [appendDigit] at later ⊢
      omega

theorem parseDigits_of_lt {n : ℕ} {s : GoString} (digits : ∀ c ∈ s, isDigit c)
    (bound : s.foldl appendDigit n < 2 ^ 64) :
    parseDigits n s = .ok (s.foldl appendDigit n) := by
  induction s generalizing n with
  | nil => rfl
  | cons c rest ih =>
      rw [List.foldl_cons] at bound ⊢
      have fits := (le_foldl_digits (appendDigit n c) rest).trans_lt bound
      rw [parseDigits, if_pos (digits c (by simp))]
      simp only
      rw [if_neg fits.not_ge]
      exact ih (fun c present => digits c (by simp [present])) bound

theorem parseDigits_eq_ok {n value : ℕ} {s : GoString} (start : n < 2 ^ 64)
    (accepted : parseDigits n s = .ok value) :
    (∀ c ∈ s, isDigit c) ∧ s.foldl appendDigit n = value ∧
      value < 2 ^ 64 := by
  induction s generalizing n with
  | nil =>
      rw [parseDigits, Except.ok.injEq] at accepted
      subst accepted
      simpa using start
  | cons c rest ih =>
      rw [parseDigits] at accepted
      split at accepted
      · rename_i digit
        simp only at accepted
        split at accepted
        · exact absurd accepted (by simp)
        · rename_i fits
          have later := ih (not_le.mp fits) accepted
          simpa [digit] using later
      · exact absurd accepted (by simp)

theorem parseUint_of_isUint64 {s : GoString} (isUint64 : IsUint64 s) :
    parseUint s = .ok (UInt64.ofNat (decimalValue s)) := by
  rcases isUint64 with ⟨nonempty, digits, bound⟩
  rw [parseUint, if_neg nonempty, parseDigits_of_lt digits bound]
  rfl

theorem parseUint_eq_ok_iff {s : GoString} {v : UInt64} :
    parseUint s = .ok v ↔ IsUint64 s ∧ v = UInt64.ofNat (decimalValue s) := by
  constructor
  · intro accepted
    have isUint64 : IsUint64 s := by
      rw [parseUint] at accepted
      split at accepted
      · exact absurd accepted (by simp)
      · rename_i nonempty
        cases parsed : parseDigits 0 s with
        | error err => simp [parsed] at accepted
        | ok n =>
            rcases parseDigits_eq_ok (by decide) parsed with ⟨digits, isValue, bound⟩
            exact ⟨nonempty, digits, isValue.trans_lt bound⟩
    rw [parseUint_of_isUint64 isUint64, Except.ok.injEq] at accepted
    exact ⟨isUint64, accepted.symm⟩
  · rintro ⟨isUint64, rfl⟩
    exact parseUint_of_isUint64 isUint64

theorem exists_parseUint_eq_error {s : GoString} (notUint64 : ¬IsUint64 s) :
    ∃ err, parseUint s = .error err := by
  cases parsed : parseUint s with
  | error err => exact ⟨err, rfl⟩
  | ok v => exact absurd (parseUint_eq_ok_iff.mp parsed).1 notUint64

theorem toNat_decimalValue {s : GoString} (isUint64 : IsUint64 s) :
    (UInt64.ofNat (decimalValue s)).toNat = decimalValue s :=
  UInt64.toNat_ofNat_of_lt' isUint64.2.2

end ParseUint

section FormatDecimal

theorem toNat_digit {digit : ℕ} (small : digit < 10) :
    (UInt8.ofNat (48 + digit)).toNat = 48 + digit :=
  UInt8.toNat_ofNat_of_lt' (by rw [UInt8.size]; omega)

theorem isDigit_iff {c : UInt8} : isDigit c ↔ 48 ≤ c.toNat ∧ c.toNat ≤ 57 := by
  simp [isDigit, UInt8.le_iff_toNat_le]

theorem isDigit_of_mem_formatDecimal {number : ℕ} {c : UInt8} (present : c ∈ formatDecimal number) :
    isDigit c := by
  rw [formatDecimal] at present
  split at present
  · exact List.all_eq_true.mp (by decide : (text "0").all isDigit) c present
  · rcases List.mem_map.mp present with ⟨digit, isDigitOf, rfl⟩
    have small : digit < 10 := Nat.digits_lt_base (by decide) (List.mem_reverse.mp isDigitOf)
    rw [isDigit_iff, toNat_digit small]
    omega

theorem formatDecimal_ne_nil (number : ℕ) : formatDecimal number ≠ [] := by
  rw [formatDecimal]
  split
  · decide
  · rename_i nonzero
    simpa [Nat.digits_eq_nil_iff_eq_zero] using nonzero

theorem foldl_digits_reverse {digits : List ℕ} (small : ∀ digit ∈ digits, digit < 10) :
    decimalValue (digits.reverse.map fun digit => UInt8.ofNat (48 + digit)) =
      Nat.ofDigits 10 digits := by
  induction digits with
  | nil => rfl
  | cons digit digits ih =>
      have value := ih fun digit present => small digit (by simp [present])
      rw [decimalValue] at value
      rw [decimalValue, List.reverse_cons, List.map_append, List.foldl_append, value,
        Nat.ofDigits_cons]
      simp only [List.map_cons, List.map_nil, List.foldl_cons, List.foldl_nil, appendDigit,
        toNat_digit (small digit (by simp))]
      omega

@[simp]
theorem decimalValue_formatDecimal (number : ℕ) : decimalValue (formatDecimal number) = number := by
  rw [formatDecimal]
  split
  · rename_i zero
    rw [zero]
    rfl
  · rw [foldl_digits_reverse fun digit present => Nat.digits_lt_base (by decide) present,
      Nat.ofDigits_digits]

theorem isUint64_formatDecimal (v : UInt64) : IsUint64 (formatDecimal v.toNat) := by
  refine ⟨formatDecimal_ne_nil _, fun c present => isDigit_of_mem_formatDecimal present, ?_⟩
  rw [decimalValue_formatDecimal]
  exact v.toNat_lt

/-- A printed number ends where the digits end. -/
theorem span_formatDecimal (number : ℕ) (rest : GoString)
    (stops : rest.head?.any isDigit = false) :
    (formatDecimal number ++ rest).takeWhile isDigit = formatDecimal number ∧
      (formatDecimal number ++ rest).dropWhile isDigit = rest := by
  have digits : ∀ c ∈ formatDecimal number, isDigit c := by
    intro c present
    exact isDigit_of_mem_formatDecimal present
  simp only [List.takeWhile_append_of_pos digits, List.dropWhile_append_of_pos digits]
  cases rest with
  | nil => simp
  | cons c rest =>
      have notDigit : isDigit c = false := by simpa using stops
      simp [notDigit]

/-- A string of digits holds no white space. -/
theorem isWord_of_isUint64 {s : GoString} (isUint64 : IsUint64 s) : spaces.IsWord s := by
  refine ⟨isUint64.1, ?_⟩
  intro sep isSep isInfix
  have noDigit : ∀ sep ∈ spaces.list, sep.head?.any isDigit = false := by decide +kernel
  cases sep with
  | nil => exact spaces.nonempty isSep
  | cons c sep =>
      have digit := isUint64.2.1 c (isInfix.subset (by simp))
      have notDigit := noDigit _ isSep
      simp [digit] at notDigit

end FormatDecimal

end Sysmon.Go
