import Sysmon.Go.Fmt

/-!
# Sizes for readers

This file embeds `humanBytes`. Its loop divides the size by 1024 until less
than 1024 is left, and multiplies the divisor and counts the units on the way.
The quotient that is shown is an exact rational.

The unit is right for all sizes of 64 bits, and larger sizes are never shown as
smaller ones. But the unit is chosen by the quotient before it is rounded, and
a quotient just below 1024 is rounded to 1024.
-/

namespace Sysmon.Cmd

open Sysmon.Go

abbrev unit : UInt64 := 1024

/-- The loop of `humanBytes` from the variables `n`, `div` and `exp` on. -/
def humanBytesLoop (n div : UInt64) (exp : ℕ) : UInt64 × ℕ :=
  if unit ≤ n then humanBytesLoop (n / unit) (div * unit) (exp + 1)
  else (div, exp)
termination_by n.toNat
decreasing_by
  rename_i goesOn
  have large : 1024 ≤ n.toNat := UInt64.le_iff_toNat_le.mp goesOn
  rw [UInt64.toNat_div]
  exact Nat.div_lt_self (by omega) (by decide)

/-- `humanBytes`, without a result if the index of the unit is out of range. -/
def humanBytes (b : UInt64) : Option GoString :=
  if b < unit then some (formatDecimal b.toNat ++ text " B")
  else
    let (div, exp) := humanBytesLoop (b / unit) unit 0
    (text "KMGTPE")[exp]?.map fun c =>
      formatFixed1 (b.toNat / div.toNat) ++ (text " " ++ (c :: text "iB"))

section Loop

/-- The values that the variables of the loop take, from the first to the last test. -/
inductive Visits (b : UInt64) : UInt64 → UInt64 → ℕ → Prop where
  | start : Visits b (b / unit) unit 0
  | next {n div : UInt64} {exp : ℕ} (visited : Visits b n div exp) (goesOn : unit ≤ n) :
      Visits b (n / unit) (div * unit) (exp + 1)

/-- What links the three variables. -/
structure LoopInvariant (b n div : UInt64) (exp : ℕ) : Prop where
  power : div.toNat = 1024 ^ (exp + 1)
  quotient : n.toNat = b.toNat / 1024 ^ (exp + 1)
  reached : 1024 ^ (exp + 1) ≤ b.toNat

variable {b n div : UInt64} {exp : ℕ}

theorem LoopInvariant.reaches (invariant : LoopInvariant b n div exp) (goesOn : unit ≤ n) :
    1024 ^ (exp + 2) ≤ b.toNat := by
  have large : 1024 ≤ b.toNat / 1024 ^ (exp + 1) := by
    rw [← invariant.quotient]
    exact UInt64.le_iff_toNat_le.mp goesOn
  rw [pow_succ', ← Nat.le_div_iff_mul_le (by positivity)]
  exact large

/-- The product of the loop does not wrap. -/
theorem LoopInvariant.mul_lt (invariant : LoopInvariant b n div exp) (goesOn : unit ≤ n) :
    div.toNat * 1024 < 2 ^ 64 := by
  rw [invariant.power, ← pow_succ]
  exact (invariant.reaches goesOn).trans_lt b.toNat_lt

theorem LoopInvariant.next (invariant : LoopInvariant b n div exp) (goesOn : unit ≤ n) :
    LoopInvariant b (n / unit) (div * unit) (exp + 1) := by
  refine ⟨?_, ?_, invariant.reaches goesOn⟩
  · rw [UInt64.toNat_mul]
    change div.toNat * 1024 % 2 ^ 64 = _
    rw [Nat.mod_eq_of_lt (invariant.mul_lt goesOn), invariant.power, ← pow_succ]
  · rw [UInt64.toNat_div]
    change n.toNat / 1024 = _
    rw [invariant.quotient, Nat.div_div_eq_div_mul, ← pow_succ]

theorem Visits.invariant (large : unit ≤ b) (visited : Visits b n div exp) :
    LoopInvariant b n div exp := by
  induction visited with
  | start => exact ⟨rfl, UInt64.toNat_div _ _, UInt64.le_iff_toNat_le.mp large⟩
  | next visited goesOn ih => exact ih.next goesOn

/-- The loop ends with values that it visits. -/
theorem visits_humanBytesLoop (visited : Visits b n div exp) :
    ∃ last, Visits b last (humanBytesLoop n div exp).1 (humanBytesLoop n div exp).2 ∧
      last < unit := by
  induction n, div, exp using humanBytesLoop.induct with
  | case1 n div exp goesOn ih =>
      rw [humanBytesLoop, if_pos goesOn]
      exact ih (visited.next goesOn)
  | case2 n div exp ended =>
      rw [humanBytesLoop, if_neg ended]
      exact ⟨n, visited, UInt64.not_le.mp ended⟩

/-- A unit in whose range a size lies. -/
structure IsScale (b div : UInt64) (exp : ℕ) : Prop where
  exp_le : exp ≤ 5
  power : div.toNat = 1024 ^ (exp + 1)
  div_le : div ≤ b
  lt_next : b.toNat < 1024 * div.toNat

/-- What the loop leaves in `div` and `exp`. -/
def scale (b : UInt64) : UInt64 × ℕ := humanBytesLoop (b / unit) unit 0

theorem isScale_scale (large : unit ≤ b) : IsScale b (scale b).1 (scale b).2 := by
  rcases visits_humanBytesLoop (Visits.start (b := b)) with ⟨last, visited, ended⟩
  rw [← scale] at visited
  have invariant := visited.invariant large
  have power := invariant.power
  have reached := invariant.reached
  have quotient := invariant.quotient
  refine ⟨?_, power, ?_, ?_⟩
  · by_contra beyond
    have bound : 1024 ^ 7 ≤ b.toNat :=
      (Nat.pow_le_pow_right (by decide) (by omega)).trans reached
    exact absurd (bound.trans_lt b.toNat_lt) (by decide)
  · rw [UInt64.le_iff_toNat_le, power]
    exact reached
  · rw [power, ← Nat.div_lt_iff_lt_mul (by positivity), ← quotient]
    exact UInt64.lt_iff_toNat_lt.mp ended

end Loop

section Reading

/-- The units with their numbers of bytes. -/
def units : List (GoString × ℕ) :=
  [(text " B", 1),
    (text " KiB", 1024),
    (text " MiB", 1024 ^ 2),
    (text " GiB", 1024 ^ 3),
    (text " TiB", 1024 ^ 4),
    (text " PiB", 1024 ^ 5),
    (text " EiB", 1024 ^ 6)]

/-- The number before the unit. -/
def readNumber (s : GoString) : ℚ := readDecimal (s.takeWhile (· ≠ space))

/-- The number of bytes that a text denotes: its number times its unit. -/
def readBytes (s : GoString) : Option ℚ :=
  (units.lookup (s.dropWhile (· ≠ space))).map fun (bytes : ℕ) => readNumber s * bytes

theorem span_space {number : GoString} (clean : space ∉ number) (suffix : GoString) :
    (number ++ (space :: suffix)).takeWhile (· ≠ space) = number ∧
      (number ++ (space :: suffix)).dropWhile (· ≠ space) = space :: suffix := by
  have before : ∀ c ∈ number, decide (c ≠ space) = true := by
    intro c present
    exact decide_eq_true (ne_of_mem_of_not_mem present clean)
  rw [List.takeWhile_append_of_pos before, List.dropWhile_append_of_pos before]
  simp

theorem readNumber_append {number : GoString} (clean : space ∉ number) (suffix : GoString) :
    readNumber (number ++ (space :: suffix)) = readDecimal number := by
  rw [readNumber, (span_space clean suffix).1]

theorem readBytes_append {number suffix : GoString} {bytes : ℕ} (clean : space ∉ number)
    (isUnit : units.lookup (space :: suffix) = some bytes) :
    readBytes (number ++ (space :: suffix)) = some (readDecimal number * bytes) := by
  rw [readBytes, readNumber_append clean, (span_space clean suffix).2, isUnit, Option.map_some]

/-- The letter of a unit is found, and its text is read as a power of 1024. -/
theorem exists_unit {exp : ℕ} (inRange : exp ≤ 5) :
    ∃ c, (text "KMGTPE")[exp]? = some c ∧
      units.lookup (space :: c :: text "iB") = some (1024 ^ (exp + 1)) := by
  have known : ∀ exp < 6, ((text "KMGTPE")[exp]?.bind fun c =>
      units.lookup (space :: c :: text "iB")) = some (1024 ^ (exp + 1)) := by
    decide +kernel
  exact Option.bind_eq_some_iff.mp (known exp (by omega))

/-- The number that `humanBytes` shows in front of a unit. -/
def mantissa (b div : UInt64) : ℚ := roundedTenths (b.toNat / div.toNat) / 10

variable {b : UInt64}

theorem readBytes_humanBytes_of_lt (small : b < unit) :
    ∃ s, humanBytes b = some s ∧ readBytes s = some (b.toNat : ℚ) := by
  have unitText : text " B" = space :: text "B" := by decide
  have isUnit : units.lookup (space :: text "B") = some 1 := by decide +kernel
  refine ⟨_, if_pos small, ?_⟩
  rw [unitText, readBytes_append (space_notMem_formatDecimal b.toNat) isUnit,
    readDecimal_formatDecimal, Nat.cast_one, mul_one]

/-- From 1024 bytes on, the text is the quotient in front of the unit that the loop has counted. -/
theorem humanBytes_of_le (large : unit ≤ b) :
    ∃ c, (text "KMGTPE")[(scale b).2]? = some c ∧
      units.lookup (space :: c :: text "iB") = some (1024 ^ ((scale b).2 + 1)) ∧
      humanBytes b =
        some (formatFixed1 (b.toNat / (scale b).1.toNat) ++ (space :: c :: text "iB")) := by
  have spaceText : text " " = [space] := by decide
  rcases exists_unit (isScale_scale large).exp_le with ⟨c, found, isUnit⟩
  refine ⟨c, found, isUnit, ?_⟩
  rw [scale] at found
  rw [humanBytes, if_neg (UInt64.not_lt.mpr large), scale]
  simp only [found, Option.map_some, spaceText, List.singleton_append]

theorem read_humanBytes (large : unit ≤ b) :
    ∃ s, humanBytes b = some s ∧ readNumber s = mantissa b (scale b).1 ∧
      readBytes s = some (mantissa b (scale b).1 * (scale b).1.toNat) := by
  have clean := space_notMem_formatFixed1 (b.toNat / (scale b).1.toNat)
  rcases humanBytes_of_le large with ⟨c, _, isUnit, shown⟩
  refine ⟨_, shown, ?_, ?_⟩
  · rw [readNumber_append clean, readDecimal_formatFixed1, mantissa]
  · rw [readBytes_append clean isUnit, readDecimal_formatFixed1, mantissa,
      (isScale_scale large).power]

/-- The number of the text is the quotient to one decimal, and the letter of its unit is the one at
the index that the loop has counted. -/
theorem letter_humanBytes (large : unit ≤ b) :
    ∃ s c, humanBytes b = some s ∧ (text "KMGTPE")[(scale b).2]? = some c ∧
      s.dropWhile (· ≠ space) = text " " ++ c :: text "iB" ∧
      readNumber s = roundedTenths (b.toNat / (scale b).1.toNat) / 10 := by
  have clean := space_notMem_formatFixed1 (b.toNat / (scale b).1.toNat)
  have spaceText : text " " = [space] := by decide
  rcases humanBytes_of_le large with ⟨c, found, _, shown⟩
  refine ⟨_, c, shown, found, ?_, ?_⟩
  · rw [(span_space clean _).2, spaceText, List.singleton_append]
  · rw [readNumber_append clean, readDecimal_formatFixed1]

end Reading

section Order

variable {b b' div : UInt64} {exp : ℕ}

theorem IsScale.div_pos (isScale : IsScale b div exp) : (0 : ℚ) < div.toNat := by
  rw [isScale.power]
  positivity

theorem IsScale.lower (isScale : IsScale b div exp) : 1024 ^ (exp + 1) ≤ b.toNat := by
  rw [← isScale.power]
  exact UInt64.le_iff_toNat_le.mp isScale.div_le

theorem IsScale.upper (isScale : IsScale b div exp) : b.toNat < 1024 ^ (exp + 2) := by
  rw [pow_succ', ← isScale.power]
  exact isScale.lt_next

/-- A size that is shown in a unit is shown as one to 1024 of it. -/
theorem IsScale.mantissa_bounds (isScale : IsScale b div exp) :
    1 ≤ mantissa b div ∧ mantissa b div ≤ 1024 := by
  have positive := isScale.div_pos
  have lower : ((1 : ℕ) : ℚ) ≤ b.toNat / div.toNat := by
    rw [le_div_iff₀ positive, Nat.cast_one, one_mul]
    exact_mod_cast UInt64.le_iff_toNat_le.mp isScale.div_le
  have upper : (b.toNat / div.toNat : ℚ) ≤ (1024 : ℕ) := by
    rw [div_le_iff₀ positive]
    exact_mod_cast isScale.lt_next.le
  have atLeast : ((10 * 1 : ℕ) : ℚ) ≤ roundedTenths (b.toNat / div.toNat) :=
    Nat.cast_le.mpr (le_roundedTenths lower)
  have atMost : (roundedTenths (b.toNat / div.toNat) : ℚ) ≤ (10 * 1024 : ℕ) :=
    Nat.cast_le.mpr (roundedTenths_le upper)
  rw [mantissa]
  push_cast at atLeast atMost
  constructor <;> linarith

theorem mantissa_mono (ordered : b ≤ b') (div : UInt64) : mantissa b div ≤ mantissa b' div := by
  have quotients : (b.toNat / div.toNat : ℚ) ≤ b'.toNat / div.toNat := by
    apply div_le_div_of_nonneg_right _ (Nat.cast_nonneg _)
    exact_mod_cast UInt64.le_iff_toNat_le.mp ordered
  have tenths : (roundedTenths (b.toNat / div.toNat) : ℚ) ≤
      roundedTenths (b'.toNat / div.toNat) :=
    Nat.cast_le.mpr (roundedTenths_mono quotients)
  rw [mantissa, mantissa]
  linarith

theorem IsScale.exp_mono {div' : UInt64} {exp' : ℕ} (isScale : IsScale b div exp)
    (isScale' : IsScale b' div' exp') (ordered : b ≤ b') : exp ≤ exp' := by
  have sizes := UInt64.le_iff_toNat_le.mp ordered
  have powers := (Nat.pow_lt_pow_iff_right (by decide)).mp
    ((isScale.lower.trans sizes).trans_lt isScale'.upper)
  omega

/-- Larger sizes are shown as larger numbers of bytes, also in different units. -/
theorem IsScale.bytes_mono {div' : UInt64} {exp' : ℕ} (isScale : IsScale b div exp)
    (isScale' : IsScale b' div' exp') (ordered : b ≤ b') :
    mantissa b div * div.toNat ≤ mantissa b' div' * div'.toNat := by
  rcases (isScale.exp_mono isScale' ordered).eq_or_lt with same | smaller
  · have sameDiv : div = div' := by
      rw [← UInt64.toNat_inj, isScale.power, isScale'.power, same]
    rw [← sameDiv]
    exact mul_le_mul_of_nonneg_right (mantissa_mono ordered div) (Nat.cast_nonneg _)
  · -- The larger of the units is at least 1024 of the smaller ones.
    have units : 1024 * div.toNat ≤ div'.toNat := by
      rw [isScale.power, isScale'.power, ← pow_succ']
      exact Nat.pow_le_pow_right (by decide) (by omega)
    calc
      mantissa b div * div.toNat ≤ 1024 * div.toNat :=
        mul_le_mul_of_nonneg_right isScale.mantissa_bounds.2 (Nat.cast_nonneg _)
      _ ≤ div'.toNat := by exact_mod_cast units
      _ ≤ mantissa b' div' * div'.toNat :=
        le_mul_of_one_le_left (Nat.cast_nonneg _) isScale'.mantissa_bounds.1

theorem IsScale.unit_le_bytes (isScale : IsScale b div exp) :
    (1024 : ℚ) ≤ mantissa b div * div.toNat := by
  have smallest : 1024 ≤ div.toNat := by
    rw [isScale.power, pow_succ']
    exact Nat.le_mul_of_pos_right _ (by positivity)
  calc
    (1024 : ℚ) ≤ div.toNat := by exact_mod_cast smallest
    _ ≤ mantissa b div * div.toNat :=
      le_mul_of_one_le_left (Nat.cast_nonneg _) isScale.mantissa_bounds.1

theorem readBytes_humanBytes_mono (ordered : b ≤ b') :
    ∃ s s' bytes bytes', humanBytes b = some s ∧ humanBytes b' = some s' ∧
      readBytes s = some bytes ∧ readBytes s' = some bytes' ∧ bytes ≤ bytes' := by
  rcases UInt64.lt_or_le b unit with small | large
  · rcases readBytes_humanBytes_of_lt small with ⟨s, shown, isBytes⟩
    rcases UInt64.lt_or_le b' unit with small' | large'
    · rcases readBytes_humanBytes_of_lt small' with ⟨s', shown', isBytes'⟩
      refine ⟨s, s', _, _, shown, shown', isBytes, isBytes', ?_⟩
      exact_mod_cast UInt64.le_iff_toNat_le.mp ordered
    · rcases read_humanBytes large' with ⟨s', shown', _, isBytes'⟩
      refine ⟨s, s', _, _, shown, shown', isBytes, isBytes', ?_⟩
      have below : (b.toNat : ℚ) ≤ 1024 := by
        exact_mod_cast (UInt64.lt_iff_toNat_lt.mp small).le
      exact below.trans (isScale_scale large').unit_le_bytes
  · have large' := UInt64.le_trans large ordered
    rcases read_humanBytes large with ⟨s, shown, _, isBytes⟩
    rcases read_humanBytes large' with ⟨s', shown', _, isBytes'⟩
    refine ⟨s, s', _, _, shown, shown', isBytes, isBytes', ?_⟩
    exact (isScale_scale large).bytes_mono (isScale_scale large') ordered

/-- `humanBytes` picks a unit for every size of 64 bits without wrapping and shows the size in this
unit, and what its texts denote grows with the size. -/
theorem humanBytes_spec :
    (∀ b, unit ≤ b → IsScale b (scale b).1 (scale b).2 ∧
      (∀ n div exp, Visits b n div exp → LoopInvariant b n div exp ∧
        (unit ≤ n → div.toNat * 1024 < 2 ^ 64)) ∧
      (∃ last, Visits b last (scale b).1 (scale b).2 ∧ last < unit) ∧
      ∃ s c, humanBytes b = some s ∧ (text "KMGTPE")[(scale b).2]? = some c ∧
        s.dropWhile (· ≠ space) = text " " ++ c :: text "iB" ∧
        readNumber s = roundedTenths (b.toNat / (scale b).1.toNat) / 10) ∧
    ∀ b b', b ≤ b' →
      ∃ s s' bytes bytes', humanBytes b = some s ∧ humanBytes b' = some s' ∧
        readBytes s = some bytes ∧ readBytes s' = some bytes' ∧ bytes ≤ bytes' := by
  refine ⟨?_, fun b b' => readBytes_humanBytes_mono⟩
  intro b large
  refine ⟨isScale_scale large, ?_, visits_humanBytesLoop .start, letter_humanBytes large⟩
  intro n div exp visited
  have invariant := visited.invariant large
  exact ⟨invariant, invariant.mul_lt⟩

/-- One byte less than a mebibyte, and a mebibyte. -/
theorem humanBytes_spec_instance :
    IsScale 1048576 (scale 1048576).1 (scale 1048576).2 ∧
      ∃ s s' bytes bytes', humanBytes 1048575 = some s ∧ humanBytes 1048576 = some s' ∧
        readBytes s = some bytes ∧ readBytes s' = some bytes' ∧ bytes ≤ bytes' := by
  constructor
  · exact (humanBytes_spec.1 1048576 (by decide)).1
  · exact humanBytes_spec.2 1048575 1048576 (by decide)

end Order

section Normalised

variable {b div : UInt64} {exp : ℕ}

theorem IsScale.mantissa_lt_iff (isScale : IsScale b div exp) :
    mantissa b div < 1024 ↔ 20 * b.toNat < 20479 * div.toNat := by
  have positive := isScale.div_pos
  have tenths : mantissa b div < 1024 ↔ roundedTenths (b.toNat / div.toNat) < 10240 := by
    rw [mantissa, div_lt_iff₀ (by norm_num)]
    norm_num
  have midpoint : 10240 ≤ roundedTenths (b.toNat / div.toNat) ↔
      ((10240 : ℕ) : ℚ) - 1 / 2 ≤ b.toNat / div.toNat * 10 :=
    le_roundedTenths_iff (by decide) (by decide)
  rw [tenths, ← not_le, midpoint, not_le, div_mul_eq_mul_div, div_lt_iff₀ positive]
  constructor
  · intro below
    have scaled : (20 * b.toNat : ℚ) < 20479 * div.toNat := by linarith
    exact_mod_cast scaled
  · intro below
    have scaled : (20 * b.toNat : ℚ) < 20479 * div.toNat := by exact_mod_cast below
    push_cast
    linarith

theorem IsScale.eq_of_lt {k : ℕ} (isScale : IsScale b div exp) (lower : 1024 ^ k ≤ b.toNat)
    (upper : b.toNat < 1024 ^ (k + 1)) : k = exp + 1 := by
  have atMost := (Nat.pow_lt_pow_iff_right (by decide)).mp (lower.trans_lt isScale.upper)
  have atLeast := (Nat.pow_lt_pow_iff_right (by decide)).mp (isScale.lower.trans_lt upper)
  omega

/-- The number before a unit is below 1024 if and only if the size is not less than a twentieth of
the unit below the next one. -/
theorem humanBytes_normalised_iff (large : unit ≤ b) :
    (∃ s, humanBytes b = some s ∧ 1 ≤ readNumber s ∧ readNumber s < 1024) ↔
      ¬∃ k, 1 ≤ k ∧ 20479 * 1024 ^ k ≤ 20 * b.toNat ∧ b.toNat < 1024 ^ (k + 1) := by
  have isScale := isScale_scale large
  have reached := isScale.mantissa_lt_iff
  rcases read_humanBytes large with ⟨s, shown, isNumber, _⟩
  have normalised : (∃ s, humanBytes b = some s ∧ 1 ≤ readNumber s ∧ readNumber s < 1024) ↔
      20 * b.toNat < 20479 * 1024 ^ ((scale b).2 + 1) := by
    rw [← isScale.power, ← reached, ← isNumber]
    constructor
    · rintro ⟨other, shownOther, _, below⟩
      rw [shown, Option.some.injEq] at shownOther
      rwa [shownOther]
    · intro below
      refine ⟨s, shown, ?_, below⟩
      rw [isNumber]
      exact isScale.mantissa_bounds.1
  rw [normalised, ← not_le, not_iff_not]
  constructor
  · intro reaches
    exact ⟨(scale b).2 + 1, by omega, reaches, isScale.upper⟩
  · rintro ⟨k, _, reaches, upper⟩
    rw [← isScale.eq_of_lt (by omega) upper]
    exact reaches

theorem humanBytes_normalised_iff_instance :
    ∃ s, humanBytes 1536 = some s ∧ 1 ≤ readNumber s ∧ readNumber s < 1024 := by
  apply (humanBytes_normalised_iff (by decide)).mpr
  rintro ⟨k, positive, reaches, _⟩
  have unitLe : 1024 ^ 1 ≤ 1024 ^ k := Nat.pow_le_pow_right (by decide) positive
  have size : (1536 : UInt64).toNat = 1536 := rfl
  omega

/-- One byte less than a mebibyte is shown as 1024 kibibytes. -/
theorem humanBytes_not_normalised :
    unit ≤ (1048575 : UInt64) ∧ humanBytes 1048575 = some (text "1024.0 KiB") ∧
      ¬readNumber (text "1024.0 KiB") < 1024 := by
  refine ⟨by decide, ?_, by decide +kernel⟩
  rw [humanBytes, if_neg (by decide), humanBytesLoop, if_neg (by decide)]
  decide +kernel

end Normalised

end Sysmon.Cmd
