import EventRelay.Json.Token
import EventRelay.Proofs.Text.Utf8

namespace EventRelay.Json

/-!
# Numerals

A whole number of 64 bits is written with its digits, none of them a leading
zero, and is read back from them.  A number is read as a whole one if and only
if it is written with digits alone and has 64 bits.
-/

open Text.Utf8 (encode encodeChar)

/-- The decimal digits of a number, with no leading zero. -/
structure Spells (digits : List Nat) (value : Nat) : Prop where
  small : ∀ digit ∈ digits, digit < 10
  value : Text.ofDigits 10 digits = value
  filled : digits ≠ []
  lead : ∀ rest, digits = 0 :: rest → rest = []

namespace Spells

/-- A digit spells its value. -/
private theorem single {digit : Nat} (small : digit < 10) : Spells [digit] digit where
  small other isMember :=
    List.mem_singleton.mp isMember ▸ small
  value := by
    simp [Text.ofDigits]
  filled :=
    List.cons_ne_nil _ _
  lead _ same :=
    (List.cons.inj same).2.symm

/-- A further digit makes the value ten times as great and adds itself. -/
private theorem snoc
    {digits : List Nat}
    {value digit : Nat}
    (spells : Spells digits value)
    (positive : 0 < value)
    (small : digit < 10) :
    Spells (digits ++ [digit]) (value * 10 + digit) where
  small other isMember := by
    rcases List.mem_append.mp isMember with earlier | last
    · exact spells.small other earlier
    · exact List.mem_singleton.mp last ▸ small
  value := by
    rw [← spells.value, Text.ofDigits, List.foldl_append]
    rfl
  filled :=
    List.concat_ne_nil _ _
  lead rest same := by
    -- The digits so far start with a zero as well, so they are a zero alone.
    cases digits with
    | nil =>
        exact absurd rfl spells.filled
    | cons first others =>
        obtain ⟨rfl, -⟩ := List.cons.inj same
        obtain rfl := spells.lead others rfl
        exact absurd spells.value.symm (Nat.ne_of_gt positive)

end Spells

/-- The decimal text of a number consists of digits that spell it. -/
private theorem exists_spells (value : Nat) :
    ∃ digits,
      Spells digits value ∧
        Text.decimalText value = digits.map Nat.digitChar := by
  induction value using Nat.strongRecOn with
  | ind value inductionHypothesis =>
      rw [Text.decimalText, Nat.toDigits_eq_if (by decide)]
      split
      · next small =>
          exact ⟨[value], .single small, rfl⟩
      · next large =>
          have atLeast : 10 ≤ value := Nat.not_lt.mp large
          have positive : 0 < value / 10 := Nat.div_pos atLeast (by decide)
          obtain ⟨digits, spells, written⟩ :=
            inductionHypothesis (value / 10)
              (Nat.div_lt_self (Nat.lt_of_lt_of_le (by decide) atLeast)
                (by decide))
          refine ⟨digits ++ [value % 10], ?_, ?_⟩
          · have longer := spells.snoc positive (Nat.mod_lt value (by decide))
            rwa [Nat.div_add_mod' value 10] at longer
          · rw [List.map_append, ← written]
            rfl

/-- Reading further digits never makes a value smaller. -/
private theorem le_foldl_digits (digits : List Nat) (value : Nat) :
    value ≤ digits.foldl (fun value digit => value * 10 + digit) value := by
  induction digits generalizing value with
  | nil =>
      exact Nat.le_refl value
  | cons digit digits inductionHypothesis =>
      have grows : value ≤ value * 10 + digit := by omega
      exact Nat.le_trans grows (inductionHypothesis _)

/-- Digits of a number within the bound are all taken. -/
theorem accumulate_of_le
    {bound : Nat}
    (digits : List Nat)
    (significand : Nat)
    (fits : digits.foldl (fun value digit => value * 10 + digit) significand ≤
      bound) :
    accumulate bound significand digits =
      (digits.foldl (fun value digit => value * 10 + digit) significand,
        []) := by
  induction digits generalizing significand with
  | nil =>
      rfl
  | cons digit digits inductionHypothesis =>
      have within : significand * 10 + digit ≤ bound :=
        Nat.le_trans (le_foldl_digits digits _) fits
      rw [accumulate, if_neg (Nat.not_lt.mpr within)]
      exact inductionHypothesis _ fits

/-- Digits of a value that fits are all taken into the significand. -/
private theorem Spells.accumulate
    {digits : List Nat}
    {value : Nat}
    (spells : Spells digits value)
    (fits : value ≤ maxWhole) :
    accumulate maxWhole 0 digits = (value, []) := by
  have total : Text.ofDigits 10 digits ≤ maxWhole := spells.value ▸ fits
  rw [accumulate_of_le digits 0 total]
  exact congrArg (·, []) spells.value

/-- No digits are left over if and only if the number is within the bound. -/
theorem accumulate_eq_nil_iff
    {bound significand : Nat}
    (within : significand ≤ bound)
    (digits : List Nat) :
    (accumulate bound significand digits).2 = [] ↔
      digits.foldl (fun value digit => value * 10 + digit) significand ≤
        bound := by
  induction digits generalizing significand with
  | nil =>
      simpa [accumulate] using within
  | cons digit digits inductionHypothesis =>
      rw [accumulate, List.foldl_cons]
      split
      · next beyond =>
          have grows := le_foldl_digits digits (significand * 10 + digit)
          exact iff_of_false (List.cons_ne_nil _ _)
            (Nat.not_le.mpr (Nat.lt_of_lt_of_le beyond grows))
      · next fits =>
          exact inductionHypothesis (Nat.not_lt.mp fits)

namespace Number

/-- Whether a whole number has 64 bits, with or without a sign. -/
def InRange : Number → Prop
  | .whole value =>
      minWhole ≤ value ∧ value ≤ maxWhole
  | .real _ =>
      True

/-- Whether a number is no floating-point number. -/
def IsWhole : Number → Prop
  | .whole _ =>
      True
  | .real _ =>
      False

/-- Whether a number is whole and has 64 bits. -/
def IsExact (number : Number) : Prop :=
  number.IsWhole ∧ number.InRange

end Number

namespace NumberText

/-- The whole number of the sign and the digits before the point. -/
def signed (text : NumberText) : Int :=
  if text.negative then
    -(Text.ofDigits 10 text.whole : Int)
  else
    Text.ofDigits 10 text.whole

/-- Digits alone are a whole number if they fit; all else is real. -/
private theorem value?_eq (text : NumberText) :
    text.value? =
      if text.fraction = [] ∧ text.exponent = none ∧
          Text.ofDigits 10 text.whole ≤ maxWhole then
        if text.negative = true ∧
            (Text.ofDigits 10 text.whole = 0 ∨
              9223372036854775808 < Text.ofDigits 10 text.whole) then
          some (.real (Binary64.ofWord true (Text.ofDigits 10 text.whole)))
        else
          some (.whole text.signed)
      else
        text.real?.map .real := by
  by_cases fits : Text.ofDigits 10 text.whole ≤ maxWhole
  · have taken : accumulate maxWhole 0 text.whole =
        (Text.ofDigits 10 text.whole, []) :=
      accumulate_of_le text.whole 0 fits
    cases sign : text.negative <;>
      simp [value?, taken, fits, sign, signed]
  · have dropped : (accumulate maxWhole 0 text.whole).2 ≠ [] :=
      fun none => fits ((accumulate_eq_nil_iff (Nat.zero_le _) _).mp none)
    simp [value?, dropped, fits]

/--
A number is read as a whole one if it is written without a point and an
exponent, has 64 bits with or without a sign, and is not a negative zero.
-/
private theorem value?_eq_whole_iff {text : NumberText} {value : Int} :
    text.value? = some (.whole value) ↔
      (text.fraction = [] ∧ text.exponent = none) ∧
        (text.signed = value ∧ minWhole ≤ value ∧ value ≤ maxWhole) ∧
          (text.negative = true → value ≠ 0) := by
  have isReal : text.real?.map Number.real ≠ some (.whole value) := by
    intro isWhole
    obtain ⟨_, -, contra⟩ := Option.map_eq_some_iff.mp isWhole
    cases contra
  have signs :
      (text.negative = false ∧ text.signed = Text.ofDigits 10 text.whole) ∨
        (text.negative = true ∧
          text.signed = -(Text.ofDigits 10 text.whole : Int)) := by
    cases sign : text.negative <;> simp [signed, sign]
  have widest : (2 : Int) ^ 63 ≤ maxWhole := by
    decide
  rw [value?_eq, minWhole]
  split
  · next written =>
      obtain ⟨noFraction, noExponent, fits⟩ := written
      simp only [noFraction, noExponent, and_self, true_and]
      rcases signs with ⟨sign, isSigned⟩ | ⟨sign, isSigned⟩
      · simp only [sign, isSigned, Bool.false_eq_true, false_and, if_false,
          false_implies, and_true, Option.some.injEq, Number.whole.injEq,
          iff_self_and]
        omega
      · simp only [sign, isSigned, true_and, forall_const]
        split
        · simp only [Option.some.injEq, reduceCtorEq, false_iff]
          omega
        · simp only [Option.some.injEq, Number.whole.injEq]
          omega
  · next unwritten =>
      refine iff_of_false isReal ?_
      rintro ⟨⟨noFraction, noExponent⟩, ⟨rfl, least, most⟩, -⟩
      refine unwritten ⟨noFraction, noExponent, ?_⟩
      rcases signs with ⟨-, isSigned⟩ | ⟨-, isSigned⟩ <;>
        omega

/-- Whole numbers that are read have 64 bits. -/
theorem inRange_of_value?
    {text : NumberText}
    {number : Number}
    (reads : text.value? = some number) :
    number.InRange := by
  cases number with
  | whole value =>
      exact (value?_eq_whole_iff.mp reads).2.1.2
  | real value =>
      trivial

end NumberText

namespace Token

/--
What may follow a value: nothing, a comma, or the end of a list or an object.
-/
def Closes (rest : List UInt8) : Prop :=
  ∀ byte ∈ rest.head?, byte = 0x2C ∨ byte = 0x5D ∨ byte = 0x7D

theorem closes_nil : Closes [] :=
  nofun

theorem closes_cons
    {byte : UInt8}
    (closes : byte = 0x2C ∨ byte = 0x5D ∨ byte = 0x7D)
    (rest : List UInt8) :
    Closes (byte :: rest) :=
  fun _ isFirst => Option.some.inj isFirst ▸ closes

namespace Closes

variable {rest : List UInt8}

/-- No digit stands at the end of a number. -/
private theorem takeDigits (closes : Closes rest) : takeDigits rest = ([], rest) := by
  cases rest with
  | nil =>
      rfl
  | cons byte rest =>
      rcases closes byte rfl with rfl | rfl | rfl <;> rfl

private theorem takeFraction? (closes : Closes rest) :
    takeFraction? rest = some ([], rest) := by
  cases rest with
  | nil =>
      rfl
  | cons byte rest =>
      rcases closes byte rfl with rfl | rfl | rfl <;> rfl

private theorem takeExponent? (closes : Closes rest) :
    takeExponent? rest = some (none, rest) := by
  cases rest with
  | nil =>
      rfl
  | cons byte rest =>
      rcases closes byte rfl with rfl | rfl | rfl <;> rfl

end Closes

/-- A digit is one byte, which stands for it and starts a number. -/
theorem encodeChar_digitChar : ∀ digit < 10,
    ∃ byte,
      encodeChar digit.digitChar = [byte] ∧
        digit? byte = some digit ∧
          isSpace byte = false ∧
            ∀ rest, take? byte rest =
              (takeNumber? false (byte :: rest)).map fun (parts, rest) =>
                (.number parts.value?, rest) := by
  have onTen : ∀ digit : Fin 10,
      let byte := (0x30 + digit.val).toUInt8
      encodeChar digit.val.digitChar = [byte] ∧
        digit? byte = some digit.val ∧
          isSpace byte = false ∧
            byte ∉ [0x5B, 0x5D, 0x7B, 0x7D, 0x3A, 0x2C, 0x22, 0x6E, 0x74,
              0x66, 0x2D] := by
    decide
  intro digit small
  obtain ⟨written, stands, notSpace, noMark⟩ := onTen ⟨digit, small⟩
  refine ⟨_, written, stands, notSpace, fun rest => ?_⟩
  simp only [List.mem_cons, List.not_mem_nil, or_false, not_or] at noMark
  simp only [take?, noMark, if_false]

/-- Written digits are taken up to the end of the number. -/
private theorem takeDigits_encode
    {digits : List Nat}
    (small : ∀ digit ∈ digits, digit < 10)
    {rest : List UInt8}
    (closes : Closes rest) :
    takeDigits (encode (digits.map Nat.digitChar) ++ rest) =
      (digits, rest) := by
  induction digits with
  | nil =>
      exact closes.takeDigits
  | cons digit digits inductionHypothesis =>
      obtain ⟨isSmall, others⟩ := List.forall_mem_cons.mp small
      obtain ⟨byte, written, stands, -⟩ := encodeChar_digitChar digit isSmall
      rw [List.map_cons, encode, List.flatMap_cons, written]
      simp only [List.cons_append, List.nil_append, takeDigits, stands]
      exact congrArg (fun taken => (digit :: taken.1, taken.2))
        (inductionHypothesis others)

/-- A number starts with a digit. -/
theorem take?_decimalText (value : Nat) :
    ∃ byte bytes,
      encode (Text.decimalText value) = byte :: bytes ∧
        isSpace byte = false ∧
          ∀ rest, take? byte rest =
            (takeNumber? false (byte :: rest)).map fun (parts, rest) =>
              (.number parts.value?, rest) := by
  obtain ⟨digits, spells, written⟩ := exists_spells value
  cases digits with
  | nil =>
      exact absurd rfl spells.filled
  | cons digit digits =>
      obtain ⟨byte, isByte, -, notSpace, takes⟩ :=
        encodeChar_digitChar digit (spells.small digit List.mem_cons_self)
      refine ⟨byte, encode (digits.map Nat.digitChar), ?_, notSpace, takes⟩
      rw [written, List.map_cons, encode, List.flatMap_cons, isByte]
      rfl

/-- The digits of a number are read as they are. -/
theorem takeNumber?_decimalText
    (negative : Bool)
    (value : Nat)
    {rest : List UInt8}
    (closes : Closes rest) :
    ∃ digits,
      Spells digits value ∧
        takeNumber? negative (encode (Text.decimalText value) ++ rest) =
          some (⟨negative, digits, [], none⟩, rest) := by
  obtain ⟨digits, spells, written⟩ := exists_spells value
  have whole :
      takeWhole? (encode (Text.decimalText value) ++ rest) =
        some (digits, rest) := by
    rw [takeWhole?, written, takeDigits_encode spells.small closes]
    split
    · next isEmpty =>
        exact absurd (Prod.mk.inj isEmpty).1 spells.filled
    · next leads =>
        exact absurd (spells.lead _ (Prod.mk.inj leads).1)
          (List.cons_ne_nil _ _)
    · rfl
  refine ⟨digits, spells, ?_⟩
  simp [takeNumber?, whole, closes.takeFraction?, closes.takeExponent?]

end Token

namespace Spells

variable {digits : List Nat} {value : Nat}

/-- Digits without sign, point and exponent are the number they spell. -/
theorem value?_positive
    (spells : Spells digits value)
    (fits : value ≤ maxWhole) :
    NumberText.value? ⟨false, digits, [], none⟩ = some (.whole value) := by
  simp [NumberText.value?, spells.accumulate fits]

/-- Digits with a sign are the negative of the number they spell. -/
theorem value?_negative
    (spells : Spells digits value)
    (positive : 0 < value)
    (fits : value ≤ 9223372036854775808) :
    NumberText.value? ⟨true, digits, [], none⟩ =
      some (.whole (-(value : Int))) := by
  have within : value ≤ maxWhole := Nat.le_trans fits (by decide)
  have isKept : ¬(value = 0 ∨ 9223372036854775808 < value) := by omega
  simp [NumberText.value?, spells.accumulate within, isKept]

end Spells

end EventRelay.Json
