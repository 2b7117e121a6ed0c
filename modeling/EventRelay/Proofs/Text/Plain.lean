import EventRelay.Text.Digits
import EventRelay.Text.Plain

namespace EventRelay.Text

/-!
# Characters of plain names

Plain characters are ASCII, so what holds of each of them can be looked up.
-/

/-- The numbers of the characters of plain names. -/
theorem toNat_of_isPlain
    {character : Char}
    (isPlain : isPlain character = true) :
    0x30 ≤ character.toNat ∧ character.toNat ≤ 0x39 ∨
      0x41 ≤ character.toNat ∧ character.toNat ≤ 0x5A ∨
        0x61 ≤ character.toNat ∧ character.toNat ≤ 0x7A ∨
          character.toNat = 0x5F ∨ character.toNat = 0x2D ∨
            character.toNat = 0x2E := by
  delta Text.isPlain Char.isAlphanum Char.isAlpha Char.isUpper Char.isLower
    Char.isDigit at isPlain
  simp only [Bool.or_eq_true, Bool.and_eq_true, decide_eq_true_iff, beq_iff_eq,
    ge_iff_le, UInt32.le_iff_toNat_le, ← Char.toNat_inj] at isPlain
  simp only [Char.toNat, Char.reduceVal, UInt32.reduceToNat] at isPlain ⊢
  omega

/-- What holds of the plain ones among the first characters holds of all. -/
theorem forall_isPlain
    (Holds : Char → Prop)
    (onFirst : ∀ code : Fin 0x7B,
      isPlain (Char.ofNat code.val) = true → Holds (Char.ofNat code.val))
    {character : Char}
    (isPlain : isPlain character = true) :
    Holds character := by
  have number := toNat_of_isPlain isPlain
  have holds := onFirst ⟨character.toNat, by omega⟩
  rw [Char.ofNat_toNat] at holds
  exact holds isPlain

theorem isPlain_of_mem
    {name : List Char}
    (isPlainName : isPlainName name = true)
    {character : Char}
    (member : character ∈ name) :
    isPlain character = true :=
  List.all_eq_true.mp (Bool.and_eq_true_iff.mp isPlainName).2 character member

/-- A plain name holds no other character. -/
theorem not_mem_of_isPlainName
    {name : List Char}
    (isPlainName : isPlainName name = true)
    {character : Char}
    (other : isPlain character = false) :
    character ∉ name := by
  intro member
  rw [isPlain_of_mem isPlainName member] at other
  contradiction

theorem isPlain_of_mem_decimalText
    {number : Nat}
    {character : Char}
    (member : character ∈ decimalText number) :
    isPlain character = true := by
  have isDigit : character.isDigit = true :=
    Nat.isDigit_of_mem_toDigits (by decide) (by decide) member
  simp [isPlain, Char.isAlphanum, isDigit]

/--
A plain segment is a plain name, and none of the dots that lead elsewhere in a
path.
-/
theorem isPlainSegment_iff {segment : List Char} :
    isPlainSegment segment = true ↔
      isPlainName segment = true ∧ segment ≠ ['.'] ∧ segment ≠ ['.', '.'] := by
  rw [isPlainSegment, Bool.and_eq_true, Bool.and_eq_true, bne_iff_ne,
    bne_iff_ne, and_assoc]

end EventRelay.Text
