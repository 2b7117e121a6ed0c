import EventRelay.Json.Print
import EventRelay.Json.Token
import EventRelay.Proofs.Text.Utf8

namespace EventRelay.Json

/-!
# Quoted texts

A text in quotes is read back, whatever characters it has: each of them is
written as an escape or stands for itself, and both add its bytes to what was
read.
-/

open Text.Utf8 (encode encodeChar)

namespace Token

/-- What was read so far, if all of it stands for characters. -/
def TextState.ofBytes (bytes : List UInt8) : TextState :=
  ⟨bytes.reverse, none, true⟩

@[simp] theorem TextState.push_ofBytes (read bytes : List UInt8) :
    (ofBytes read).push bytes = ofBytes (read ++ bytes) := by
  simp [ofBytes, push]

private theorem TextState.finish_ofBytes (text : String) :
    (ofBytes (encode text.toList)).finish = some text := by
  simp [ofBytes, finish, Text.Utf8.decode?_encode]

/--
Bytes inside quotes that add a character to what was read, for any number of
steps that is large enough.
-/
def Adds (written : List UInt8) (added : List UInt8) : Prop :=
  ∀ read rest fuel, (written ++ rest).length < fuel →
    ∃ left, rest.length < left ∧
      takeText? fuel (.ofBytes read) (written ++ rest) =
        takeText? left (.ofBytes (read ++ added)) rest

namespace Adds

private theorem nil : Adds [] [] := by
  intro read rest fuel enough
  exact ⟨fuel, enough, by rw [List.append_nil, List.nil_append]⟩

private theorem append
    {written more added others : List UInt8}
    (first : Adds written added)
    (second : Adds more others) :
    Adds (written ++ more) (added ++ others) := by
  intro read rest fuel enough
  rw [List.append_assoc] at enough ⊢
  obtain ⟨between, enoughBetween, readsFirst⟩ :=
    first read (more ++ rest) fuel enough
  obtain ⟨left, enoughLeft, readsSecond⟩ :=
    second (read ++ added) rest between enoughBetween
  exact ⟨left, enoughLeft, by
    rw [readsFirst, readsSecond, List.append_assoc]⟩

/-- A byte that is neither a quote nor the start of an escape. -/
theorem plain
    {byte : UInt8}
    (isPlain : byte ≠ 0x22 ∧ ¬byte < 0x20 ∧ byte ≠ 0x5C) :
    Adds [byte] [byte] := by
  intro read rest fuel enough
  obtain ⟨notQuote, notControl, notBackslash⟩ := isPlain
  cases fuel with
  | zero =>
      cases enough
  | succ fuel =>
      refine ⟨fuel, Nat.lt_of_succ_lt_succ enough, ?_⟩
      simp [takeText?, notQuote, notControl, notBackslash]

/-- An escape of one letter. -/
theorem letter
    {letter byte : UInt8}
    (notUnit : letter ≠ 0x75)
    (stands : escapedByte? letter = some byte) :
    Adds [0x5C, letter] [byte] := by
  intro read rest fuel enough
  cases fuel with
  | zero =>
      cases enough
  | succ fuel =>
      refine ⟨fuel, ?_, ?_⟩
      · simp only [List.length_append, List.length_cons] at enough
        omega
      · simp [takeText?, notUnit, stands]

/-- An escape by four digits that stand for a character of one byte. -/
private theorem unit
    {first second third fourth : UInt8}
    {unit : Nat}
    (stands : ∀ rest,
      takeUnit? (first :: second :: third :: fourth :: rest) =
        some (unit, rest))
    (small : unit < 0x80) :
    Adds [0x5C, 0x75, first, second, third, fourth]
      (encodeChar (Char.ofNat unit)) := by
  intro read rest fuel enough
  cases fuel with
  | zero =>
      cases enough
  | succ fuel =>
      have notLow : ¬(0xDC00 ≤ unit ∧ unit ≤ 0xDFFF) := by omega
      have notHigh : ¬(0xD800 ≤ unit ∧ unit ≤ 0xDBFF) := by omega
      refine ⟨fuel, ?_, ?_⟩
      · simp only [List.length_append, List.length_cons] at enough
        omega
      · simp [takeText?, stands, TextState.pushUnit, notLow, notHigh]

end Adds

/-- The bytes of a control character that is written by its code. -/
theorem adds_control : ∀ code < 0x20,
    Adds
      (encode
        ['\\', 'u', '0', '0', Text.lowerHexDigit (code / 16),
          Text.lowerHexDigit (code % 16)])
      (encodeChar (Char.ofNat code)) := by
  have onControls : ∀ code : Fin 0x20,
      ∃ third fourth,
        encode
            ['\\', 'u', '0', '0', Text.lowerHexDigit (code.val / 16),
              Text.lowerHexDigit (code.val % 16)] =
          [0x5C, 0x75, 0x30, 0x30, third, fourth] ∧
        [0x30, 0x30, third, fourth].mapM (fun byte =>
            Text.hexDigit? (Char.ofNat byte.toNat)) =
          some [0, 0, code.val / 16, code.val % 16] := by
    intro code
    refine ⟨(Text.lowerHexDigit (code.val / 16)).toNat.toUInt8,
      (Text.lowerHexDigit (code.val % 16)).toNat.toUInt8, ?_⟩
    revert code
    decide
  intro code isControl
  obtain ⟨third, fourth, written, digits⟩ := onControls ⟨code, isControl⟩
  rw [written]
  refine .unit (fun rest => ?_) (Nat.lt_trans isControl (by decide))
  have total : Text.ofDigits 16 [0, 0, code / 16, code % 16] = code := by
    simp only [Text.ofDigits, List.foldl_cons, List.foldl_nil]
    omega
  simp only [takeUnit?]
  rw [digits]
  exact congrArg (fun value => some (value, rest)) total

/-- The bytes of a character that is written as it is. -/
private theorem adds_plain
    {character : Char}
    (notControl : ¬character.toNat < 0x20)
    (notQuote : character ≠ '"')
    (notBackslash : character ≠ '\\') :
    Adds (encodeChar character) (encodeChar character) := by
  have isPlain : ∀ byte ∈ encodeChar character,
      byte ≠ 0x22 ∧ ¬byte < 0x20 ∧ byte ≠ 0x5C := by
    intro byte isMember
    by_cases single : byte.toNat < 0x80
    · have same := Text.Utf8.toNat_eq_of_mem_encodeChar isMember single
      refine ⟨?_, ?_, ?_⟩
      · rintro rfl
        exact notQuote (Char.toNat_inj.mp same)
      · intro small
        exact notControl (same ▸ UInt8.lt_iff_toNat_lt.mp small)
      · rintro rfl
        exact notBackslash (Char.toNat_inj.mp same)
    · refine ⟨?_, ?_, ?_⟩
      · rintro rfl
        exact single (by decide)
      · intro small
        exact single
          (Nat.lt_trans (UInt8.lt_iff_toNat_lt.mp small) (by decide))
      · rintro rfl
        exact single (by decide)
  generalize encodeChar character = bytes at isPlain
  induction bytes with
  | nil =>
      exact .nil
  | cons byte bytes inductionHypothesis =>
      obtain ⟨isFirst, others⟩ := List.forall_mem_cons.mp isPlain
      exact (Adds.plain isFirst).append (inductionHypothesis others)

/-- The bytes of a character that is written as an escape of one letter. -/
private theorem adds_letter
    (letter : UInt8)
    {byte : UInt8}
    {character : Char}
    {written : List Char}
    (isWritten : encode written = [0x5C, letter])
    (notUnit : letter ≠ 0x75)
    (stands : escapedByte? letter = some byte)
    (isByte : encodeChar character = [byte]) :
    Adds (encode written) (encodeChar character) := by
  rw [isWritten, isByte]
  exact .letter notUnit stands

private theorem adds_escape (character : Char) :
    Adds (encode (escape character)) (encodeChar character) := by
  unfold escape
  split
  · next same =>
      subst same
      exact adds_letter 0x22 rfl (by decide) rfl rfl
  split
  · next same =>
      subst same
      exact adds_letter 0x5C rfl (by decide) rfl rfl
  split
  · next same =>
      subst same
      exact adds_letter 0x62 rfl (by decide) rfl rfl
  split
  · next same =>
      subst same
      exact adds_letter 0x66 rfl (by decide) rfl rfl
  split
  · next same =>
      subst same
      exact adds_letter 0x6E rfl (by decide) rfl rfl
  split
  · next same =>
      subst same
      exact adds_letter 0x72 rfl (by decide) rfl rfl
  split
  · next same =>
      subst same
      exact adds_letter 0x74 rfl (by decide) rfl rfl
  split
  · next isControl =>
      have adds := adds_control character.toNat isControl
      rwa [Char.ofNat_toNat] at adds
  · next notQuote notBackslash _ _ _ _ _ notControl =>
      rw [encode, List.flatMap_singleton]
      exact adds_plain notControl notQuote notBackslash

private theorem adds_flatMap_escape (characters : List Char) :
    Adds (encode (characters.flatMap escape)) (encode characters) := by
  induction characters with
  | nil =>
      exact .nil
  | cons character characters inductionHypothesis =>
      rw [List.flatMap_cons, Text.Utf8.encode_append]
      exact (adds_escape character).append inductionHypothesis

/-- A text up to its closing quote is read back. -/
theorem takeText?_escape
    (text : String)
    (rest : List UInt8)
    {fuel : Nat}
    (enough : (encode (text.toList.flatMap escape) ++ 0x22 :: rest).length <
      fuel) :
    takeText? fuel .start
        (encode (text.toList.flatMap escape) ++ 0x22 :: rest) =
      some (some text, rest) := by
  obtain ⟨left, enoughLeft, reads⟩ :=
    adds_flatMap_escape text.toList [] (0x22 :: rest) fuel enough
  cases left with
  | zero =>
      cases enoughLeft
  | succ left =>
      rw [List.nil_append] at reads
      refine reads.trans ?_
      simp only [takeText?, if_true]
      rw [TextState.finish_ofBytes]

end Token

end EventRelay.Json
