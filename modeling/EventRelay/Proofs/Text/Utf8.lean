import EventRelay.Text.Utf8

namespace EventRelay.Text.Utf8

/-!
# UTF-8 is read back

Decoding the bytes of a text gives the text.  The bytes of a character are a
leading byte, which says how many bytes are owed and which second byte would
be an overlong form or a surrogate, and continuation bytes of six bits each.
-/

theorem toNat_toUInt8 {value : Nat} (small : value < 256) :
    value.toUInt8.toNat = value := by
  rw [Nat.toUInt8, UInt8.toNat_ofNat']
  exact Nat.mod_eq_of_lt small

/-- A byte below 0x80 is a whole character. -/
private theorem ofByte_one {value : Nat} (small : value < 0x80) :
    Lead.ofByte value.toUInt8 = .complete (Char.ofNat value) := by
  have fits : value < 256 := by omega
  simp only [Lead.ofByte, UInt8.lt_iff_toNat_lt, toNat_toUInt8 fits,
    UInt8.reduceToNat]
  rw [if_pos small]

/-- The first byte of two owes one more. -/
private theorem ofByte_two {bits : Nat} (least : 2 ≤ bits) (most : bits < 0x20) :
    Lead.ofByte (0xC0 + bits).toUInt8 =
      .unfinished ⟨0, 0x80, 0xBF, bits⟩ := by
  have fits : 0xC0 + bits < 256 := by omega
  simp only [Lead.ofByte, UInt8.lt_iff_toNat_lt, toNat_toUInt8 fits,
    UInt8.reduceToNat]
  rw [if_neg (by omega), if_neg (by omega), if_pos (by omega),
    Nat.add_sub_cancel_left]

/--
The first byte of three owes two more; the bounds of the next one exclude
overlong forms and surrogates.
-/
private theorem ofByte_three {bits : Nat} (most : bits < 0x10) :
    Lead.ofByte (0xE0 + bits).toUInt8 =
      .unfinished ⟨1,
        if bits = 0 then 0xA0 else 0x80,
        if bits = 13 then 0x9F else 0xBF,
        bits⟩ := by
  have fits : 0xE0 + bits < 256 := by omega
  simp only [Lead.ofByte, UInt8.lt_iff_toNat_lt, ← UInt8.toNat_inj,
    toNat_toUInt8 fits, UInt8.reduceToNat]
  rw [if_neg (by omega), if_neg (by omega), if_neg (by omega),
    if_pos (by omega), Nat.add_sub_cancel_left]
  have isSurrogate : 0xE0 + bits = 0xED ↔ bits = 13 := by omega
  simp only [Nat.add_eq_left, isSurrogate]

/--
The first byte of four owes three more; the bounds of the next one exclude
overlong forms and values past the last character.
-/
private theorem ofByte_four {bits : Nat} (most : bits < 5) :
    Lead.ofByte (0xF0 + bits).toUInt8 =
      .unfinished ⟨2,
        if bits = 0 then 0x90 else 0x80,
        if bits = 4 then 0x8F else 0xBF,
        bits⟩ := by
  have fits : 0xF0 + bits < 256 := by omega
  simp only [Lead.ofByte, UInt8.lt_iff_toNat_lt, ← UInt8.toNat_inj,
    toNat_toUInt8 fits, UInt8.reduceToNat]
  rw [if_neg (by omega), if_neg (by omega), if_neg (by omega),
    if_neg (by omega), if_pos (by omega), Nat.add_sub_cancel_left]
  have isGreatest : 0xF0 + bits = 0xF4 ↔ bits = 4 := by omega
  simp only [Nat.add_eq_left, isGreatest]

/-- The last byte that is owed completes a character. -/
private theorem step_last
    {low high : UInt8}
    {value bits : Nat}
    (small : bits < 64)
    (notBelow : low.toNat ≤ 0x80 + bits)
    (notAbove : 0x80 + bits ≤ high.toNat) :
    step (some ⟨0, low, high, value⟩) (0x80 + bits).toUInt8 =
      ([some (Char.ofNat (value * 64 + bits))], none) := by
  have fits : 0x80 + bits < 256 := by omega
  have lowBits : (0x80 + bits) % 64 = bits := by omega
  simp only [step, UInt8.le_iff_toNat_le, toNat_toUInt8 fits, lowBits]
  rw [if_pos ⟨notBelow, notAbove⟩]

/-- Another byte that is owed adds its six bits. -/
private theorem step_owed
    {low high : UInt8}
    {owed value bits : Nat}
    (small : bits < 64)
    (notBelow : low.toNat ≤ 0x80 + bits)
    (notAbove : 0x80 + bits ≤ high.toNat) :
    step (some ⟨owed + 1, low, high, value⟩) (0x80 + bits).toUInt8 =
      ([], some ⟨owed, 0x80, 0xBF, value * 64 + bits⟩) := by
  have fits : 0x80 + bits < 256 := by omega
  have lowBits : (0x80 + bits) % 64 = bits := by omega
  simp only [step, UInt8.le_iff_toNat_le, toNat_toUInt8 fits, lowBits]
  rw [if_pos ⟨notBelow, notAbove⟩]

/-- Scanning takes one step for the first byte and goes on from there. -/
theorem scanFrom_cons
    {state next : Option Unfinished}
    {report : Report}
    {byte : UInt8}
    (steps : step state byte = (report, next))
    (reported : Report)
    (rest : List UInt8) :
    scanFrom state reported (byte :: rest) =
      scanFrom next (report.reverse ++ reported) rest := by
  rw [scanFrom, steps]

private theorem scanFrom_unfinished
    {state : Unfinished}
    {byte : UInt8}
    (leads : Lead.ofByte byte = .unfinished state)
    (reported : Report)
    (rest : List UInt8) :
    scanFrom none reported (byte :: rest) =
      scanFrom (some state) reported rest :=
  scanFrom_cons (by rw [step, start, leads]) reported rest

private theorem scanFrom_last
    {low high : UInt8}
    {value bits : Nat}
    (small : bits < 64)
    (notBelow : low.toNat ≤ 0x80 + bits)
    (notAbove : 0x80 + bits ≤ high.toNat)
    (reported : Report)
    (rest : List UInt8) :
    scanFrom (some ⟨0, low, high, value⟩) reported
        ((0x80 + bits).toUInt8 :: rest) =
      scanFrom none (some (Char.ofNat (value * 64 + bits)) :: reported) rest :=
  scanFrom_cons (step_last small notBelow notAbove) reported rest

private theorem scanFrom_owed
    {low high : UInt8}
    {owed value bits : Nat}
    (small : bits < 64)
    (notBelow : low.toNat ≤ 0x80 + bits)
    (notAbove : 0x80 + bits ≤ high.toNat)
    (reported : Report)
    (rest : List UInt8) :
    scanFrom (some ⟨owed + 1, low, high, value⟩) reported
        ((0x80 + bits).toUInt8 :: rest) =
      scanFrom (some ⟨owed, 0x80, 0xBF, value * 64 + bits⟩) reported rest :=
  scanFrom_cons (step_owed small notBelow notAbove) reported rest

/-- The number of a character is below the limit and not a surrogate. -/
theorem toNat_valid (character : Char) :
    character.toNat < 0xD800 ∨
      0xDFFF < character.toNat ∧ character.toNat < 0x110000 :=
  character.valid

section

variable {value : Nat} (reported : Report) (rest : List UInt8)

/-- Two bytes are read as one character. -/
private theorem scanFrom_two (least : 0x80 ≤ value) (most : value < 0x800) :
    scanFrom none reported
        ((0xC0 + value / 64).toUInt8 :: (0x80 + value % 64).toUInt8 :: rest) =
      scanFrom none (some (Char.ofNat value) :: reported) rest := by
  have joined : value / 64 * 64 + value % 64 = value := by omega
  rw [scanFrom_unfinished (ofByte_two (by omega) (by omega)),
    scanFrom_last (by omega) (by simp) (by simp; omega), joined]

/-- Three bytes are read as one character, unless it is a surrogate. -/
private theorem scanFrom_three
    (least : 0x800 ≤ value)
    (most : value < 0x10000)
    (valid : value < 0xD800 ∨ 0xDFFF < value) :
    scanFrom none reported
        ((0xE0 + value / 4096).toUInt8 ::
          (0x80 + value / 64 % 64).toUInt8 ::
          (0x80 + value % 64).toUInt8 :: rest) =
      scanFrom none (some (Char.ofNat value) :: reported) rest := by
  have joined :
      (value / 4096 * 64 + value / 64 % 64) * 64 + value % 64 = value := by
    omega
  have notOverlong :
      (if value / 4096 = 0 then 0xA0 else 0x80 : UInt8).toNat ≤
        0x80 + value / 64 % 64 := by
    split
    · simp
      omega
    · simp
  have noSurrogate :
      0x80 + value / 64 % 64 ≤
        (if value / 4096 = 13 then 0x9F else 0xBF : UInt8).toNat := by
    split <;> (simp; omega)
  rw [scanFrom_unfinished (ofByte_three (by omega)),
    scanFrom_owed (by omega) notOverlong noSurrogate,
    scanFrom_last (by omega) (by simp) (by simp; omega), joined]

/-- Four bytes are read as one character. -/
private theorem scanFrom_four
    (least : 0x10000 ≤ value)
    (most : value < 0x110000) :
    scanFrom none reported
        ((0xF0 + value / 262144).toUInt8 ::
          (0x80 + value / 4096 % 64).toUInt8 ::
          (0x80 + value / 64 % 64).toUInt8 ::
          (0x80 + value % 64).toUInt8 :: rest) =
      scanFrom none (some (Char.ofNat value) :: reported) rest := by
  have joined :
      ((value / 262144 * 64 + value / 4096 % 64) * 64 + value / 64 % 64) * 64 +
        value % 64 = value := by
    omega
  have notOverlong :
      (if value / 262144 = 0 then 0x90 else 0x80 : UInt8).toNat ≤
        0x80 + value / 4096 % 64 := by
    split
    · simp
      omega
    · simp
  have notTooLarge :
      0x80 + value / 4096 % 64 ≤
        (if value / 262144 = 4 then 0x8F else 0xBF : UInt8).toNat := by
    split <;> (simp; omega)
  rw [scanFrom_unfinished (ofByte_four (by omega)),
    scanFrom_owed (by omega) notOverlong notTooLarge,
    scanFrom_owed (by omega) (by simp) (by simp; omega),
    scanFrom_last (by omega) (by simp) (by simp; omega), joined]

end

/-- The bytes of a character are read back as that character. -/
private theorem scanFrom_encodeChar
    (character : Char)
    (reported : Report)
    (rest : List UInt8) :
    scanFrom none reported (encodeChar character ++ rest) =
      scanFrom none (some character :: reported) rest := by
  have valid := toNat_valid character
  have isCharacter : Char.ofNat character.toNat = character :=
    Char.ofNat_toNat character
  simp only [encodeChar]
  generalize character.toNat = value at valid isCharacter ⊢
  subst isCharacter
  split
  · next one =>
      rw [List.singleton_append,
        scanFrom_cons (by rw [step, start, ofByte_one one])]
      rfl
  · split
    · next notOne two =>
        exact scanFrom_two reported rest (Nat.le_of_not_lt notOne) two
    · split
      · next notTwo three =>
          exact scanFrom_three reported rest (Nat.le_of_not_lt notTwo) three
            (valid.imp_right And.left)
      · next notThree =>
          exact scanFrom_four reported rest (Nat.le_of_not_lt notThree)
            (by omega)

/--
Scanning a written text reports its characters and leaves nothing unfinished.
-/
private theorem scanFrom_encode (text : List Char) (reported : Report) :
    scanFrom none reported (encode text) =
      reported.reverse ++ text.map some := by
  induction text generalizing reported with
  | nil =>
      exact (List.append_nil _).symm
  | cons character rest inductionHypothesis =>
      rw [encode, List.flatMap_cons, scanFrom_encodeChar]
      change scanFrom none _ (encode rest) = _
      rw [inductionHypothesis, List.reverse_cons, List.append_assoc]
      rfl

/-- The bytes of a text are decoded as that text. -/
theorem decodeLossy_encode (text : List Char) :
    decodeLossy (encode text) = text := by
  rw [decodeLossy, scan, scanFrom_encode]
  simp [Function.comp_def]

/-- A written text is read back strictly. -/
theorem decode?_encode (text : List Char) :
    decode? (encode text) = some text := by
  rw [decode?, scan, scanFrom_encode]
  simp [Function.comp_def]

theorem encode_append (first second : List Char) :
    encode (first ++ second) = encode first ++ encode second :=
  List.flatMap_append

/-- Texts with the same bytes are the same. -/
theorem encode_inj {first second : List Char} :
    encode first = encode second ↔ first = second := by
  constructor
  · intro same
    rw [← decodeLossy_encode first, same, decodeLossy_encode]
  · rintro rfl
    rfl

/-- Every character takes at least one byte. -/
theorem encodeChar_ne_nil (character : Char) : encodeChar character ≠ [] := by
  simp only [encodeChar]
  split
  · exact List.cons_ne_nil _ _
  · split
    · exact List.cons_ne_nil _ _
    · split <;> exact List.cons_ne_nil _ _

private theorem not_single {value : Nat} (least : 0x80 ≤ value) (fits : value < 256) :
    ¬value.toUInt8.toNat < 0x80 := by
  rw [toNat_toUInt8 fits]
  exact Nat.not_lt_of_le least

/-- A byte below 0x80 is the whole of its character. -/
theorem toNat_eq_of_mem_encodeChar
    {character : Char}
    {byte : UInt8}
    (member : byte ∈ encodeChar character)
    (single : byte.toNat < 0x80) :
    character.toNat = byte.toNat := by
  have valid := toNat_valid character
  simp only [encodeChar] at member
  generalize character.toNat = value at valid member ⊢
  split at member
  · next one =>
      rw [List.mem_singleton.mp member, toNat_toUInt8 (by omega)]
  · split at member
    · simp only [List.mem_cons, List.not_mem_nil, or_false] at member
      rcases member with rfl | rfl <;>
        exact absurd single (not_single (by omega) (by omega))
    · split at member
      · simp only [List.mem_cons, List.not_mem_nil, or_false] at member
        rcases member with rfl | rfl | rfl <;>
          exact absurd single (not_single (by omega) (by omega))
      · simp only [List.mem_cons, List.not_mem_nil, or_false] at member
        rcases member with rfl | rfl | rfl | rfl <;>
          exact absurd single (not_single (by omega) (by omega))

/-- A character below 0x80 is written as one byte. -/
theorem encodeChar_of_single
    {character : Char}
    (single : character.toNat < 0x80) :
    encodeChar character = [character.toNat.toUInt8] :=
  if_pos single

/-- All bytes of any other character are 0x80 or above. -/
private theorem le_of_mem_encodeChar
    {character : Char}
    {byte : UInt8}
    (many : 0x80 ≤ character.toNat)
    (member : byte ∈ encodeChar character) :
    0x80 ≤ byte.toNat := by
  refine Nat.le_of_not_lt fun below => ?_
  have same := toNat_eq_of_mem_encodeChar member below
  omega

/--
A test that does not tell bytes from 0x80 on apart is a test of the
characters.
-/
theorem forall_mem_encode_iff
    {holds : UInt8 → Prop}
    {means : Char → Prop}
    (single : ∀ character : Char, character.toNat < 0x80 →
      (holds character.toNat.toUInt8 ↔ means character))
    (many : ∀ (character : Char) (byte : UInt8), 0x80 ≤ character.toNat →
      0x80 ≤ byte.toNat → (holds byte ↔ means character))
    {text : List Char} :
    (∀ byte ∈ encode text, holds byte) ↔
      ∀ character ∈ text, means character := by
  simp only [encode, List.mem_flatMap]
  constructor
  · intro all character member
    by_cases small : character.toNat < 0x80
    · refine (single character small).mp (all _ ⟨character, member, ?_⟩)
      rw [encodeChar_of_single small]
      exact List.mem_singleton_self _
    · obtain ⟨byte, isByte⟩ :=
        List.exists_mem_of_ne_nil _ (encodeChar_ne_nil character)
      have large := Nat.le_of_not_lt small
      exact (many character byte large (le_of_mem_encodeChar large isByte)).mp
        (all byte ⟨character, member, isByte⟩)
  · rintro all byte ⟨character, member, isByte⟩
    by_cases small : character.toNat < 0x80
    · rw [encodeChar_of_single small, List.mem_singleton] at isByte
      exact isByte ▸ (single character small).mpr (all character member)
    · have large := Nat.le_of_not_lt small
      exact (many character byte large (le_of_mem_encodeChar large isByte)).mpr
        (all character member)

/--
The bytes before the first one of a single-byte character are those of the
text before that character.
-/
theorem takeWhile_encode
    {separator : Char}
    (single : separator.toNat < 0x80)
    (text : List Char) :
    (encode text).takeWhile (· != separator.toNat.toUInt8) =
      encode (text.takeWhile (· != separator)) := by
  have fits : separator.toNat < 256 := by
    omega
  induction text with
  | nil =>
      rfl
  | cons character rest inductionHypothesis =>
      rw [encode, List.flatMap_cons, ← encode]
      by_cases same : character = separator
      · subst same
        rw [encodeChar_of_single single]
        simp [encode]
      · have kept : ∀ byte ∈ encodeChar character,
            (byte != separator.toNat.toUInt8) = true := by
          intro byte member
          rw [bne_iff_ne]
          rintro rfl
          have number := toNat_eq_of_mem_encodeChar member
          rw [toNat_toUInt8 fits] at number
          exact same (Char.toNat_inj.mp (number single))
        rw [List.takeWhile_append_of_pos kept, inductionHypothesis,
          List.takeWhile_cons, if_pos (bne_iff_ne.mpr same)]
        rfl

/-- Only a line feed is written with the byte of a line feed. -/
theorem newline_mem_of_mem_encode
    {text : List Char}
    (member : 10 ∈ encode text) :
    '\n' ∈ text := by
  obtain ⟨character, among, byteMember⟩ := List.mem_flatMap.mp member
  have number : character.toNat = '\n'.toNat :=
    toNat_eq_of_mem_encodeChar byteMember (by decide)
  rwa [Char.toNat_inj.mp number] at among

end EventRelay.Text.Utf8
