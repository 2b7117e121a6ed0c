import EventRelay.Proofs.Text.Trimming
import EventRelay.Proofs.Text.Utf8
import Mathlib.Algebra.Group.Nat.Defs

namespace EventRelay.Text.Utf8

/-!
# Bytes below 0x80 stand on their own

A byte below 0x80 continues no character.  It ends whatever is unfinished and
is a character itself, so that bytes can be cut there before or after they are
decoded.  All other bytes, in whatever order, become characters from 0x80 on,
since the bounds of the next byte shut out overlong forms and surrogates.
-/

namespace Unfinished

/-- The least number that an unfinished character can get. -/
def least (unfinished : Unfinished) : Nat :=
  (unfinished.value * 64 + (unfinished.low.toNat - 0x80)) * 64 ^ unfinished.owed

/-- The first number that an unfinished character cannot get any more. -/
def beyond (unfinished : Unfinished) : Nat :=
  (unfinished.value * 64 + (unfinished.high.toNat - 0x80) + 1) *
    64 ^ unfinished.owed

private theorem least_unbounded (owed value : Nat) :
    least ⟨owed, 0x80, 0xBF, value⟩ = value * 64 * 64 ^ owed := by
  simp [least]

private theorem beyond_unbounded (owed value : Nat) :
    beyond ⟨owed, 0x80, 0xBF, value⟩ = (value * 64 + 64) * 64 ^ owed := by
  simp [beyond]

/--
What is unfinished owes bytes from 0x80 on, and becomes a character from 0x80
on, whichever they are.
-/
structure IsWide (unfinished : Unfinished) : Prop where
  low : 0x80 ≤ unfinished.low.toNat
  high : unfinished.high.toNat ≤ 0xBF
  wide : 0x80 ≤ unfinished.least
  valid :
    unfinished.beyond ≤ 0xD800 ∨
      0xE000 ≤ unfinished.least ∧ unfinished.beyond ≤ 0x110000

end Unfinished

/-- A number that is neither too great nor a surrogate is that of a character. -/
theorem toNat_ofNat
    {value : Nat}
    (valid : value < 0xD800 ∨ 0xE000 ≤ value ∧ value < 0x110000) :
    (Char.ofNat value).toNat = value := by
  have isValid : value.isValidChar := by
    rcases valid with small | ⟨large, most⟩
    · exact .inl small
    · exact .inr ⟨large, most⟩
  rw [Char.ofNat, dif_pos isValid]
  rfl

/-- What the first byte leaves open admits characters of many bytes only. -/
private theorem isWide_of_ofByte
    {byte : UInt8}
    {unfinished : Unfinished}
    (leads : Lead.ofByte byte = .unfinished unfinished) :
    unfinished.IsWide := by
  have fits := byte.toNat_lt
  simp only [Lead.ofByte, UInt8.lt_iff_toNat_lt, ← UInt8.toNat_inj,
    UInt8.reduceToNat] at leads
  split at leads
  · cases leads
  split at leads
  · cases leads
  split at leads
  · cases leads
    constructor <;> simp [Unfinished.least, Unfinished.beyond] <;> omega
  split at leads
  · -- The second byte is bounded after 0xE0 and 0xED only.
    by_cases isFirst : byte.toNat = 0xE0
    · rw [isFirst] at leads
      cases leads
      constructor <;> decide
    by_cases isSurrogate : byte.toNat = 0xED
    · rw [isSurrogate] at leads
      cases leads
      constructor <;> decide
    rw [if_neg isFirst, if_neg isSurrogate] at leads
    cases leads
    constructor <;> simp [Unfinished.least, Unfinished.beyond] <;> omega
  split at leads
  · -- The second byte is bounded after 0xF0 and 0xF4 only.
    by_cases isFirst : byte.toNat = 0xF0
    · rw [isFirst] at leads
      cases leads
      constructor <;> decide
    by_cases isLast : byte.toNat = 0xF4
    · rw [isLast] at leads
      cases leads
      constructor <;> decide
    rw [if_neg isFirst, if_neg isLast] at leads
    cases leads
    constructor <;> simp [Unfinished.least, Unfinished.beyond] <;> omega
  · cases leads

/-- What a started character may become next. -/
def IsStarted (state : Option Unfinished) : Prop :=
  ∀ unfinished ∈ state, unfinished.IsWide

theorem isStarted_none : IsStarted none :=
  nofun

/-- A first byte leaves a state that a scan can be in. -/
private theorem isStarted_start (byte : UInt8) : IsStarted (start byte).2 := by
  intro unfinished isNext
  simp only [start] at isNext
  split at isNext
  · cases isNext
  · next state leads =>
      obtain rfl := Option.some.inj isNext
      exact isWide_of_ofByte leads
  · cases isNext

namespace Unfinished.IsWide

variable {unfinished : Unfinished} {byte : UInt8}

/-- A byte below 0x80 continues nothing. -/
theorem not_within
    (isWide : unfinished.IsWide)
    (single : byte.toNat < 0x80) :
    ¬(unfinished.low ≤ byte ∧ byte ≤ unfinished.high) := by
  rintro ⟨notBelow, -⟩
  have least := isWide.low
  rw [UInt8.le_iff_toNat_le] at notBelow
  omega

/-- The last byte completes a character from 0x80 on. -/
theorem toNat_last
    (isWide : unfinished.IsWide)
    (last : unfinished.owed = 0)
    (notBelow : unfinished.low ≤ byte)
    (notAbove : byte ≤ unfinished.high) :
    0x80 ≤ (Char.ofNat (unfinished.value * 64 + byte.toNat % 64)).toNat := by
  obtain ⟨low, high, wide, valid⟩ := isWide
  rw [least, last] at wide valid
  rw [beyond, last] at valid
  rw [UInt8.le_iff_toNat_le] at notBelow notAbove
  have bits : byte.toNat % 64 = byte.toNat - 0x80 := by
    omega
  rw [toNat_ofNat] <;> omega

/-- A byte that is owed leaves a smaller choice. -/
theorem continued
    (isWide : unfinished.IsWide)
    {owed : Nat}
    (owes : unfinished.owed = owed + 1)
    (notBelow : unfinished.low ≤ byte)
    (notAbove : byte ≤ unfinished.high) :
    IsWide ⟨owed, 0x80, 0xBF, unfinished.value * 64 + byte.toNat % 64⟩ := by
  obtain ⟨low, high, wide, valid⟩ := isWide
  rw [UInt8.le_iff_toNat_le] at notBelow notAbove
  have bits : byte.toNat % 64 = byte.toNat - 0x80 := by
    omega
  have fewest :
      unfinished.least ≤
        (unfinished.value * 64 + byte.toNat % 64) * 64 * 64 ^ owed := by
    rw [least, owes, Nat.pow_succ', ← Nat.mul_assoc]
    exact Nat.mul_le_mul_right _ (by omega)
  have most :
      ((unfinished.value * 64 + byte.toNat % 64) * 64 + 64) * 64 ^ owed ≤
        unfinished.beyond := by
    rw [beyond, owes, Nat.pow_succ', ← Nat.mul_assoc]
    exact Nat.mul_le_mul_right _ (by omega)
  constructor
  · exact Nat.le_refl 0x80
  · exact Nat.le_refl 0xBF
  · rw [least_unbounded]
    exact Nat.le_trans wide fewest
  · rw [least_unbounded, beyond_unbounded]
    rcases valid with small | ⟨large, fits⟩
    · exact .inl (Nat.le_trans most small)
    · exact .inr ⟨Nat.le_trans large fewest, Nat.le_trans most fits⟩

end Unfinished.IsWide

/-- Between two characters a byte below 0x80 is its character. -/
theorem start_of_single
    {byte : UInt8}
    (single : byte.toNat < 0x80) :
    start byte = ([some (Char.ofNat byte.toNat)], none) := by
  have below : byte < 0x80 :=
    UInt8.lt_iff_toNat_lt.mpr single
  rw [start, Lead.ofByte, if_pos below]

/-- A byte below 0x80 ends whatever is unfinished. -/
theorem step_of_single
    {unfinished : Unfinished}
    {byte : UInt8}
    (isWide : unfinished.IsWide)
    (single : byte.toNat < 0x80) :
    step (some unfinished) byte =
      ([none, some (Char.ofNat byte.toNat)], none) := by
  rw [step, if_neg (isWide.not_within single), start_of_single single]

/-- Every step leaves a state that a scan can be in. -/
private theorem isStarted_step
    {state : Option Unfinished}
    (started : IsStarted state)
    (byte : UInt8) :
    IsStarted (step state byte).2 := by
  cases state with
  | none =>
      exact isStarted_start byte
  | some unfinished =>
      simp only [step]
      split
      · next within =>
          obtain ⟨notBelow, notAbove⟩ := within
          split
          · exact isStarted_none
          · next owed owes =>
              intro next isNext
              obtain rfl := Option.some.inj isNext
              exact (started unfinished rfl).continued owes notBelow notAbove
      · exact isStarted_start byte

/-- Between two characters a byte completes no character but its own. -/
private theorem toNat_of_mem_start
    {byte : UInt8}
    {character : Char}
    (member : some character ∈ (start byte).1) :
    character.toNat = byte.toNat := by
  by_cases single : byte.toNat < 0x80
  · rw [start_of_single single, List.mem_singleton] at member
    rw [Option.some.inj member, toNat_ofNat (by omega)]
  · have notComplete (other : Char) : Lead.ofByte byte ≠ .complete other := by
      have notSingle : ¬byte < 0x80 := fun below =>
        single (UInt8.lt_iff_toNat_lt.mp below)
      rw [Lead.ofByte, if_neg notSingle]
      repeat' split
      all_goals simp
    rw [start] at member
    split at member
    · next other leads =>
        exact (notComplete other leads).elim
    · cases member
    · cases List.mem_singleton.mp member

/-- A byte completes no character below 0x80 but its own. -/
theorem toNat_of_mem_step
    {state : Option Unfinished}
    {byte : UInt8}
    {character : Char}
    (started : IsStarted state)
    (member : some character ∈ (step state byte).1)
    (small : character.toNat < 0x80) :
    character.toNat = byte.toNat := by
  cases state with
  | none =>
      exact toNat_of_mem_start member
  | some unfinished =>
      simp only [step] at member
      split at member
      · next within =>
          obtain ⟨notBelow, notAbove⟩ := within
          split at member
          · next last =>
              rw [List.mem_singleton] at member
              obtain rfl := Option.some.inj member
              have wide := (started unfinished rfl).toNat_last last notBelow
                notAbove
              omega
          · cases member
      · rcases List.mem_cons.mp member with isNone | among
        · cases isNone
        · exact toNat_of_mem_start among

/-- Every byte completes something or leaves something unfinished. -/
theorem step_progress (state : Option Unfinished) (byte : UInt8) :
    (step state byte).1 ≠ [] ∨ (step state byte).2 ≠ none := by
  have progress : (start byte).1 ≠ [] ∨ (start byte).2 ≠ none := by
    rw [start]
    split
    · exact .inl (List.cons_ne_nil _ _)
    · exact .inr (Option.some_ne_none _)
    · exact .inl (List.cons_ne_nil _ _)
  cases state with
  | none =>
      exact progress
  | some unfinished =>
      simp only [step]
      split
      · split
        · exact .inl (List.cons_ne_nil _ _)
        · exact .inr (Option.some_ne_none _)
      · exact .inl (List.cons_ne_nil _ _)

/-- Scanning is one step for the first byte, and then the rest. -/
private theorem scanFrom_step
    (state : Option Unfinished)
    (reported : Report)
    (byte : UInt8)
    (rest : List UInt8) :
    scanFrom state reported (byte :: rest) =
      scanFrom (step state byte).2 ((step state byte).1.reverse ++ reported)
        rest :=
  scanFrom_cons rfl reported rest

/-- What was reported before stays in front. -/
private theorem scanFrom_eq
    (state : Option Unfinished)
    (reported : Report)
    (bytes : List UInt8) :
    scanFrom state reported bytes =
      reported.reverse ++ scanFrom state [] bytes := by
  induction bytes generalizing state reported with
  | nil =>
      cases state <;> simp [scanFrom]
  | cons byte rest inductionHypothesis =>
      rw [scanFrom_step, scanFrom_step, inductionHypothesis,
        inductionHypothesis _ ((step state byte).1.reverse ++ []),
        List.reverse_append, List.append_nil, List.append_assoc]

/--
A single-byte character ends whatever was unfinished and is reported on its
own.
-/
theorem scanFrom_append_cons
    {state : Option Unfinished}
    {byte : UInt8}
    (started : IsStarted state)
    (single : byte.toNat < 0x80)
    (reported : Report)
    (first rest : List UInt8) :
    scanFrom state reported (first ++ byte :: rest) =
      scanFrom state reported first ++
        some (Char.ofNat byte.toNat) :: scan rest := by
  induction first generalizing state reported with
  | nil =>
      cases state with
      | none =>
          rw [List.nil_append,
            scanFrom_cons (by rw [step, start_of_single single]), scanFrom_eq]
          simp [scanFrom, scan]
      | some unfinished =>
          rw [List.nil_append,
            scanFrom_cons (step_of_single (started unfinished rfl) single),
            scanFrom_eq]
          simp [scanFrom, scan]
  | cons next first inductionHypothesis =>
      rw [List.cons_append, scanFrom_step, scanFrom_step]
      exact inductionHypothesis (isStarted_step started next) _

/-- Decoding can be cut at a byte below 0x80. -/
theorem decodeLossy_append_cons
    {byte : UInt8}
    (single : byte.toNat < 0x80)
    (first rest : List UInt8) :
    decodeLossy (first ++ byte :: rest) =
      decodeLossy first ++ Char.ofNat byte.toNat :: decodeLossy rest := by
  rw [decodeLossy, scan, scanFrom_append_cons isStarted_none single,
    List.map_append]
  rfl

/-- A reported single-byte character was among the bytes. -/
private theorem byte_mem_of_mem_scanFrom
    {state : Option Unfinished}
    {reported : Report}
    {bytes : List UInt8}
    {character : Char}
    (started : IsStarted state)
    (member : some character ∈ scanFrom state reported bytes)
    (small : character.toNat < 0x80) :
    some character ∈ reported ∨ character.toNat.toUInt8 ∈ bytes := by
  induction bytes generalizing state reported with
  | nil =>
      left
      cases state with
      | none =>
          simpa [scanFrom] using member
      | some unfinished =>
          simpa [scanFrom] using member
  | cons byte rest inductionHypothesis =>
      rw [scanFrom_step] at member
      rcases inductionHypothesis (isStarted_step started byte) member with
        before | after
      · rcases List.mem_append.mp before with now | earlier
        · right
          have number := toNat_of_mem_step started (List.mem_reverse.mp now)
            small
          rw [number]
          simp
        · exact .inl earlier
      · exact .inr (List.mem_cons_of_mem byte after)

/-- A decoded character below 0x80 was one of the bytes. -/
theorem byte_mem_of_mem_decodeLossy
    {bytes : List UInt8}
    {character : Char}
    (member : character ∈ decodeLossy bytes)
    (small : character.toNat < 0x80) :
    character.toNat.toUInt8 ∈ bytes := by
  obtain ⟨found, among, isCharacter⟩ := List.mem_map.mp member
  cases found with
  | none =>
      subst isCharacter
      exact absurd small (by decide)
  | some decoded =>
      obtain rfl : decoded = character := isCharacter
      rcases byte_mem_of_mem_scanFrom isStarted_none among small with
        before | isByte
      · cases before
      · exact isByte

/-- Something is reported whenever something was begun. -/
private theorem scanFrom_ne_nil
    {state : Option Unfinished}
    {reported : Report}
    {bytes : List UInt8}
    (begun : state ≠ none ∨ reported ≠ [] ∨ bytes ≠ []) :
    scanFrom state reported bytes ≠ [] := by
  induction bytes generalizing state reported with
  | nil =>
      cases state with
      | none =>
          simpa [scanFrom] using begun
      | some unfinished =>
          simp [scanFrom]
  | cons byte rest inductionHypothesis =>
      rw [scanFrom_step]
      apply inductionHypothesis
      rcases step_progress state byte with completes | starts
      · right
        left
        exact List.append_ne_nil_of_left_ne_nil
          (List.reverse_ne_nil_iff.mpr completes) reported
      · exact .inl starts

/-- Bytes are never decoded as nothing. -/
@[simp] theorem decodeLossy_eq_nil_iff {bytes : List UInt8} :
    decodeLossy bytes = [] ↔ bytes = [] := by
  rw [decodeLossy, List.map_eq_nil_iff]
  constructor
  · intro nothing
    by_cases filled : bytes = []
    · exact filled
    · exact (scanFrom_ne_nil (.inr (.inr filled)) nothing).elim
  · rintro rfl
    rfl

/-- Bytes from 0x80 on are decoded as characters from 0x80 on. -/
private theorem exists_decodeLossy_of_many
    {bytes : List UInt8}
    (filled : bytes ≠ [])
    (many : ∀ byte ∈ bytes, 0x80 ≤ byte.toNat) :
    ∃ character more,
      decodeLossy bytes = character :: more ∧ 0x80 ≤ character.toNat := by
  obtain ⟨character, more, shape⟩ := List.exists_cons_of_ne_nil
    (mt decodeLossy_eq_nil_iff.mp filled)
  refine ⟨character, more, shape, ?_⟩
  apply Nat.le_of_not_lt
  intro small
  have member : character ∈ decodeLossy bytes :=
    shape ▸ List.mem_cons_self
  have isLarge := many _ (byte_mem_of_mem_decodeLossy member small)
  rw [toNat_toUInt8 (by omega)] at isLarge
  omega

/-- The first character tells whether the first byte is below 0x80. -/
theorem exists_decodeLossy_cons (byte : UInt8) (rest : List UInt8) :
    ∃ character more,
      decodeLossy (byte :: rest) = character :: more ∧
        (character.toNat = byte.toNat ∧ more = decodeLossy rest ∨
          0x80 ≤ character.toNat ∧ 0x80 ≤ byte.toNat) := by
  by_cases single : byte.toNat < 0x80
  · refine ⟨Char.ofNat byte.toNat, decodeLossy rest,
      decodeLossy_append_cons single [] rest, .inl ⟨?_, rfl⟩⟩
    exact toNat_ofNat (by omega)
  · have large := Nat.le_of_not_lt single
    -- The bytes up to the first one below 0x80 are decoded on their own.
    let isSingle (byte : UInt8) : Bool := byte.toNat < 0x80
    cases cut : splitOnce? isSingle (byte :: rest) with
    | none =>
        obtain ⟨character, more, shape, wide⟩ :=
          exists_decodeLossy_of_many (List.cons_ne_nil byte rest)
            (by simpa [isSingle] using splitOnce?_eq_none_iff.mp cut)
        exact ⟨character, more, shape, .inr ⟨wide, large⟩⟩
    | some parts =>
        obtain ⟨first, after⟩ := parts
        obtain ⟨clear, separator, separating, split⟩ :=
          splitOnce?_eq_some_iff.mp cut
        have filled : first ≠ [] := by
          rintro rfl
          obtain rfl := (List.cons.inj split).1
          exact single (of_decide_eq_true separating)
        obtain ⟨character, more, shape, wide⟩ :=
          exists_decodeLossy_of_many filled (by simpa [isSingle] using clear)
        rw [split, decodeLossy_append_cons (of_decide_eq_true separating),
          shape]
        exact ⟨character, _, rfl, .inr ⟨wide, large⟩⟩

end EventRelay.Text.Utf8
