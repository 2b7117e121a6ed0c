import EventRelay.Proofs.Http.Cookie
import EventRelay.Proofs.Text.Plain
import EventRelay.Proofs.Text.Split
import EventRelay.Proofs.Text.Utf8

namespace EventRelay.Http

/-!
# Cookies that are sent back

A cookie is written with its attributes behind a semicolon, and a client sends
back what stands before the first one.  The value that is found then is the
value that was written if and only if it is printable ASCII, has no semicolon
and does not end in a blank.
-/

namespace HeaderValue

/-- A character that may stand in a header: no control character but the tab. -/
def IsWritable (character : Char) : Prop :=
  character = '\t' ∨ 0x20 ≤ character.toNat ∧ character.toNat ≠ 0x7F

/-- A character that can be read from a header: printable ASCII or a tab. -/
def IsPrintable (character : Char) : Prop :=
  character = '\t' ∨ 0x20 ≤ character.toNat ∧ character.toNat ≤ 0x7E

instance (character : Char) : Decidable (IsWritable character) :=
  inferInstanceAs (Decidable (_ ∨ _))

instance (character : Char) : Decidable (IsPrintable character) :=
  inferInstanceAs (Decidable (_ ∨ _))

theorem IsPrintable.isWritable
    {character : Char}
    (printable : IsPrintable character) :
    IsWritable character := by
  rcases printable with isTab | ⟨least, most⟩
  · exact .inl isTab
  · exact .inr ⟨least, by omega⟩

private theorem eq_tab_iff {character : Char} :
    character = '\t' ↔ character.toNat = 9 :=
  Char.toNat_inj.symm

/-- Characters of a text are tested one by one. -/
theorem forall_mem_of_all
    {Holds : Char → Prop}
    [DecidablePred Holds]
    {text : List Char}
    (all : text.all (Holds ·) = true) :
    ∀ character ∈ text, Holds character :=
  fun character member =>
    of_decide_eq_true (List.all_eq_true.mp all character member)

/-- A text is a header value if all its characters may stand in one. -/
theorem ofText?_eq_some_iff {text : List Char} {value : HeaderValue} :
    ofText? text = some value ↔
      (∀ character ∈ text, IsWritable character) ∧
        Text.Utf8.encode text = value := by
  have allowed : (Text.Utf8.encode text).all isAllowed = true ↔
      ∀ character ∈ text, IsWritable character := by
    rw [List.all_eq_true]
    refine Text.Utf8.forall_mem_encode_iff ?_ ?_
    · intro character single
      have fits : character.toNat < 256 := by omega
      simp [isAllowed, IsWritable, eq_tab_iff, UInt8.le_iff_toNat_le,
        ← UInt8.toNat_inj, Text.Utf8.toNat_toUInt8 fits]
    · intro character byte many large
      simp only [isAllowed, IsWritable, eq_tab_iff, UInt8.le_iff_toNat_le,
        ← UInt8.toNat_inj, UInt8.reduceToNat, Bool.or_eq_true,
        Bool.and_eq_true, beq_iff_eq, bne_iff_ne, decide_eq_true_iff, ne_eq]
      omega
  rw [ofText?, ofBytes?, Option.ite_none_right_eq_some, allowed,
    Option.some.injEq]

end HeaderValue

open HeaderValue (IsPrintable IsWritable eq_tab_iff)

namespace Cookie

/--
A written text is readable exactly when all its characters are printable.
-/
private theorem isReadable_encode {text : List Char} :
    IsReadable (Text.Utf8.encode text) ↔
      ∀ character ∈ text, IsPrintable character := by
  refine Text.Utf8.forall_mem_encode_iff ?_ ?_
  · intro character single
    have fits : character.toNat < 256 := by omega
    simp only [IsPrintable, eq_tab_iff, UInt8.le_iff_toNat_le,
      ← UInt8.toNat_inj, UInt8.reduceToNat, Text.Utf8.toNat_toUInt8 fits]
  · intro character byte many large
    simp only [IsPrintable, eq_tab_iff, UInt8.le_iff_toNat_le,
      ← UInt8.toNat_inj, UInt8.reduceToNat]
    omega

/-- A printable text is read back from its bytes. -/
private theorem characters_encode
    {text : List Char}
    (printable : ∀ character ∈ text, IsPrintable character) :
    characters (Text.Utf8.encode text) = text := by
  induction text with
  | nil =>
      rfl
  | cons character rest inductionHypothesis =>
      obtain ⟨isPrintable, printableRest⟩ := List.forall_mem_cons.mp printable
      have single : character.toNat < 0x80 := by
        rcases isPrintable with rfl | ⟨-, most⟩
        · decide
        · omega
      rw [Text.Utf8.encode, List.flatMap_cons,
        Text.Utf8.encodeChar_of_single single, List.singleton_append,
        characters, List.map_cons, Text.Utf8.toNat_toUInt8 (by omega),
        Char.ofNat_toNat]
      exact congrArg (character :: ·) (inductionHypothesis printableRest)

/--
What a client sends back of a cookie: what stands before the first semicolon.
-/
def nameAndValue (cookie : HeaderValue) : HeaderValue :=
  cookie.takeWhile (· != 0x3B)

/-- A value that is found again as it was written. -/
structure Survives (value : List Char) : Prop where
  printable : ∀ character ∈ value, IsPrintable character
  whole : ';' ∉ value
  unblanked : ∀ character ∈ value.getLast?, character ≠ ' ' ∧ character ≠ '\t'

private theorem isPrintable_of_isPlain
    {character : Char}
    (isPlain : Text.isPlain character = true) :
    IsPrintable character := by
  have number := Text.toNat_of_isPlain isPlain
  exact .inr (by omega)

private theorem isWritable_of_mem_decimalText
    {number : Nat}
    {character : Char}
    (member : character ∈ Text.decimalText number) :
    IsWritable character := by
  have isPlain := Text.isPlain_of_mem_decimalText member
  exact (isPrintable_of_isPlain isPlain).isWritable

/-- The attributes follow the value behind a semicolon, whatever it is. -/
theorem exists_attributes (auth : Config.Auth) (maxAgeSecs : Nat) :
    ∃ attributes : List Char,
      (∀ character ∈ attributes, IsWritable character) ∧
        ∀ value : String,
          text auth value maxAgeSecs =
            auth.cookieName.toList ++
              '=' :: (value.toList ++ ';' :: attributes) := by
  refine ⟨" Path=/; HttpOnly; SameSite=".toList ++
    (auth.cookieSameSite.attributeText.toList ++
      ("; Max-Age=".toList ++
        (Text.decimalText maxAgeSecs ++
          if auth.cookieSecure then "; Secure".toList else []))), ?_, ?_⟩
  · have policy : ∀ character ∈ auth.cookieSameSite.attributeText.toList,
        IsWritable character := by
      cases auth.cookieSameSite <;>
        exact HeaderValue.forall_mem_of_all (by decide)
    have secure : ∀ character ∈
        (if auth.cookieSecure then "; Secure".toList else []),
        IsWritable character := by
      cases auth.cookieSecure <;>
        exact HeaderValue.forall_mem_of_all (by decide)
    intro character member
    simp only [List.mem_append] at member
    rcases member with path | sameSite | maxAge | digits | last
    · exact HeaderValue.forall_mem_of_all (by decide) character path
    · exact policy character sameSite
    · exact HeaderValue.forall_mem_of_all (by decide) character maxAge
    · exact isWritable_of_mem_decimalText digits
    · exact secure character last
  · intro value
    have opening : "; Path=/; HttpOnly; SameSite=".toList =
        ';' :: " Path=/; HttpOnly; SameSite=".toList :=
      rfl
    rw [text, opening]
    simp only [List.append_assoc, List.cons_append]

variable {auth : Config.Auth} {value : String} {maxAgeSecs : Nat}

/-- A cookie with a plain name can be written if its value can. -/
theorem header?_eq_some_iff
    (isPlainName : Text.isPlainName auth.cookieName.toList = true)
    {cookie : HeaderValue} :
    header? auth value maxAgeSecs = some cookie ↔
      (∀ character ∈ value.toList, IsWritable character) ∧
        Text.Utf8.encode (text auth value maxAgeSecs) = cookie := by
  obtain ⟨attributes, writable, shape⟩ := exists_attributes auth maxAgeSecs
  have name : ∀ character ∈ auth.cookieName.toList, IsWritable character :=
    fun _ member =>
      (isPrintable_of_isPlain
        (Text.isPlain_of_mem isPlainName member)).isWritable
  have whole :
      (∀ character ∈ text auth value maxAgeSecs, IsWritable character) ↔
        ∀ character ∈ value.toList, IsWritable character := by
    have equals : IsWritable '=' := by decide
    have semicolon : IsWritable ';' := by decide
    simp only [shape, List.forall_mem_append, List.forall_mem_cons, equals,
      semicolon, true_and]
    exact ⟨fun all => all.2.1, fun all => ⟨name, all, writable⟩⟩
  rw [header?, HeaderValue.ofText?_eq_some_iff, whole]

/--
What comes back of a written cookie is its name and the part of its value
before a semicolon.
-/
theorem nameAndValue_encode_text
    (isPlainName : Text.isPlainName auth.cookieName.toList = true) :
    nameAndValue (Text.Utf8.encode (text auth value maxAgeSecs)) =
      Text.Utf8.encode
        (auth.cookieName.toList ++
          '=' :: value.toList.takeWhile (· != ';')) := by
  obtain ⟨attributes, -, shape⟩ := exists_attributes auth maxAgeSecs
  have name : ∀ character ∈ auth.cookieName.toList,
      (character != ';') = true := by
    intro character member
    rw [bne_iff_ne]
    rintro rfl
    exact Text.not_mem_of_isPlainName isPlainName (by decide) member
  have single : (';').toNat < 0x80 := by
    decide
  have separator := Text.Utf8.takeWhile_encode single
    (text auth value maxAgeSecs)
  have kept : (value.toList ++ ';' :: attributes).takeWhile (· != ';') =
      value.toList.takeWhile (· != ';') := by
    rw [List.takeWhile_append]
    split
    · next clear =>
        simp [List.IsPrefix.eq_of_length (List.takeWhile_prefix _) clear]
    · rfl
  change (Text.Utf8.encode _).takeWhile (· != ';'.toNat.toUInt8) = _
  rw [separator, shape, List.takeWhile_append_of_pos name,
    List.takeWhile_cons_of_pos (by decide), kept]

/-- The only header has one piece. -/
theorem firstValue_singleton_iff
    {piece name value : List Char}
    (clear : ';' ∉ piece) :
    FirstValue [Text.Utf8.encode piece] name value ↔
      (∀ character ∈ piece, IsPrintable character) ∧
        IsPair piece name value := by
  by_cases printable : ∀ character ∈ piece, IsPrintable character
  · have onePiece : pieces [Text.Utf8.encode piece] = [piece] := by
      have single : Text.splitWhere (· == ';') piece = [piece] :=
        Text.splitWhere_of_clear fun character member =>
          beq_false_of_ne fun same => clear (same ▸ member)
      simp [pieces, isReadable_encode.mpr printable,
        characters_encode printable, single]
    simp only [FirstValue, onePiece, List.singleton_eq_append_iff]
    constructor
    · rintro ⟨skipped, found, rest, shape, isPair, -⟩
      obtain ⟨rfl, shape⟩ | ⟨rfl, shape⟩ := shape
      · obtain ⟨rfl, -⟩ := List.cons.inj shape
        exact ⟨printable, isPair⟩
      · contradiction
    · rintro ⟨-, isPair⟩
      exact ⟨[], piece, [], .inl ⟨rfl, rfl⟩, isPair, by simp⟩
  · have noPiece : pieces [Text.Utf8.encode piece] = [] := by
      simp [pieces, isReadable_encode, printable]
    simp [FirstValue, noPiece, printable]

/--
A plain name and a value are a pair as they stand, but for the blanks at the
end of the value.
-/
theorem pair?_of_isPlainName
    {name : List Char}
    (isPlainName : Text.isPlainName name = true)
    (kept : List Char) :
    pair? (name ++ '=' :: kept) =
      some (name, Text.trimEndWhere Text.isBlank kept) := by
  refine pair?_eq_some_iff.mpr
    ⟨Text.not_mem_of_isPlainName isPlainName (by decide), ⟨?_, ?_⟩,
      [], kept.rtakeWhile Text.isBlank, by simp,
      fun _ member => List.mem_rtakeWhile_imp member, ?_⟩
  · cases name with
    | nil =>
        contradiction
    | cons character rest =>
        intro item isFirst
        obtain rfl : character = item := by
          simpa using isFirst
        have number :=
          Text.toNat_of_isPlain
            (Text.isPlain_of_mem isPlainName List.mem_cons_self)
        simp only [Text.isBlank, Bool.or_eq_false_iff, Bool.and_eq_false_iff,
          decide_eq_false_iff_not, beq_eq_false_iff_ne]
        omega
  · intro character isLast
    rw [List.getLast?_append, List.getLast?_cons] at isLast
    obtain rfl := Option.some.inj isLast
    cases last : (Text.trimEndWhere Text.isBlank kept).getLast? with
    | none =>
        rfl
    | some character =>
        exact Text.last_rdropWhile last
  · change name ++ '=' :: kept =
      [] ++ (name ++ '=' :: kept.rdropWhile Text.isBlank ++ _)
    rw [List.nil_append, List.append_assoc, List.cons_append,
      List.rdropWhile_append_rtakeWhile]

/-- Of the printable characters, only the space and the tab are blank. -/
theorem isBlank_iff
    {character : Char}
    (printable : IsPrintable character) :
    Text.isBlank character = true ↔ character = ' ' ∨ character = '\t' := by
  have space : character = ' ' ↔ character.toNat = 0x20 :=
    Char.toNat_inj.symm
  simp only [IsPrintable, eq_tab_iff] at printable
  simp only [Text.isBlank, space, eq_tab_iff, Bool.or_eq_true,
    Bool.and_eq_true, decide_eq_true_iff, beq_iff_eq]
  omega

/--
A value survives when what stands before its first semicolon is printable and,
trimmed at its end, is the whole value.
-/
private theorem survives_iff {value : List Char} :
    Survives value ↔
      (∀ character ∈ value.takeWhile (· != ';'), IsPrintable character) ∧
        Text.trimEndWhere Text.isBlank (value.takeWhile (· != ';')) =
          value := by
  constructor
  · rintro ⟨printable, whole, unblanked⟩
    have kept : value.takeWhile (· != ';') = value := by
      rw [List.takeWhile_eq_self_iff]
      intro character member
      rw [bne_iff_ne]
      rintro rfl
      exact whole member
    rw [kept]
    refine ⟨printable, Text.rdropWhile_of_last fun character isLast => ?_⟩
    have notBlank := unblanked character isLast
    have isPrintable := printable character (List.mem_of_getLast? isLast)
    rw [← Bool.not_eq_true, isBlank_iff isPrintable]
    exact not_or.mpr notBlank
  · rintro ⟨printable, trimmed⟩
    -- Nothing is lost at the semicolon, for trimming could not make up for it.
    have isPrefix : value <+: value.takeWhile (· != ';') := by
      conv_lhs => rw [← trimmed]
      exact List.rdropWhile_prefix _ _
    have kept : value.takeWhile (· != ';') = value :=
      (List.takeWhile_prefix _).eq_of_length_le isPrefix.length_le
    rw [kept] at printable trimmed
    refine ⟨printable, fun member => ?_, fun character isLast => ?_⟩
    · simpa using List.takeWhile_eq_self_iff.mp kept ';' member
    · have isPrintable := printable character (List.mem_of_getLast? isLast)
      rw [← trimmed] at isLast
      have notBlank : Text.isBlank character = false :=
        Text.last_rdropWhile isLast
      rw [← Bool.not_eq_true, isBlank_iff isPrintable] at notBlank
      exact not_or.mp notBlank

/-- A written value is found again if and only if it survives. -/
theorem firstValue_iff_survives
    {name value : List Char}
    (isPlainName : Text.isPlainName name = true) :
    FirstValue
        [Text.Utf8.encode (name ++ '=' :: value.takeWhile (· != ';'))]
        name value ↔
      Survives value := by
  have clear : ';' ∉ name ++ '=' :: value.takeWhile (· != ';') := by
    intro member
    rcases List.mem_append.mp member with inName | inValue
    · exact Text.not_mem_of_isPlainName isPlainName (by decide) inName
    · rcases List.mem_cons.mp inValue with isEquals | inKept
      · contradiction
      · simpa using List.mem_takeWhile_imp inKept
  have name : ∀ character ∈ name, IsPrintable character :=
    fun _ member =>
      isPrintable_of_isPlain (Text.isPlain_of_mem isPlainName member)
  have equals : IsPrintable '=' := by decide
  rw [firstValue_singleton_iff clear, ← pair?_eq_some_iff,
    pair?_of_isPlainName isPlainName, survives_iff]
  simp only [List.forall_mem_append, List.forall_mem_cons, equals, true_and,
    Option.some.injEq, Prod.mk.injEq]
  exact and_congr_left fun _ => ⟨And.right, And.intro name⟩

end Cookie

end EventRelay.Http
