import EventRelay.Http.Cookie
import EventRelay.Proofs.Text.Trimming

namespace EventRelay.Http.Cookie

/-!
# Reading cookies

A client sends its cookies in headers.  Of the headers that can be read, the
pieces between semicolons are taken in order, and a piece is a pair if it has
an equals sign.  The value that is found for a name is that of the first pair
with this name, whatever pieces and headers surround it.
-/

/--
A piece is a pair of a name and a value: the name ends before the first equals
sign, and blanks around the pair do not count.
-/
structure IsPair (piece name value : List Char) : Prop where
  unequal : '=' ∉ name
  trimmed : Text.Trimmed Text.isBlank piece (name ++ '=' :: value)

/-- A header that can be read has printable ASCII characters and tabs only. -/
def IsReadable (header : HeaderValue) : Prop :=
  ∀ byte ∈ header, byte = 0x09 ∨ 0x20 ≤ byte ∧ byte ≤ 0x7E

instance (header : HeaderValue) : Decidable (IsReadable header) :=
  inferInstanceAs (Decidable (∀ byte ∈ header, _))

/-- The characters of a header that can be read. -/
def characters (header : HeaderValue) : List Char :=
  header.map fun byte => Char.ofNat byte.toNat

/-- The pieces of all headers that can be read, in order. -/
def pieces (headers : List HeaderValue) : List (List Char) :=
  (headers.filter (IsReadable ·)).flatMap fun header =>
    Text.splitWhere (· == ';') (characters header)

/-- The first pair with a name has a value. -/
def FirstValue (headers : List HeaderValue) (name value : List Char) : Prop :=
  ∃ skipped piece rest : List _,
    pieces headers = skipped ++ piece :: rest ∧
      IsPair piece name value ∧
        ∀ earlier ∈ skipped, ∀ other, ¬IsPair earlier name other

/-- A byte is visible when it is a tab or printable ASCII. -/
private theorem isVisible_iff {byte : UInt8} :
    HeaderValue.isVisible byte = true ↔
      byte = 0x09 ∨ 0x20 ≤ byte ∧ byte ≤ 0x7E := by
  have below : byte < 0x7F ↔ byte ≤ 0x7E := by
    simp only [UInt8.lt_iff_toNat_lt, UInt8.le_iff_toNat_le,
      UInt8.reduceToNat]
    omega
  simp [HeaderValue.isVisible, below]

/-- A header is read as its characters exactly when it is readable. -/
theorem text?_eq (header : HeaderValue) :
    HeaderValue.text? header =
      if IsReadable header then some (characters header) else none := by
  have readable : header.all HeaderValue.isVisible = true ↔
      IsReadable header := by
    simp only [List.all_eq_true, isVisible_iff, IsReadable]
  simp only [HeaderValue.text?, readable, characters]

private theorem filterMap_text? (headers : List HeaderValue) :
    headers.filterMap HeaderValue.text? =
      (headers.filter (IsReadable ·)).map characters := by
  induction headers with
  | nil =>
      rfl
  | cons header rest inductionHypothesis =>
      rw [List.filterMap_cons, List.filter_cons, text?_eq]
      by_cases readable : IsReadable header <;>
        simp [readable, inductionHypothesis]

/-- Reading a pair finds exactly what is a pair. -/
theorem pair?_eq_some_iff {piece name value : List Char} :
    pair? piece = some (name, value) ↔ IsPair piece name value := by
  rw [pair?, Text.splitOnce?_eq_some_iff]
  constructor
  · rintro ⟨clear, separator, separating, shape⟩
    obtain rfl : separator = '=' := by
      simpa using separating
    refine ⟨fun member => ?_, Text.trimWhere_eq_iff.mp shape⟩
    simpa using clear '=' member
  · rintro ⟨clear, trimmed⟩
    refine ⟨fun character member => ?_, '=', rfl,
      Text.trimWhere_eq_iff.mpr trimmed⟩
    exact beq_false_of_ne fun same => clear (same ▸ member)

/-- The pairs of all headers are those among their pieces, in order. -/
theorem allPairs_eq (headers : List HeaderValue) :
    allPairs headers = (pieces headers).filterMap pair? := by
  rw [allPairs, filterMap_text?, List.flatMap_map, pieces,
    List.filterMap_flatMap]
  rfl

/-- What is looked up comes from the first item that gives the key. -/
private theorem lookup_filterMap_eq_some_iff
    [BEq κ]
    [LawfulBEq κ]
    {items : List α}
    {pairOf : α → Option (κ × β)}
    {key : κ}
    {value : β} :
    (items.filterMap pairOf).lookup key = some value ↔
      ∃ skipped item rest,
        items = skipped ++ item :: rest ∧
          pairOf item = some (key, value) ∧
            ∀ earlier ∈ skipped, ∀ other,
              pairOf earlier ≠ some (key, other) := by
  rw [List.lookup_eq_some_iff]
  constructor
  · rintro ⟨before, after, shape, differ⟩
    obtain ⟨left, right, rfl, rfl, shapeRight⟩ :=
      List.filterMap_eq_append_iff.mp shape
    obtain ⟨silent, item, rest, rfl, noEntry, found, -⟩ :=
      List.filterMap_eq_cons_iff.mp shapeRight
    refine ⟨left ++ silent, item, rest, by simp, found, ?_⟩
    intro earlier member other given
    rcases List.mem_append.mp member with inLeft | inSilent
    · have differs :=
        differ (key, other) (List.mem_filterMap.mpr ⟨earlier, inLeft, given⟩)
      simp at differs
    · rw [noEntry earlier inSilent] at given
      contradiction
  · rintro ⟨skipped, item, rest, rfl, found, none⟩
    refine ⟨skipped.filterMap pairOf, rest.filterMap pairOf, ?_, ?_⟩
    · rw [List.filterMap_append, List.filterMap_cons_some found]
    · intro entry member
      obtain ⟨earlier, inSkipped, given⟩ := List.mem_filterMap.mp member
      rw [bne_iff_ne]
      rintro rfl
      exact none earlier inSkipped entry.2 given

/-- The value found for a name is that of the first pair with this name. -/
theorem find?_eq_some_iff
    {headers : List HeaderValue}
    {name : String}
    {value : List Char} :
    find? headers name = some value ↔
      FirstValue headers name.toList value := by
  rw [find?, allPairs_eq, lookup_filterMap_eq_some_iff]
  simp only [pair?_eq_some_iff, FirstValue, ne_eq]

end EventRelay.Http.Cookie
