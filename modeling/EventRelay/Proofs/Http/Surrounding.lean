import EventRelay.Config.Validation
import EventRelay.Proofs.Http.Returning
import EventRelay.Proofs.Text.Scanning

namespace EventRelay.Http.Cookie

/-!
# Cookies among others

A client sends the cookie back among others of any kind: several pairs make a
header, and several headers make a request.  As long as no pair before it has
its name, what surrounds the cookie does not matter: the value that is found is
the value that was written, under the same condition as for a cookie that is
sent alone.
-/

open HeaderValue (IsPrintable)

/-- A header of several pairs. -/
def joined (pairs : List HeaderValue) : HeaderValue :=
  [0x3B, 0x20].intercalate pairs

/--
What a cookie is sent with: other pairs in its header, and other headers.
-/
structure Surroundings where
  headersBefore : List HeaderValue
  pairsBefore : List HeaderValue
  pairsAfter : List HeaderValue
  headersAfter : List HeaderValue

namespace Surroundings

/-- The headers in which a cookie is sent. -/
def headers (around : Surroundings) (sent : HeaderValue) :
    List HeaderValue :=
  around.headersBefore ++
    joined (around.pairsBefore ++ sent :: around.pairsAfter) ::
      around.headersAfter

/--
The surroundings leave the first place among the pairs with a name free, and
do not make the header of the cookie unreadable.
-/
structure LeavesRoom (around : Surroundings) (name : List Char) : Prop where
  readable :
    ∀ pair ∈ around.pairsBefore ++ around.pairsAfter, IsReadable pair
  first :
    ∀ piece ∈ pieces (around.headersBefore ++ around.pairsBefore),
      ∀ value, ¬IsPair piece name value

end Surroundings

@[simp] theorem allPairs_append (first second : List HeaderValue) :
    allPairs (first ++ second) = allPairs first ++ allPairs second := by
  simp [allPairs]

private theorem allPairs_of_isReadable
    {header : HeaderValue}
    (readable : IsReadable header) :
    allPairs [header] = pairs (characters header) := by
  simp [allPairs, text?_eq, readable]

/-- A blank in front of a piece does not count. -/
private theorem pair?_cons_blank
    {blank : Char}
    (isBlank : Text.isBlank blank = true)
    (piece : List Char) :
    pair? (blank :: piece) = pair? piece := by
  rw [pair?, pair?, Text.trimWhere, Text.trimWhere,
    List.dropWhile_cons_of_pos isBlank]

/-- A blank in front of a header does not count. -/
private theorem pairs_cons_space (value : List Char) :
    pairs (' ' :: value) = pairs value := by
  obtain ⟨piece, others, shape⟩ :=
    Text.exists_splitWhere (· == ';') value
  have spaced : Text.splitWhere (· == ';') (' ' :: value) =
      (' ' :: piece) :: others := by
    rw [Text.splitWhere_cons, shape]
    rfl
  rw [pairs, pairs, spaced, shape, List.filterMap_cons, List.filterMap_cons,
    pair?_cons_blank (by decide)]

private theorem isReadable_join {first rest : HeaderValue} :
    IsReadable (first ++ [0x3B, 0x20] ++ rest) ↔
      IsReadable first ∧ IsReadable rest := by
  have between : IsReadable [0x3B, 0x20] := by
    decide +kernel
  unfold IsReadable at between ⊢
  rw [List.forall_mem_append, List.forall_mem_append]
  exact ⟨fun all => ⟨all.1.1, all.2⟩, fun all => ⟨⟨all.1, between⟩, all.2⟩⟩

/-- A readable header has the pairs that its parts have. -/
private theorem allPairs_join
    {first rest : HeaderValue}
    (readableFirst : IsReadable first)
    (readableRest : IsReadable rest) :
    allPairs [first ++ [0x3B, 0x20] ++ rest] =
      allPairs [first] ++ allPairs [rest] := by
  have shape : characters (first ++ [0x3B, 0x20] ++ rest) =
      characters first ++ ';' :: ' ' :: characters rest := by
    simp [characters]
  have readable := isReadable_join.mpr ⟨readableFirst, readableRest⟩
  rw [allPairs_of_isReadable readable, allPairs_of_isReadable readableFirst,
    allPairs_of_isReadable readableRest, shape,
    ← pairs_cons_space (characters rest), pairs, pairs, pairs,
    Text.splitWhere_append (by decide), List.filterMap_append]

/-- Pairs that are joined are found as if each had a header of its own. -/
private theorem allPairs_joined
    {pairs : List HeaderValue}
    (nonempty : pairs ≠ [])
    (readable : ∀ pair ∈ pairs, IsReadable pair) :
    IsReadable (joined pairs) ∧ allPairs [joined pairs] = allPairs pairs := by
  induction pairs with
  | nil =>
      contradiction
  | cons first rest inductionHypothesis =>
      obtain ⟨readableFirst, readableRest⟩ := List.forall_mem_cons.mp readable
      cases rest with
      | nil =>
          rw [joined, List.intercalate_singleton]
          exact ⟨readableFirst, rfl⟩
      | cons second rest =>
          obtain ⟨readableJoined, same⟩ :=
            inductionHypothesis (List.cons_ne_nil _ _) readableRest
          have shape : joined (first :: second :: rest) =
              first ++ [0x3B, 0x20] ++ joined (second :: rest) :=
            List.intercalate_cons_cons
          rw [shape]
          refine ⟨isReadable_join.mpr ⟨readableFirst, readableJoined⟩, ?_⟩
          rw [allPairs_join readableFirst readableJoined, same,
            ← allPairs_append, List.singleton_append]

/-- Nothing is found for a name that no pair has. -/
theorem find?_eq_none_iff {headers : List HeaderValue} {name : String} :
    find? headers name = none ↔
      ∀ piece ∈ pieces headers, ∀ value,
        ¬IsPair piece name.toList value := by
  rw [find?, allPairs_eq, List.lookup_eq_none_iff]
  constructor
  · intro absent piece member value isPair
    have given : (name.toList, value) ∈ (pieces headers).filterMap pair? :=
      List.mem_filterMap.mpr ⟨piece, member, pair?_eq_some_iff.mpr isPair⟩
    simpa using absent _ given
  · rintro absent ⟨other, value⟩ given
    obtain ⟨piece, member, isPair⟩ := List.mem_filterMap.mp given
    rw [bne_iff_ne]
    rintro rfl
    exact absent piece member value (pair?_eq_some_iff.mp isPair)

/-- Surroundings that leave room do not change what is found. -/
theorem find?_headers
    {around : Surroundings}
    {name : String}
    (leavesRoom : around.LeavesRoom name.toList)
    {sent : HeaderValue}
    {value : List Char}
    (found : find? [sent] name = some value) :
    find? (around.headers sent) name = some value := by
  have isReadable : IsReadable sent := by
    by_contra unreadable
    simp [find?, allPairs, text?_eq, unreadable] at found
  have readable :
      ∀ pair ∈ around.pairsBefore ++ sent :: around.pairsAfter,
        IsReadable pair := by
    have others := leavesRoom.readable
    rw [List.forall_mem_append] at others ⊢
    exact ⟨others.1, List.forall_mem_cons.mpr ⟨isReadable, others.2⟩⟩
  have nonempty : around.pairsBefore ++ sent :: around.pairsAfter ≠ [] := by
    simp
  have before :
      (allPairs (around.headersBefore ++ around.pairsBefore)).lookup
        name.toList = none :=
    find?_eq_none_iff.mpr leavesRoom.first
  have own : (allPairs [sent]).lookup name.toList = some value :=
    found
  have shape :
      allPairs (around.headers sent) =
        allPairs (around.headersBefore ++ around.pairsBefore) ++
          (allPairs [sent] ++
            (allPairs around.pairsAfter ++ allPairs around.headersAfter)) := by
    rw [Surroundings.headers, ← List.singleton_append, allPairs_append,
      allPairs_append, (allPairs_joined nonempty readable).2,
      ← List.singleton_append]
    simp only [allPairs_append, List.append_assoc]
  rw [find?, shape, List.lookup_append, before, List.lookup_append, own]
  rfl

private theorem isPrintable_ofNat
    {byte : UInt8}
    (readable : byte = 0x09 ∨ 0x20 ≤ byte ∧ byte ≤ 0x7E) :
    IsPrintable (Char.ofNat byte.toNat) := by
  rcases readable with rfl | ⟨least, most⟩
  · decide
  · simp only [UInt8.le_iff_toNat_le, UInt8.reduceToNat] at least most
    have number : (Char.ofNat byte.toNat).toNat = byte.toNat :=
      Text.Utf8.toNat_ofNat (.inl (by omega))
    exact .inr (by omega)

/--
Whatever is found is printable, ends before a semicolon, and has no blank at
its end.
-/
private theorem survives_of_find?
    {headers : List HeaderValue}
    {name : String}
    {value : List Char}
    (found : find? headers name = some value) :
    Survives value := by
  obtain ⟨skipped, piece, rest, shape, isPair, -⟩ := find?_eq_some_iff.mp found
  have isPiece : piece ∈ pieces headers := by
    rw [shape]
    exact List.mem_append_right skipped List.mem_cons_self
  obtain ⟨header, isHeader, cut⟩ := List.mem_flatMap.mp isPiece
  have readable : IsReadable header := by
    simpa using (List.mem_filter.mp isHeader).2
  obtain ⟨-, ⟨-, last⟩, before, after, -, -, around⟩ := isPair
  have within : ∀ character ∈ value, character ∈ piece := by
    intro character member
    simp [around, member]
  have printable : ∀ character ∈ value, IsPrintable character := by
    intro character member
    have inHeader : character ∈ characters header :=
      Text.mem_of_mem_splitWhere cut character (within character member)
    obtain ⟨byte, isByte, rfl⟩ := List.mem_map.mp inHeader
    exact isPrintable_ofNat (readable byte isByte)
  refine ⟨printable, fun member => ?_, fun character isLast => ?_⟩
  · simpa using Text.clear_of_mem_splitWhere cut ';' (within ';' member)
  · have notBlank : Text.isBlank character = false := by
      refine last character ?_
      rw [List.getLast?_append, List.getLast?_cons, isLast]
      rfl
    have isPrintable := printable character (List.mem_of_getLast? isLast)
    rw [← Bool.not_eq_true, isBlank_iff isPrintable] at notBlank
    exact not_or.mp notBlank

/--
A cookie with an accepted name is found with the value that was written,
wherever it stands among others, if and only if the value is printable ASCII
without a semicolon or a blank at its end.
-/
theorem surrounded_cookie_is_found_iff
    {auth : Config.Auth}
    {value : String}
    {maxAgeSecs : Nat}
    {cookie : HeaderValue}
    {around : Surroundings}
    (named : Config.isCookieName auth.cookieName = true)
    (written : header? auth value maxAgeSecs = some cookie)
    (leavesRoom : around.LeavesRoom auth.cookieName.toList) :
    find? (around.headers (nameAndValue cookie)) auth.cookieName =
        some value.toList ↔
      Survives value.toList := by
  obtain ⟨-, rfl⟩ := (header?_eq_some_iff named).mp written
  rw [nameAndValue_encode_text named]
  constructor
  · exact survives_of_find?
  · intro survives
    have alone := (firstValue_iff_survives named).mpr survives
    exact find?_headers leavesRoom (find?_eq_some_iff.mpr alone)

/--
Others before and after the cookie: a header that cannot be read, names that
only look like that of the cookie, and later pairs with its name.
-/
def crowd : Surroundings where
  headersBefore :=
    [Text.Utf8.bytesOf "relay_session=\u00e9",
      Text.Utf8.bytesOf "theme=dark;relay_session ; Relay_Session=1"]
  pairsBefore :=
    [Text.Utf8.bytesOf "a=relay_session=2",
      Text.Utf8.bytesOf "relay_session =3"]
  pairsAfter :=
    [Text.Utf8.bytesOf "relay_session=4"]
  headersAfter :=
    [Text.Utf8.bytesOf "relay_session=5; b"]

/-- A value with a blank in front and equals signs is found in the crowd. -/
theorem found_in_crowd :
    let auth := Config.Auth.standard
    let cookie := Text.Utf8.encode (text auth " k=v=" 60)
    (Config.isCookieName auth.cookieName = true ∧
        header? auth " k=v=" 60 = some cookie ∧
          crowd.LeavesRoom auth.cookieName.toList) ∧
      find? (crowd.headers (nameAndValue cookie)) auth.cookieName =
        some " k=v=".toList := by
  intro auth cookie
  have named : Config.isCookieName auth.cookieName = true := by
    decide
  have written : header? auth " k=v=" 60 = some cookie := by
    decide +kernel
  have leavesRoom : crowd.LeavesRoom auth.cookieName.toList :=
    ⟨by decide +kernel, find?_eq_none_iff.mp (by decide +kernel)⟩
  have survives : Survives " k=v=".toList := by
    refine ⟨HeaderValue.forall_mem_of_all (by decide), by decide, ?_⟩
    intro character isLast
    obtain rfl : '=' = character := Option.some.inj isLast
    decide
  exact ⟨⟨named, written, leavesRoom⟩,
    (surrounded_cookie_is_found_iff named written leavesRoom).mpr survives⟩

end EventRelay.Http.Cookie
