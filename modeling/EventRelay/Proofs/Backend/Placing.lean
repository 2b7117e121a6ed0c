import EventRelay.Proofs.Backend.Addressing

namespace EventRelay.Backend

/-!
# Places below plain bases

Below a base of scheme, host, number and plain segments, the address of an
allowed query has the segments of the base and of the query, and nothing else:
no plain segment leads elsewhere, and none is encoded.
-/

open Text (trimEndWhere)
open Url (IsAuthority IsRooted isDropped isSlash isTrimmed lowerAscii pathText
  significant)

/-- Over a plain path, the ending of a URL is the URL below it. -/
private theorem ending_of_isPlainPath
    (url : Url)
    {segments : List (List Char)}
    (isPlainPath : IsPlainPath segments) :
    url.ending ('/' :: ['/'].intercalate segments) = url.below segments := by
  have isUnmarked := isPlainPath.isUnmarked
  have isRooted : IsRooted [] := nofun
  obtain ⟨noQuery, noFragment⟩ :
      (url.ending ('/' :: ['/'].intercalate segments)).query = none ∧
        (url.ending ('/' :: ['/'].intercalate segments)).fragment = none :=
    ending_unmarked_iff.mpr isUnmarked
  have isPath :
      (url.ending ('/' :: ['/'].intercalate segments)).path =
        .segments segments :=
    (path_ending isUnmarked url).trans
      (Url.readPath_segments isRooted isPlainPath.nonempty
        isPlainPath.arePlain)
  have parts (text : List Char) :
      url.ending text =
        { url with
          path := (url.ending text).path
          query := (url.ending text).query
          fragment := (url.ending text).fragment } :=
    rfl
  rw [parts, noQuery, noFragment, isPath, Url.below]

private theorem isAlpha_of_lowerAscii
    {character : Char}
    (isLower : (lowerAscii character).isLower = true) :
    character.isAlpha = true := by
  unfold lowerAscii Char.toLower at isLower
  split at isLower
  · next isUpper =>
      exact Bool.or_eq_true_iff.mpr (.inl (decide_eq_true isUpper))
  · exact Bool.or_eq_true_iff.mpr (.inr isLower)

/--
Scheme, host and number of a web page as they are written, without a blank at
the end, and the URL that is read of them.
-/
structure Origin where
  scheme : List Char
  /-- Host and number, perhaps behind credentials. -/
  location : List Char
  url : Url
  isWeb : scheme.map lowerAscii ∈ ["http".toList, "https".toList]
  isAuthority : IsAuthority location
  isUnpadded : IsUnpadded (scheme ++ ':' :: '/' :: '/' :: location)
  parses : Url.parse (scheme ++ ':' :: '/' :: '/' :: location) = .ok url

namespace Origin

/-- The text of an origin. -/
def text (origin : Origin) : List Char :=
  origin.scheme ++ ':' :: '/' :: '/' :: origin.location

/-- What is read of host and number. -/
def authority (origin : Origin) : List Char :=
  origin.location.filter (!isDropped ·)

variable (origin : Origin)

/-- The scheme consists of letters. -/
theorem isAlpha_of_mem_scheme
    {character : Char}
    (among : character ∈ origin.scheme) :
    character.isAlpha = true := by
  have areLower : ∀ scheme ∈ ["http".toList, "https".toList],
      scheme.all Char.isLower = true := by
    decide
  exact isAlpha_of_lowerAscii
    (List.all_eq_true.mp (areLower _ origin.isWeb) _
      (List.mem_map_of_mem among))

/-- The scheme of an origin is split off and lowered. -/
private theorem splitScheme?_text (rest : List Char) :
    Url.splitScheme? (origin.scheme ++ ':' :: rest) =
      some (origin.scheme.map lowerAscii, rest) := by
  have letters := @isAlpha_of_mem_scheme origin
  have isWeb := origin.isWeb
  cases shape : origin.scheme with
  | nil =>
      rw [shape] at isWeb
      simp at isWeb
  | cons first later =>
      rw [shape] at letters
      refine Url.splitScheme?_colon (letters List.mem_cons_self)
        (fun character among => ?_) rest
      simp [Url.isSchemeCharacter, Char.isAlphanum,
        letters (List.mem_cons_of_mem first among)]

/-- The scheme of an origin is a web scheme. -/
private theorem kind_eq :
    Url.SchemeKind.ofScheme (origin.scheme.map lowerAscii) = .web := by
  have areWeb : ∀ scheme ∈ ["http".toList, "https".toList],
      Url.SchemeKind.ofScheme scheme = .web := by
    decide
  exact areWeb _ origin.isWeb

/-- A text that begins like an origin is read on after its slashes. -/
private theorem parse_eq
    {text rest : List Char}
    (isText : significant text = origin.scheme ++ ':' :: '/' :: '/' :: rest)
    (noSlash : ∀ first ∈ rest.head?, isSlash .web first = false) :
    Url.parse text =
      Url.readAfterSlashes .web (origin.scheme.map lowerAscii) rest := by
  have slashes : ('/' :: '/' :: rest).dropWhile (isSlash .web) = rest :=
    Text.dropWhile_of_first noSlash
  rw [Url.parse, isText, origin.splitScheme?_text]
  simp only
  rw [origin.kind_eq, slashes]

/-- All of an origin is read but what is dropped everywhere. -/
theorem filter_text :
    (origin.text.dropWhile isTrimmed).filter (!isDropped ·) =
      origin.scheme ++ ':' :: '/' :: '/' :: origin.authority := by
  have marks : "://".toList.all (!isTrimmed ·) = true := by
    decide
  have untrimmed : ∀ character ∈ origin.scheme ++ "://".toList,
      isTrimmed character = false := by
    refine List.forall_mem_append.mpr
      ⟨fun letter among => ?_, by simpa using marks⟩
    refine eq_false_of_ne_true fun isTrimmed => ?_
    have noLetter := Url.forall_isTrimmed
      (fun first => first.isAlpha = false) (by decide) isTrimmed
    rw [origin.isAlpha_of_mem_scheme among] at noLetter
    cases noLetter
  have parts : origin.text =
      origin.scheme ++ "://".toList ++ origin.location := by
    simp [text]
  have starts : origin.text.dropWhile isTrimmed = origin.text := by
    refine Text.dropWhile_of_first fun first isFirst => untrimmed first ?_
    rw [parts, List.head?_append_of_ne_nil _ (by simp)] at isFirst
    exact List.mem_of_mem_head? isFirst
  rw [starts, parts, List.filter_append, Url.filter_of_untrimmed untrimmed]
  simp [authority]

private theorem isAuthority_authority : IsAuthority origin.authority :=
  fun character among =>
    origin.isAuthority character (List.mem_of_mem_filter among)

private theorem isSlash_of_head :
    ∀ first ∈ origin.authority.head?, isSlash .web first = false :=
  fun first isFirst => Url.isSlash_of_endsAuthority
    (origin.isAuthority_authority first (List.mem_of_mem_head? isFirst))

/-- Host and number are read, whatever path follows. -/
theorem reads :
    origin.authority ≠ [] ∧
      ∀ other, Url.IsEnding other →
        Url.readAfterSlashes .web (origin.scheme.map lowerAscii)
            (origin.authority ++ other) =
          .ok (origin.url.ending other) := by
  have nonempty : significant origin.text ≠ [] := fun isEmpty => by
    have parses : Url.parse origin.text = .ok origin.url := origin.parses
    rw [Url.parse, isEmpty] at parses
    cases parses
  have isText := (significant_of_isUnpadded nonempty origin.isUnpadded).trans
    origin.filter_text
  have alone :=
    (origin.parse_eq isText origin.isSlash_of_head).symm.trans origin.parses
  rw [← List.append_nil origin.authority] at alone
  have noEnding : Url.IsEnding [] := by
    rintro _ ⟨⟩
  exact Url.readAfterSlashes_of_ok origin.isAuthority_authority noEnding alone

/-- Behind an origin, a plain path is read as it is written. -/
theorem parse_below
    {segments : List (List Char)}
    (isPlainPath : IsPlainPath segments) :
    Url.parse (origin.text ++ pathText (.segments segments)) =
      .ok (origin.url.below segments) := by
  obtain ⟨nonempty, reads⟩ := origin.reads
  have untrimmed : ∀ character ∈ '/' :: ['/'].intercalate segments,
      isTrimmed character = false :=
    List.forall_mem_cons.mpr ⟨rfl, isPlainPath.isRelative.untrimmed⟩
  have isText :
      significant (origin.text ++ '/' :: ['/'].intercalate segments) =
        origin.scheme ++ ':' :: '/' :: '/' ::
          (origin.authority ++ '/' :: ['/'].intercalate segments) := by
    rw [Url.significant_append _ (List.cons_ne_nil _ _) untrimmed,
      origin.filter_text]
    simp
  have isEnding : Url.IsEnding ('/' :: ['/'].intercalate segments) := by
    rintro _ ⟨⟩
    rfl
  rw [Url.pathText_intercalate isPlainPath.nonempty, origin.parse_eq isText,
    reads _ isEnding, ending_of_isPlainPath origin.url isPlainPath]
  rw [List.head?_append_of_ne_nil _ nonempty]
  exact origin.isSlash_of_head

end Origin

/-- An origin, plain segments and slashes. -/
structure PlainBase where
  origin : Origin
  segments : List (List Char)
  slashes : Nat
  arePlain : ∀ segment ∈ segments, Text.isPlainSegment segment = true

namespace PlainBase

/-- The text of a base up to its last slashes. -/
def stem (base : PlainBase) : List Char :=
  base.origin.text ++ pathText (.segments base.segments)

/-- The text of a base. -/
def text (base : PlainBase) : String :=
  String.ofList (base.stem ++ List.replicate base.slashes '/')

variable (base : PlainBase)

/-- Without its last slashes, a base ends in its number, host or segment. -/
private theorem exists_stem_eq_append :
    ∃ front back, base.stem = front ++ back ∧ back ≠ [] ∧ '/' ∉ back := by
  rcases List.eq_nil_or_concat base.segments with
    noSegment | ⟨others, segment, shape⟩
  · refine ⟨base.origin.scheme ++ "://".toList, base.origin.location, ?_, ?_,
      fun isSlash => ?_⟩
    · simp [stem, Origin.text, noSegment, pathText]
    · rintro isEmpty
      exact base.origin.reads.1 (by rw [Origin.authority, isEmpty]; rfl)
    · have stays := base.origin.isAuthority '/' isSlash
      cases stays
  · rw [List.concat_eq_append] at shape
    have isPlain := base.arePlain segment (by rw [shape]; simp)
    have isName := (Text.isPlainSegment_iff.mp isPlain).1
    refine ⟨base.origin.text ++ pathText (.segments others) ++ ['/'], segment,
      ?_, ?_, Text.not_mem_of_isPlainName isName rfl⟩
    · simp [stem, shape, pathText]
    · rintro rfl
      cases isName

/-- Without the slashes at its end, a base is its stem. -/
private theorem trimEndWhere_text :
    trimEndWhere (· == '/') base.text.toList = base.stem := by
  rw [text, String.toList_ofList]
  have slashes : ∀ slash ∈ List.replicate base.slashes '/',
      (slash == '/') = true := fun slash among =>
    beq_iff_eq.mpr (List.eq_of_mem_replicate among)
  refine (Text.rdropWhile_append slashes base.stem).trans
    (Text.rdropWhile_of_last fun last isLast => ?_)
  obtain ⟨front, back, isStem, nonempty, noSlash⟩ := base.exists_stem_eq_append
  rw [isStem, List.getLast?_append_of_ne_nil _ nonempty] at isLast
  exact beq_false_of_ne fun isSlash =>
    noSlash (isSlash ▸ List.mem_of_getLast? isLast)

/--
The address of an allowed query has the segments of the base and of the query,
as they are.
-/
theorem address_eq
    {query : Query}
    (isAllowed : query.isAllowed = true) :
    address base.text query.path =
      .ok (base.origin.url.below (base.segments ++ query.segments)) := by
  have isPlainPath := isPlainPath_segments isAllowed
  have isText : addressText base.text.toList query.path =
      base.origin.text ++
        pathText (.segments (base.segments ++ query.segments)) := by
    rw [Query.path, isPlainPath.isRelative.addressText_eq,
      base.trimEndWhere_text,
      ← Url.pathText_intercalate isPlainPath.nonempty, Url.pathText_append,
      stem, List.append_assoc]
  rw [address_eq_ok_iff, isText]
  exact base.origin.parse_below (isPlainPath.append base.arePlain)

end PlainBase

/-- Two numbers with the same text are the same. -/
private theorem decimalText_injective : Function.Injective Text.decimalText :=
  fun first second same => by
    have values := congrArg (Nat.ofDigitChars 10 · 0) same
    simpa [Text.decimalText, Nat.ofDigitChars_toDigits] using values

/-- Two whole numbers with the same text are the same. -/
private theorem wholeText_injective : Function.Injective Json.Number.wholeText := by
  have noSign (value : Nat) (rest : List Char) :
      '-' :: rest ≠ Text.decimalText value := fun same => by
    have among : '-' ∈ Text.decimalText value := same ▸ List.mem_cons_self
    have isDigit := Nat.isDigit_of_mem_toDigits (by decide) (by decide) among
    cases isDigit
  intro first second same
  unfold Json.Number.wholeText at same
  split at same <;> split at same
  · have sizes := decimalText_injective (List.cons.inj same).2
    omega
  · exact absurd same (noSign _ _)
  · exact absurd same.symm (noSign _ _)
  · have sizes := decimalText_injective same
    omega

/-- Different queries have different segments. -/
private theorem segments_injective : Function.Injective Query.segments := by
  intro first second same
  cases first <;> cases second <;>
    simp_all [Query.segments, wholeText_injective.eq_iff]

/-- Two plain paths with the same text have the same segments. -/
private theorem IsPlainPath.eq_of_pathText
    {first second : List (List Char)}
    (firstPlain : IsPlainPath first)
    (secondPlain : IsPlainPath second)
    (same : pathText (.segments first) = pathText (.segments second)) :
    first = second := by
  have pieces {segments : List (List Char)}
      (isPlainPath : IsPlainPath segments) :
      Text.splitWhere (· == '/') (['/'].intercalate segments) = segments := by
    refine Text.splitWhere_intercalate (by rfl) isPlainPath.nonempty
      fun segment isSegment character among => beq_false_of_ne ?_
    rintro rfl
    have isPlain := isPlainPath.arePlain segment isSegment
    exact Text.not_mem_of_isPlainName (Text.isPlainSegment_iff.mp isPlain).1
      rfl among
  rw [Url.pathText_intercalate firstPlain.nonempty,
    Url.pathText_intercalate secondPlain.nonempty] at same
  rw [← pieces firstPlain, ← pieces secondPlain, (List.cons.inj same).2]

/-- Below a base, different queries have different paths. -/
theorem PlainBase.query_eq_of_pathText
    (base : PlainBase)
    {first second : Query}
    (firstAllowed : first.isAllowed = true)
    (secondAllowed : second.isAllowed = true)
    (same : pathText (.segments (base.segments ++ first.segments)) =
      pathText (.segments (base.segments ++ second.segments))) :
    first = second := by
  have segments := IsPlainPath.eq_of_pathText
    ((isPlainPath_segments firstAllowed).append base.arePlain)
    ((isPlainPath_segments secondAllowed).append base.arePlain) same
  exact segments_injective (List.append_cancel_left segments)

/-- A query with an address is allowed, and the address is below the base. -/
private theorem of_queryAddress_eq_ok
    {source : Config.Source}
    {query : Query}
    {url : Url}
    (addresses : queryAddress source query = .ok url) :
    query.isAllowed = true ∧
      ∃ base,
        source.apiUrl = some base ∧ address base query.path = .ok url := by
  unfold queryAddress at addresses
  split at addresses
  · cases addresses
  · next allowed =>
      split at addresses
      · cases addresses
      · next base configured =>
          exact ⟨by simpa using allowed, base, configured, addresses⟩

/-- Credentials are taken out of a URL, but its path is requested. -/
private theorem path_of_prepare
    {url : Url}
    {token : Option String}
    {request : Http.Outgoing}
    (prepares : Http.Outgoing.prepare url token = .ok request) :
    request.url.path = url.path := by
  unfold Http.Outgoing.prepare at prepares
  split at prepares
  · cases prepares
  extract_lets credentials bare given at prepares
  have samePath : bare.path = url.path := by
    unfold bare
    split <;> rfl
  split at prepares
  · cases prepares
  split at prepares
  · cases prepares
  · obtain rfl := Except.ok.inj prepares
    exact samePath

/-- What is sent for a query goes to the path of its address. -/
theorem of_mem_sent
    {network : Http.Network}
    {source : Config.Source}
    {query : Query}
    {request : Http.Outgoing}
    (isSent : request ∈ (load network source query).sent) :
    query.isAllowed = true ∧
      ∃ base url,
        source.apiUrl = some base ∧ address base query.path = .ok url ∧
          request.url.path = url.path := by
  unfold load at isSent
  split at isSent
  · cases isSent
  · next url addresses =>
      obtain ⟨allowed, base, configured, isAddress⟩ :=
        of_queryAddress_eq_ok addresses
      simp only at isSent
      split at isSent
      · cases isSent
      · next prepared prepares =>
          obtain rfl := List.mem_singleton.mp isSent
          exact ⟨allowed, base, url, configured, isAddress,
            path_of_prepare prepares⟩

end EventRelay.Backend
