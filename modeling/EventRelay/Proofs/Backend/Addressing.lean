import EventRelay.Proofs.Backend.Joining
import EventRelay.Proofs.Config.Accepting

namespace EventRelay.Backend

/-!
# Addresses below a base

Validation reads a base as a URL, but addresses are joined from its text.  The
two agree for every query if the base has no mark of query or fragment, no
blanks at its end and no empty segment before its last slashes; otherwise they
agree for no query.
-/

open Text (trimEndWhere)
open Url (IsEnding IsRooted IsUnmarked isTrimmed pathText stemText)

/-- Segments that make up a path: at least one, and all of them plain. -/
structure IsPlainPath (segments : List (List Char)) : Prop where
  nonempty : segments ≠ []
  arePlain : ∀ segment ∈ segments, Text.isPlainSegment segment = true

namespace IsPlainPath

variable {segments : List (List Char)}

/-- A plain path under plain segments is plain. -/
theorem append
    {base : List (List Char)}
    (basePlain : ∀ segment ∈ base, Text.isPlainSegment segment = true)
    (isPlainPath : IsPlainPath segments) :
    IsPlainPath (base ++ segments) :=
  ⟨List.append_ne_nil_of_right_ne_nil base isPlainPath.nonempty,
    List.forall_mem_append.mpr ⟨basePlain, isPlainPath.arePlain⟩⟩

/-- A plain path has slashes and plain characters. -/
theorem isPlain_of_mem
    (isPlainPath : IsPlainPath segments)
    {character : Char}
    (among : character ∈ ['/'].intercalate segments) :
    character = '/' ∨ Text.isPlain character = true := by
  have inText : character ∈ pathText (.segments segments) := by
    rw [Url.pathText_intercalate isPlainPath.nonempty]
    exact List.mem_cons_of_mem '/' among
  obtain ⟨segment, isSegment, among⟩ := List.mem_flatMap.mp inText
  refine (List.mem_cons.mp among).imp_right fun inSegment => ?_
  have isPlain := isPlainPath.arePlain segment isSegment
  exact Text.isPlain_of_mem (Text.isPlainSegment_iff.mp isPlain).1 inSegment

/-- A plain path holds no mark of a query or a fragment. -/
theorem isUnmarked (isPlainPath : IsPlainPath segments) :
    IsUnmarked ('/' :: ['/'].intercalate segments) := by
  have absent {mark : Char}
      (notSlash : mark ≠ '/')
      (other : Text.isPlain mark = false) :
      mark ∉ '/' :: ['/'].intercalate segments := by
    rintro (isFirst | ⟨_, among⟩)
    · exact notSlash rfl
    · have isPlain := (isPlainPath.isPlain_of_mem among).resolve_left notSlash
      rw [isPlain] at other
      cases other
  exact ⟨absent (by decide) rfl, absent (by decide) rfl⟩

/-- A plain path has no blank, and starts with no slash. -/
theorem isRelative (isPlainPath : IsPlainPath segments) :
    IsRelative (['/'].intercalate segments) := by
  constructor
  · intro character among
    rcases isPlainPath.isPlain_of_mem among with rfl | isPlain
    · rfl
    · exact Text.forall_isPlain (fun first => isTrimmed first = false)
        (by decide) isPlain
  · obtain ⟨first, others, rfl⟩ :=
      List.exists_cons_of_ne_nil isPlainPath.nonempty
    have isPlain := isPlainPath.arePlain first List.mem_cons_self
    have isName := (Text.isPlainSegment_iff.mp isPlain).1
    cases first with
    | nil =>
        cases isName
    | cons character rest =>
        have noSlash : '/' ∉ character :: rest :=
          Text.not_mem_of_isPlainName isName rfl
        have notSlash : some character ≠ some '/' := fun isSlash =>
          noSlash (List.mem_cons.mpr (.inl (Option.some.inj isSlash).symm))
        cases others with
        | nil =>
            exact notSlash
        | cons second others =>
            rw [List.intercalate_cons_cons]
            exact notSlash

end IsPlainPath

/-- A whole number is a plain segment. -/
private theorem isPlainSegment_wholeText (id : Int) :
    Text.isPlainSegment (Json.Number.wholeText id) = true := by
  have digits : ∀ character ∈ Text.decimalText id.natAbs,
      character.isDigit = true :=
    fun character among =>
      Nat.isDigit_of_mem_toDigits (by decide) (by decide) among
  have nonempty : Json.Number.wholeText id ≠ [] := by
    unfold Json.Number.wholeText
    split
    · exact List.cons_ne_nil _ _
    · exact Nat.toDigits_ne_nil
  have written : ∀ character ∈ Json.Number.wholeText id,
      character = '-' ∨ character.isDigit = true := by
    intro character among
    unfold Json.Number.wholeText at among
    split at among
    · exact (List.mem_cons.mp among).imp_right (digits character)
    · exact .inr (digits character among)
  have noDot : '.' ∉ Json.Number.wholeText id := fun among => by
    have isDot := written '.' among
    revert isDot
    decide
  refine Text.isPlainSegment_iff.mpr ⟨?_, ?_, ?_⟩
  · refine Bool.and_eq_true_iff.mpr ⟨by simpa using nonempty, ?_⟩
    refine List.all_eq_true.mpr fun character among => ?_
    rcases written character among with rfl | isDigit
    · rfl
    · simp [Text.isPlain, Char.isAlphanum, isDigit]
  · exact fun isDot => noDot (isDot ▸ List.mem_cons_self)
  · exact fun areDots => noDot (areDots ▸ List.mem_cons_self)

private theorem segments_ne_nil (query : Query) : query.segments ≠ [] := by
  cases query <;> exact List.cons_ne_nil _ _

/-- An allowed query has plain segments only. -/
theorem isPlainSegment_of_mem
    {query : Query}
    (isAllowed : query.isAllowed = true) :
    ∀ segment ∈ query.segments, Text.isPlainSegment segment = true := by
  have chosen : ∀ name ∈ query.chosen, Text.isPlainSegment name = true :=
    List.all_eq_true.mp isAllowed
  have deployments : Text.isPlainSegment "deployments".toList = true := by
    decide
  have container : Text.isPlainSegment "container".toList = true := by
    decide
  have state : Text.isPlainSegment "state".toList = true := by
    decide
  cases query <;>
    simp_all [Query.segments, Query.chosen, isPlainSegment_wholeText]

/-- The path of an allowed query is plain. -/
theorem isPlainPath_segments
    {query : Query}
    (isAllowed : query.isAllowed = true) :
    IsPlainPath query.segments :=
  ⟨segments_ne_nil query, isPlainSegment_of_mem isAllowed⟩

/-- The URL of a path below another URL. -/
structure Extends (found url : Url) (path : List Char) : Prop where
  scheme : url.scheme = found.scheme
  host : url.host = found.host
  portNumber : url.portNumber = found.portNumber
  path : pathText url.path =
    trimEndWhere (· == '/') (pathText found.path) ++ '/' :: path
  query : url.query = none
  fragment : url.fragment = none

/--
A base that paths can be joined to: its text has no query and no fragment, no
blank at its end, and no empty segment before its last slashes.
-/
structure IsExtendable (base : String) : Prop where
  isUnmarked : IsUnmarked base.toList
  isUnpadded : IsUnpadded base.toList
  /-- Only one slash stands between base and path. -/
  single : ∀ url, address base [] = .ok url →
    ¬['/', '/'] <:+ pathText url.path

private theorem mem_toOption {result : Except ε α} {value : α} :
    value ∈ result.toOption ↔ result = .ok value := by
  cases result with
  | error error =>
      exact iff_of_false nofun nofun
  | ok other =>
      exact Option.some_inj.trans (Except.ok.injEq other value).symm.to_iff

instance (base : String) : Decidable (IsExtendable base) :=
  decidable_of_iff
    (IsUnmarked base.toList ∧ IsUnpadded base.toList ∧
      ∀ url ∈ (address base []).toOption,
        ¬['/', '/'] <:+ pathText url.path)
    ⟨fun ⟨isUnmarked, isUnpadded, single⟩ =>
        ⟨isUnmarked, isUnpadded, fun url addresses =>
          single url (mem_toOption.mpr addresses)⟩,
      fun ⟨isUnmarked, isUnpadded, single⟩ =>
        ⟨isUnmarked, isUnpadded, fun url isUrl =>
          single url (mem_toOption.mp isUrl)⟩⟩

/-- An address is what the joined text is read as. -/
theorem address_eq_ok_iff
    {base : String}
    {path : List Char}
    {url : Url} :
    address base path = .ok url ↔
      Url.parse (addressText base.toList path) = .ok url := by
  simp only [address]
  split
  · next found parses =>
      rw [parses, Except.ok.injEq, Except.ok.injEq]
  · next error fails =>
      rw [fails]
      exact iff_of_false nofun nofun

/--
A text adds neither query nor fragment exactly when it holds no mark of one.
-/
theorem ending_unmarked_iff {found : Url} {text : List Char} :
    (found.ending text).query = none ∧ (found.ending text).fragment = none ↔
      IsUnmarked text :=
  (and_congr Option.map_eq_none_iff Option.map_eq_none_iff).trans
    Url.splitEnding_eq_iff

/-- A text without marks is read as the path. -/
theorem path_ending
    {text : List Char}
    (isUnmarked : IsUnmarked text)
    (found : Url) :
    (found.ending text).path = Url.readPath .web text :=
  congrArg (Url.readPath .web) (Url.path_splitEnding isUnmarked)

/-- Without marks, a slash is all that can follow host and number. -/
theorem isRooted_of_isEnding
    {stem : List Char}
    (isEnding : IsEnding stem)
    (isUnmarked : IsUnmarked stem) :
    IsRooted stem := by
  intro first isFirst
  have among : first ∈ stem := List.mem_of_mem_head? isFirst
  have ends := isEnding first isFirst
  have notQuery : first ≠ '?' := fun isMark =>
    isUnmarked.1 (isMark ▸ among)
  have notFragment : first ≠ '#' := fun isMark =>
    isUnmarked.2 (isMark ▸ among)
  simpa [Url.endsAuthority, Url.isSlash, notQuery, notFragment] using ends

private theorem trimEndWhere_eq_self_iff {text : List Char} :
    trimEndWhere (· == '/') text = text ↔ text.getLast? ≠ some '/' := by
  constructor
  · intro trims isLast
    rw [← trims] at isLast
    have kept := Text.last_rdropWhile isLast
    cases kept
  · intro noSlash
    exact Text.rdropWhile_of_last fun last isLast =>
      beq_false_of_ne fun isSlash => noSlash (isSlash ▸ isLast)

private theorem doubled_iff {text : List Char} :
    ['/', '/'] <:+ text ++ ['/'] ↔ text.getLast? = some '/' := by
  constructor
  · rintro ⟨before, whole⟩
    rw [show ['/', '/'] = ['/'] ++ ['/'] from rfl, ← List.append_assoc] at whole
    rw [← List.append_cancel_right whole, List.getLast?_concat]
  · intro isLast
    obtain ⟨before, rfl⟩ := List.getLast?_eq_some_iff.mp isLast
    exact ⟨before, (List.append_assoc before ['/'] ['/']).symm⟩

variable {base : String} {found : Url} {stem blanks : List Char} {count : Nat}

/-- Without marks, only the slashes at the end of a base are trimmed. -/
private theorem trimEndWhere_pathText
    (reading : Reading base.toList found stem blanks count)
    (isUnmarked : IsUnmarked stem) :
    trimEndWhere (· == '/') (pathText found.path) =
      trimEndWhere (· == '/') (stemText stem) := by
  have isRooted := isRooted_of_isEnding reading.isEnding isUnmarked
  have unmarked : IsUnmarked (stem ++ List.replicate count '/') :=
    Url.isUnmarked_append.mpr ⟨isUnmarked, isUnmarked_replicate count⟩
  have isPath : found.path =
      Url.readPath .web (stem ++ List.replicate count '/') :=
    (congrArg Url.path reading.alone).trans (path_ending unmarked found)
  rw [isPath]
  exact Url.trimEndWhere_pathText_slashes isRooted count

/-- What an address extends is said by the path alone. -/
private theorem extends_ending_iff
    (reading : Reading base.toList found stem blanks count)
    (rooted : blanks = [] ∨ stem ≠ [])
    {query : Query}
    (isAllowed : query.isAllowed = true) :
    Extends found (found.ending (stem ++ (blanks ++ '/' :: query.path)))
        query.path ↔
      IsUnmarked (stem ++ blanks) ∧
        stemText (stem ++ blanks) =
          trimEndWhere (· == '/') (stemText stem) := by
  have plain : IsUnmarked ('/' :: query.path) :=
    (isPlainPath_segments isAllowed).isUnmarked
  have unmarked_iff :
      IsUnmarked (stem ++ (blanks ++ '/' :: query.path)) ↔
        IsUnmarked (stem ++ blanks) := by
    rw [← List.append_assoc, Url.isUnmarked_append, and_iff_left plain]
  have path_iff (isUnmarked : IsUnmarked (stem ++ blanks)) :
      pathText
          (found.ending (stem ++ (blanks ++ '/' :: query.path))).path =
          trimEndWhere (· == '/') (pathText found.path) ++ '/' :: query.path ↔
        stemText (stem ++ blanks) =
          trimEndWhere (· == '/') (stemText stem) := by
    obtain ⟨stemUnmarked, -⟩ := Url.isUnmarked_append.mp isUnmarked
    have stemRooted := isRooted_of_isEnding reading.isEnding stemUnmarked
    have isRooted : IsRooted (stem ++ blanks) := by
      rcases rooted with noBlanks | hasSlash
      · rw [noBlanks, List.append_nil]
        exact stemRooted
      · rw [IsRooted, List.head?_append_of_ne_nil _ hasSlash]
        exact stemRooted
    rw [path_ending (unmarked_iff.mpr isUnmarked), ← List.append_assoc,
      trimEndWhere_pathText reading stemUnmarked, Query.path,
      Url.pathText_segments isRooted (segments_ne_nil query)
        (isPlainSegment_of_mem isAllowed)]
    exact List.append_left_inj _
  constructor
  · intro extending
    have isUnmarked := unmarked_iff.mp
      (ending_unmarked_iff.mp ⟨extending.query, extending.fragment⟩)
    exact ⟨isUnmarked, (path_iff isUnmarked).mp extending.path⟩
  · rintro ⟨isUnmarked, ends⟩
    obtain ⟨noQuery, noFragment⟩ :=
      ending_unmarked_iff.mpr (unmarked_iff.mpr isUnmarked)
    exact ⟨rfl, rfl, rfl, (path_iff isUnmarked).mpr ends, noQuery, noFragment⟩

/--
The address of nothing below a base shows whether segments before its last
slashes are empty.
-/
private theorem single_iff
    (reading : Reading base.toList found stem [] count)
    (isUnmarked : IsUnmarked stem) :
    (∀ url, address base [] = .ok url → ¬['/', '/'] <:+ pathText url.path) ↔
      trimEndWhere (· == '/') (stemText stem) = stemText stem := by
  have isRooted := isRooted_of_isEnding reading.isEnding isUnmarked
  have unmarked : IsUnmarked (stem ++ ['/']) :=
    Url.isUnmarked_append.mpr ⟨isUnmarked, isUnmarked_replicate 1⟩
  have addresses : address base [] = .ok (found.ending (stem ++ ['/'])) :=
    address_eq_ok_iff.mpr (reading.joins (.inl rfl) [] ⟨nofun, nofun⟩)
  have isPath :
      pathText (found.ending (stem ++ ['/'])).path = stemText stem ++ ['/'] :=
    (congrArg pathText (path_ending unmarked found)).trans
      (Url.pathText_slash isRooted)
  rw [trimEndWhere_eq_self_iff, Ne, ← doubled_iff, ← isPath, addresses]
  constructor
  · exact fun single => single _ rfl
  · rintro single _ ⟨⟩
    exact single

/--
If something is read of a base, its addresses extend it if and only if it can
be extended.
-/
private theorem extends_iff_isExtendable
    (reading : Reading base.toList found stem blanks count)
    {query : Query}
    (isAllowed : query.isAllowed = true) :
    (∃ url, address base query.path = .ok url ∧
        Extends found url query.path) ↔
      IsExtendable base := by
  have isRelative : IsRelative query.path :=
    (isPlainPath_segments isAllowed).isRelative
  constructor
  · rintro ⟨url, addresses, extending⟩
    have parses := address_eq_ok_iff.mp addresses
    -- Otherwise the host would end in a blank.
    have rooted : blanks = [] ∨ stem ≠ [] := by
      by_contra neither
      simp only [not_or, not_not] at neither
      exact reading.refuses neither.1 neither.2 _ isRelative url parses
    obtain rfl := Except.ok.inj
      ((reading.joins rooted _ isRelative).symm.trans parses)
    obtain ⟨isUnmarked, ends⟩ :=
      (extends_ending_iff reading rooted isAllowed).mp extending
    -- Blanks would make the last segment longer than it is in the base.
    obtain rfl : blanks = [] := by
      by_contra someBlanks
      have longer := Url.length_stemText_lt (rooted.resolve_left someBlanks)
        someBlanks reading.areTrimmed
      have shorter :=
        (List.rdropWhile_prefix (· == '/') (stemText stem)).length_le
      rw [ends] at longer
      exact absurd longer (Nat.not_lt.mpr shorter)
    rw [List.append_nil] at isUnmarked ends
    exact
      { isUnmarked := reading.isUnmarked.mpr isUnmarked
        isUnpadded := reading.isUnpadded.mp rfl
        single := (single_iff reading isUnmarked).mpr ends.symm }
  · intro isExtendable
    obtain rfl : blanks = [] :=
      reading.isUnpadded.mpr isExtendable.isUnpadded
    have isUnmarked := reading.isUnmarked.mp isExtendable.isUnmarked
    have ends := (single_iff reading isUnmarked).mp isExtendable.single
    refine ⟨_, address_eq_ok_iff.mpr (reading.joins (.inl rfl) _ isRelative),
      (extends_ending_iff reading (.inl rfl) isAllowed).mpr ?_⟩
    rw [List.append_nil]
    exact ⟨isUnmarked, ends.symm⟩

/--
A valid base is read as a URL, and the addresses of all queries extend this
URL, or those of none do: that is up to the base alone.
-/
theorem addresses_extend_iff
    {config : Config.RelayConfig}
    (isValid : Config.isValid config = true)
    {base : String}
    (isBase : config.source.apiUrl = some base) :
    ∃ found, Url.ofString base = .ok found ∧
      ∀ query : Query, query.isAllowed = true →
        ((∃ url, address base query.path = .ok url ∧
            Extends found url query.path) ↔
          IsExtendable base) := by
  have isWebUrl : Config.isWebUrl base = true :=
    (Config.isValid_iff_accepted.mp isValid).apiUrl base isBase
  unfold Config.isWebUrl at isWebUrl
  split at isWebUrl
  · next found parses =>
      obtain ⟨stem, blanks, count, reading⟩ := exists_reading parses isWebUrl
      exact ⟨found, parses, fun query isAllowed =>
        extends_iff_isExtendable reading isAllowed⟩
  · cases isWebUrl

/-- A configuration that differs from the standard in the base only. -/
def configuredWith (base : String) : Config.RelayConfig :=
  { Config.RelayConfig.standard with source.apiUrl := some base }

/-- Two slashes at the end of a base do no harm. -/
theorem extends_slashes :
    Config.isValid (configuredWith "http://host/api//") = true ∧
      ∃ url,
        address "http://host/api//" (Query.container ['a']).path = .ok url ∧
          pathText url.path = "/api/container/state/a".toList := by
  have isValid :
      Config.isValid (configuredWith "http://host/api//") = true := by
    decide +kernel
  have isExtendable : IsExtendable "http://host/api//" := by
    decide +kernel
  have reads : ∀ found ∈ (Url.ofString "http://host/api//").toOption,
      trimEndWhere (· == '/') (pathText found.path) = "/api".toList := by
    decide +kernel
  obtain ⟨found, isFound, extends_iff⟩ := addresses_extend_iff isValid rfl
  obtain ⟨url, addresses, extending⟩ :=
    (extends_iff (.container ['a']) (by decide)).mpr isExtendable
  refine ⟨isValid, url, addresses, ?_⟩
  rw [extending.path, reads found (mem_toOption.mpr isFound)]
  decide

/-- A blank at the end of a base is accepted, but takes a query its address. -/
theorem blank_takes_address :
    let base := "http://host "
    Config.isValid (configuredWith base) = true ∧
      (configuredWith base).source.apiUrl = some base ∧
        Query.deployments.isAllowed = true ∧
          (address base Query.deployments.path).toOption = none := by
  decide +kernel

end EventRelay.Backend
