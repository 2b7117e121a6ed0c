import EventRelay.Proofs.Url.Authority

namespace EventRelay.Url

/-!
# Up to the path

The text of a web page's URL has a start that decides scheme, credentials,
host and number.  Whatever follows it, with a slash or a mark first, decides
path, query and fragment only.
-/

variable {scheme text : List Char} {found : Url}

private theorem scheme_of_readAfterSlashes
    {kind : SchemeKind}
    (reads : readAfterSlashes kind scheme text = .ok found) :
    found.scheme = scheme := by
  simp only [readAfterSlashes] at reads
  split at reads
  · cases reads
  obtain ⟨located, -, reads⟩ := exists_of_bind reads
  split at reads
  · cases reads
  · exact Except.ok.inj reads ▸ rfl

private theorem scheme_of_readFile
    (reads : readFile scheme text = .ok found) :
    found.scheme = scheme := by
  simp only [readFile] at reads
  split at reads
  · split at reads
    · obtain ⟨located, -, reads⟩ := exists_of_bind reads
      exact Except.ok.inj reads ▸ rfl
    · exact Except.ok.inj reads ▸ rfl
  · exact Except.ok.inj reads ▸ rfl

private theorem scheme_of_readOther
    (reads : readOther scheme text = .ok found) :
    found.scheme = scheme := by
  unfold readOther at reads
  split at reads
  · exact scheme_of_readAfterSlashes reads
  · exact Except.ok.inj reads ▸ rfl

/-- The schemes of web pages have the colon followed by slashes. -/
theorem ofScheme_of_isWeb (isWeb : found.isWeb = true) :
    SchemeKind.ofScheme found.scheme = .web := by
  simp only [Url.isWeb, Bool.or_eq_true, beq_iff_eq] at isWeb
  rcases isWeb with isHttp | isHttps
  · rw [isHttp]
    rfl
  · rw [isHttps]
    rfl

/-- A letter and other characters of schemes, up to a colon, are a scheme. -/
theorem splitScheme?_colon
    {first : Char}
    {later : List Char}
    (isAlpha : first.isAlpha = true)
    (areLater : ∀ character ∈ later, isSchemeCharacter character = true)
    (rest : List Char) :
    splitScheme? (first :: later ++ ':' :: rest) =
      some ((first :: later).map lowerAscii, rest) := by
  have isFirst : isSchemeCharacter first = true := by
    simp [isSchemeCharacter, Char.isAlphanum, isAlpha]
  have areScheme : ∀ character ∈ first :: later,
      isSchemeCharacter character = true :=
    List.forall_mem_cons.mpr ⟨isFirst, areLater⟩
  have colon : isSchemeCharacter ':' = false := rfl
  unfold splitScheme?
  rw [List.dropWhile_append_of_pos areScheme,
    List.takeWhile_append_of_pos areScheme]
  simp [isAlpha, colon]

/-- Up to its colon, a text decides its scheme. -/
theorem splitScheme?_of_some
    {rest : List Char}
    (splits : splitScheme? text = some (scheme, rest)) :
    ∃ written,
      text = written ++ ':' :: rest ∧
        (∀ character ∈ written, isSchemeCharacter character = true) ∧
        ∀ other, splitScheme? (written ++ ':' :: other) =
          some (scheme, other) := by
  unfold splitScheme? at splits
  split at splits
  · cases splits
  next first later =>
  split at splits
  · next isAlpha =>
      split at splits
      · next after shape =>
          cases splits
          have whole := List.takeWhile_append_dropWhile
            (p := isSchemeCharacter) (l := first :: later)
          have isFirst : isSchemeCharacter first = true := by
            simp [isSchemeCharacter, Char.isAlphanum, isAlpha]
          have written : ∀ character ∈
              (first :: later).takeWhile isSchemeCharacter,
              isSchemeCharacter character = true :=
            fun character among => List.mem_takeWhile_imp among
          rw [shape] at whole
          refine ⟨_, whole.symm, written, fun other => ?_⟩
          rw [List.takeWhile_cons_of_pos isFirst] at written ⊢
          exact splitScheme?_colon isAlpha
            (List.forall_mem_cons.mp written).2 other
      · cases splits
  · cases splits

/-- Kind and scheme of a text that gives the URL of a web page. -/
theorem splitScheme?_of_isWeb
    (parses : parse text = .ok found)
    (isWeb : found.isWeb = true) :
    ∃ scheme later,
      splitScheme? (significant text) = some (scheme, later) ∧
        SchemeKind.ofScheme scheme = .web ∧
          readAfterSlashes .web scheme (later.dropWhile (isSlash .web)) =
            .ok found := by
  unfold parse at parses
  split at parses
  · cases parses
  next scheme later splits =>
  have isScheme : found.scheme = scheme := by
    split at parses
    · exact scheme_of_readAfterSlashes parses
    · exact scheme_of_readFile parses
    · exact scheme_of_readOther parses
  have kind : SchemeKind.ofScheme scheme = .web :=
    isScheme ▸ ofScheme_of_isWeb isWeb
  rw [kind] at parses
  exact ⟨scheme, later, splits, kind, parses⟩

/-- A text after a scheme is made of slashes, authority and ending. -/
theorem exists_authority (later : List Char) :
    ∃ slashes authority rest,
      later = slashes ++ (authority ++ rest) ∧
        later.dropWhile (isSlash .web) = authority ++ rest ∧
          (∀ slash ∈ slashes, isSlash .web slash = true) ∧
            IsAuthority authority ∧ IsEnding rest := by
  let beyond := later.dropWhile (isSlash .web)
  have parts : beyond =
      beyond.takeWhile (!endsAuthority .web ·) ++
        beyond.dropWhile (!endsAuthority .web ·) :=
    List.takeWhile_append_dropWhile.symm
  refine ⟨later.takeWhile (isSlash .web), _, _, ?_, parts, ?_, ?_, ?_⟩
  · rw [← parts]
    exact List.takeWhile_append_dropWhile.symm
  · exact fun slash among => List.mem_takeWhile_imp among
  · exact fun character among => by
      simpa using List.mem_takeWhile_imp among
  · intro first isFirst
    have found := List.head?_dropWhile_not (!endsAuthority .web ·) beyond
    rw [isFirst] at found
    simpa using found

theorem isSlash_of_endsAuthority
    {character : Char}
    (stays : endsAuthority .web character = false) :
    isSlash .web character = false := by
  simp only [endsAuthority, Bool.or_eq_false_iff] at stays
  simp [isSlash, stays]

/-- Slashes before an authority are dropped. -/
private theorem dropWhile_isSlash_append
    {slashes authority : List Char}
    (areSlashes : ∀ slash ∈ slashes, isSlash .web slash = true)
    (nonempty : authority ≠ [])
    (isAuthority : IsAuthority authority)
    (rest : List Char) :
    (slashes ++ (authority ++ rest)).dropWhile (isSlash .web) =
      authority ++ rest := by
  rw [List.dropWhile_append_of_pos areSlashes]
  refine Text.dropWhile_of_first fun first isFirst => ?_
  rw [List.head?_append_of_ne_nil _ nonempty] at isFirst
  exact isSlash_of_endsAuthority
    (isAuthority first (List.mem_of_mem_head? isFirst))

/-- Up to its slashes, a text decides how the rest is read. -/
structure IsFront (scheme front : List Char) : Prop where
  isUnmarked : IsUnmarked front
  reads : ∀ {text authority rest : List Char},
    authority ≠ [] → IsAuthority authority →
      significant text = front ++ (authority ++ rest) →
        parse text = readAfterSlashes .web scheme (authority ++ rest)

/-- A scheme of web pages with its colon and slashes is such a front. -/
private theorem isFront_of_splitScheme?
    {later slashes : List Char}
    (splits : splitScheme? text = some (scheme, later))
    (kind : SchemeKind.ofScheme scheme = .web)
    (areSlashes : ∀ slash ∈ slashes, isSlash .web slash = true) :
    ∃ written,
      text = written ++ ':' :: later ∧
        IsFront scheme (written ++ ':' :: slashes) := by
  obtain ⟨written, whole, isWritten, resplits⟩ := splitScheme?_of_some splits
  have absent {mark : Char}
      (outside : isSchemeCharacter mark = false)
      (notColon : mark ≠ ':')
      (noSlash : isSlash .web mark = false) :
      mark ∉ written ++ ':' :: slashes := by
    simp only [List.mem_append, List.mem_cons]
    rintro (inScheme | isColon | among)
    · exact Bool.false_ne_true (outside ▸ isWritten mark inScheme)
    · exact notColon isColon
    · exact Bool.false_ne_true (noSlash ▸ areSlashes mark among)
  refine ⟨written, whole, ⟨absent rfl (by decide) rfl,
    absent rfl (by decide) rfl⟩, ?_⟩
  intro text authority rest nonempty isAuthority isText
  rw [List.append_assoc, List.cons_append] at isText
  rw [parse, isText, resplits]
  simp only
  rw [kind, dropWhile_isSlash_append areSlashes nonempty isAuthority]

/-- A start that decides all of a URL but path, query and fragment. -/
structure Opening (found : Url) (start : List Char) : Prop where
  endsInHost : ∀ last ∈ start.getLast?, endsAuthority .web last = false
  isUnmarked : IsUnmarked start
  /-- Whatever follows it is path, query and fragment. -/
  reads : ∀ {text rest : List Char},
    IsEnding rest → significant text = start ++ rest →
      parse text = .ok (found.ending rest)
  /-- Blanks and control characters may not follow it directly. -/
  refuses : ∀ {text blanks rest : List Char},
    blanks ≠ [] → (∀ blank ∈ blanks, isTrimmed blank = true) →
      IsEnding rest → significant text = start ++ (blanks ++ rest) →
        ∀ url, parse text ≠ .ok url

/--
A text that gives the URL of a web page has a start that decides all but the
path, the query and the fragment.
-/
theorem exists_opening
    (parses : parse text = .ok found)
    (isWeb : found.isWeb = true) :
    ∃ start rest,
      significant text = start ++ rest ∧ IsEnding rest ∧
        found = found.ending rest ∧ Opening found start := by
  obtain ⟨scheme, later, splits, kind, reads⟩ :=
    splitScheme?_of_isWeb parses isWeb
  obtain ⟨slashes, authority, rest, rfl, beyond, areSlashes, isAuthority,
    isEnding⟩ := exists_authority later
  obtain ⟨written, whole, isFront⟩ :=
    isFront_of_splitScheme? splits kind areSlashes
  rw [beyond] at reads
  obtain ⟨nonempty, rereads⟩ :=
    readAfterSlashes_of_ok isAuthority isEnding reads
  refine ⟨written ++ ':' :: slashes ++ authority, rest, ?_, isEnding,
    eq_ending_of_ok isAuthority isEnding reads, ?_⟩
  · rw [whole]
    simp
  exact
    { endsInHost := by
        intro last isLast
        rw [List.getLast?_append_of_ne_nil _ nonempty] at isLast
        exact isAuthority last (List.mem_of_getLast? isLast)
      isUnmarked :=
        isUnmarked_append.mpr ⟨isFront.isUnmarked, isAuthority.isUnmarked⟩
      reads := fun isEnding isText => by
        rw [List.append_assoc] at isText
        rw [isFront.reads nonempty isAuthority isText]
        exact rereads _ isEnding
      refuses := by
        intro text blanks rest someBlanks areTrimmed isEnding isText url parses
        rw [List.append_assoc] at isText
        rw [isFront.reads nonempty isAuthority isText] at parses
        exact readAfterSlashes_of_blanks isAuthority someBlanks areTrimmed
          isEnding url parses }

end EventRelay.Url
