import EventRelay.Proofs.Text.Trimming
import EventRelay.Proofs.Url.Blanks
import EventRelay.Proofs.Url.Paths

namespace EventRelay.Url

/-!
# Host and number

What stands between the slashes of a scheme and the path decides credentials,
host and number alone: the rest of the text has no say in them, unless blanks
follow directly, with which there is no URL.
-/

variable {scheme : List Char}

theorem exists_of_bind
    {read : Except ε α}
    {next : α → Except ε β}
    {result : β}
    (reads : (read >>= next) = .ok result) :
    ∃ value, read = .ok value ∧ next value = .ok result := by
  cases read with
  | error error =>
      cases reads
  | ok value =>
      exact ⟨value, rfl, reads⟩

/-- After a host there is nothing, or a colon. -/
private theorem drop_hostLength (insideBrackets : Bool) (text : List Char) :
    text.drop (hostLength insideBrackets text) = [] ∨
      ∃ rest, text.drop (hostLength insideBrackets text) = ':' :: rest := by
  fun_induction hostLength insideBrackets text with
  | case1 =>
      exact .inl rfl
  | case2 inside character rest isColon =>
      exact .inr ⟨rest, by rw [List.drop_zero, isColon.1]⟩
  | case3 _ _ _ inductionHypothesis
  | case4 _ _ _ _ inductionHypothesis
  | case5 _ _ _ _ _ _ inductionHypothesis =>
      exact inductionHypothesis

/-- A number is made of digits, up to a backslash. -/
private theorem readNumber_of_ok
    {text : List Char}
    (noBackslash : '\\' ∉ text)
    {read : Option Nat × List Char}
    (reads : readNumber scheme text = .ok read) :
    (∀ digit ∈ text, digit.isDigit = true) ∧ read.2 = [] := by
  simp only [readNumber] at reads
  split at reads
  · cases reads
  split at reads
  · next first rest shape =>
      split at reads
      · next isBackslash =>
          have among : first ∈ text :=
            (List.dropWhile_sublist Char.isDigit).subset
              (shape ▸ List.mem_cons_self)
          exact (noBackslash (isBackslash ▸ among)).elim
      · cases reads
  · next allDigits =>
      refine ⟨List.dropWhile_eq_nil_iff.mp allDigits, ?_⟩
      split at reads <;> cases reads <;> rfl

/--
Without a backslash, host and number are the whole text: first the host, then
nothing or a colon and digits.
-/
theorem readLocation_of_ok
    {text : List Char}
    (noBackslash : '\\' ∉ text)
    {location : Location}
    (reads : readLocation .web scheme text = .ok location) :
    text ≠ [] ∧ location.rest = [] ∧
      ∃ name number,
        text = name ++ number ∧ Host.ofDomain name = .ok location.host ∧
          ∀ character ∈ number, character = ':' ∨ character.isDigit = true := by
  have whole := List.take_append_drop (hostLength false text) text
  simp only [readLocation] at reads
  split at reads
  · cases reads
  next notEmpty =>
  rw [if_pos (by rfl)] at reads
  have nonempty : text ≠ [] := by
    rintro rfl
    exact notEmpty ⟨rfl, .inl rfl⟩
  refine ⟨nonempty, ?_⟩
  obtain ⟨host, readsHost, reads⟩ := exists_of_bind reads
  rcases drop_hostLength false text with isLast | ⟨rest, isRest⟩
  · rw [isLast] at reads
    cases reads
    exact ⟨rfl, _, _, whole.symm, readsHost, isLast ▸ nofun⟩
  · rw [isRest] at reads whole
    obtain ⟨number, readsNumber, reads⟩ := exists_of_bind reads
    cases reads
    have restClear : '\\' ∉ rest := fun among =>
      noBackslash (whole ▸ List.mem_append_right _
        (List.mem_cons_of_mem _ among))
    obtain ⟨digits, ended⟩ := readNumber_of_ok restClear readsNumber
    exact ⟨ended, _, _, whole.symm, readsHost,
      List.forall_mem_cons.mpr ⟨.inl rfl, fun digit among =>
        .inr (digits digit among)⟩⟩

/-- No host and number end in a blank or a control character. -/
theorem readLocation_concat
    (text : List Char)
    {character : Char}
    (isTrimmed : isTrimmed character = true)
    (noBackslash : '\\' ∉ text ++ [character])
    (location : Location) :
    readLocation .web scheme (text ++ [character]) ≠ .ok location := by
  intro reads
  obtain ⟨-, -, name, number, whole, readsHost, inNumber⟩ :=
    readLocation_of_ok noBackslash reads
  have notDigit : character.isDigit = false :=
    forall_isTrimmed (fun first => first.isDigit = false) (by decide)
      isTrimmed
  rcases List.eq_nil_or_concat number with rfl | ⟨digits, last, rfl⟩
  · rw [List.append_nil] at whole
    exact ofDomain_concat text isTrimmed location.host (whole ▸ readsHost)
  · rw [List.concat_eq_append, ← List.append_assoc] at whole
    obtain ⟨-, isLast⟩ := List.append_inj' whole rfl
    obtain rfl : character = last := List.singleton_inj.mp isLast
    rcases inNumber character (by simp) with isColon | isDigit
    · exact ne_of_isTrimmed isTrimmed rfl isColon
    · rw [notDigit] at isDigit
      cases isDigit

/-- Neither a slash nor a mark of query or fragment. -/
def IsAuthority (text : List Char) : Prop :=
  ∀ character ∈ text, endsAuthority .web character = false

instance (text : List Char) : Decidable (IsAuthority text) :=
  List.decidableBAll (fun character => endsAuthority .web character = false)
    text

/-- Nothing, or what starts with a slash or a mark. -/
def IsEnding (text : List Char) : Prop :=
  ∀ first ∈ text.head?, endsAuthority .web first = true

/-- The URL with another path, query and fragment. -/
def ending (url : Url) (text : List Char) : Url :=
  withEnding .web
    { url with path := readPath .web (splitEnding text).path }
    (splitEnding text)

/-- The URL with a path of segments, and without query and fragment. -/
def below (url : Url) (segments : List (List Char)) : Url :=
  { url with path := .segments segments, query := none, fragment := none }

private theorem IsAuthority.noBackslash
    {authority location : List Char}
    (isAuthority : IsAuthority authority)
    (isEnd : location <:+ authority) :
    '\\' ∉ location := fun among => by
  have ends := isAuthority _ (isEnd.subset among)
  cases ends

theorem IsAuthority.isUnmarked
    {authority : List Char}
    (isAuthority : IsAuthority authority) :
    IsUnmarked authority := by
  have absent {mark : Char}
      (ends : endsAuthority .web mark = true) :
      mark ∉ authority := fun among =>
    Bool.false_ne_true (isAuthority mark among ▸ ends)
  exact ⟨absent rfl, absent rfl⟩

/-- An authority is what stands before its ending. -/
private theorem span_authority
    {authority rest : List Char}
    (isAuthority : IsAuthority authority)
    (isEnding : IsEnding rest) :
    (authority ++ rest).takeWhile (!endsAuthority .web ·) = authority ∧
      (authority ++ rest).dropWhile (!endsAuthority .web ·) = rest := by
  have kept : ∀ character ∈ authority,
      (!endsAuthority .web character) = true := by
    simpa [IsAuthority] using isAuthority
  rw [List.takeWhile_append_of_pos kept, List.dropWhile_append_of_pos kept]
  cases rest with
  | nil =>
      simp
  | cons first rest =>
      simp [isEnding first rfl]

/-- Host and number stand after the last sign that ends credentials. -/
theorem exists_credentials (authority : List Char) :
    ∃ credentials,
      (splitCredentials? authority).getD ([], authority) =
        (credentials, authority.rtakeWhile (· != '@')) := by
  rw [splitCredentials?]
  split
  · next noSign =>
      refine ⟨[], ?_⟩
      rw [List.rtakeWhile,
        List.takeWhile_eq_self_iff.mpr (List.dropWhile_eq_nil_iff.mp noSign),
        List.reverse_reverse]
      rfl
  · exact ⟨_, rfl⟩

/-- If there is a URL, its host and number do not depend on what follows. -/
theorem readAfterSlashes_of_ok
    {authority rest : List Char}
    (isAuthority : IsAuthority authority)
    (isEnding : IsEnding rest)
    {found : Url}
    (reads : readAfterSlashes .web scheme (authority ++ rest) = .ok found) :
    authority ≠ [] ∧
      ∀ other, IsEnding other →
        readAfterSlashes .web scheme (authority ++ other) =
          .ok (found.ending other) := by
  obtain ⟨taken, dropped⟩ := span_authority isAuthority isEnding
  obtain ⟨credentials, divided⟩ := exists_credentials authority
  have isEnd : authority.rtakeWhile (· != '@') <:+ authority :=
    List.rtakeWhile_suffix _ _
  have noBackslash : '\\' ∉ authority.rtakeWhile (· != '@') :=
    isAuthority.noBackslash isEnd
  simp only [readAfterSlashes, taken, dropped, divided] at reads
  split at reads
  · cases reads
  obtain ⟨located, readsLocation, reads⟩ := exists_of_bind reads
  obtain ⟨nonempty, isWhole, -⟩ := readLocation_of_ok noBackslash readsLocation
  split at reads
  · cases reads
  next hasHost =>
  obtain rfl := Except.ok.inj reads
  refine ⟨fun isEmpty => nonempty (List.suffix_nil.mp (isEmpty ▸ isEnd)), ?_⟩
  intro other otherEnding
  obtain ⟨taken, dropped⟩ := span_authority isAuthority otherEnding
  simp only [readAfterSlashes, taken, dropped, divided]
  -- What follows matters to a sign without credentials and host, but there is
  -- a host.
  rw [if_neg (by simp [nonempty]), readsLocation]
  simp only [bind, Except.bind]
  rw [if_neg hasHost, isWhole]
  rfl

/--
If there is a URL, it is its own one with the path, query and fragment that
were read.
-/
theorem eq_ending_of_ok
    {authority rest : List Char}
    (isAuthority : IsAuthority authority)
    (isEnding : IsEnding rest)
    {found : Url}
    (reads : readAfterSlashes .web scheme (authority ++ rest) = .ok found) :
    found = found.ending rest :=
  Except.ok.inj
    (reads.symm.trans
      ((readAfterSlashes_of_ok isAuthority isEnding reads).2 rest isEnding))

/-- An authority that ends in a blank is not read. -/
private theorem readAfterSlashes_concat
    (authority : List Char)
    {character : Char}
    (isTrimmed : isTrimmed character = true)
    (isAuthority : IsAuthority (authority ++ [character]))
    {rest : List Char}
    (isEnding : IsEnding rest)
    (found : Url) :
    readAfterSlashes .web scheme (authority ++ [character] ++ rest) ≠
      .ok found := by
  intro reads
  obtain ⟨taken, dropped⟩ := span_authority isAuthority isEnding
  obtain ⟨credentials, divided⟩ := exists_credentials (authority ++ [character])
  have notSign : (character != '@') = true :=
    bne_iff_ne.mpr (ne_of_isTrimmed isTrimmed rfl)
  have isEnd := isAuthority.noBackslash (List.rtakeWhile_suffix (· != '@') _)
  rw [List.rtakeWhile_concat_pos (· != '@') _ _ notSign] at divided isEnd
  simp only [readAfterSlashes, taken, dropped, divided] at reads
  split at reads
  · cases reads
  obtain ⟨located, readsLocation, -⟩ := exists_of_bind reads
  exact readLocation_concat _ isTrimmed isEnd located readsLocation

private theorem endsAuthority_of_isTrimmed
    {character : Char}
    (isTrimmed : isTrimmed character = true) :
    endsAuthority .web character = false :=
  forall_isTrimmed (fun first => endsAuthority .web first = false)
    (by decide) isTrimmed

/-- There is no URL if blanks or control characters stand before the path. -/
theorem readAfterSlashes_of_blanks
    {authority blanks rest : List Char}
    (isAuthority : IsAuthority authority)
    (nonempty : blanks ≠ [])
    (areTrimmed : ∀ blank ∈ blanks, isTrimmed blank = true)
    (isEnding : IsEnding rest)
    (found : Url) :
    readAfterSlashes .web scheme (authority ++ (blanks ++ rest)) ≠ .ok found := by
  obtain ⟨others, blank, rfl⟩ :=
    (List.eq_nil_or_concat blanks).resolve_left nonempty
  rw [List.concat_eq_append] at areTrimmed ⊢
  have stays : IsAuthority (authority ++ (others ++ [blank])) :=
    List.forall_mem_append.mpr ⟨isAuthority, fun character among =>
      endsAuthority_of_isTrimmed (areTrimmed character among)⟩
  rw [← List.append_assoc] at stays
  rw [← List.append_assoc, ← List.append_assoc]
  exact readAfterSlashes_concat (authority ++ others)
    (areTrimmed blank List.mem_concat_self) stays isEnding found

end EventRelay.Url
