import EventRelay.Backend.Loader
import EventRelay.Proofs.Url.Opening
import EventRelay.Proofs.Url.Significant

namespace EventRelay.Backend

/-!
# Bases as texts

A base is read without the blanks around it, but an address is joined from its
text as it stands.  Blanks at its end are then between base and path.
-/

open Url (IsUnmarked filter_of_untrimmed isDropped isTrimmed
  isUnmarked_significant last_significant significant significant_append)

/--
Whether a base does not end in a blank or a control character, unless it is
one that is dropped everywhere.
-/
def IsUnpadded (base : List Char) : Prop :=
  ∀ last ∈ (base.filter (!isDropped ·)).getLast?, isTrimmed last = false

instance (base : List Char) : Decidable (IsUnpadded base) :=
  Option.decidableForallMem (p := fun last => isTrimmed last = false) _

/-- Whether a path has no blank, and starts with no slash. -/
structure IsRelative (path : List Char) : Prop where
  untrimmed : ∀ character ∈ path, isTrimmed character = false
  noSlash : path.head? ≠ some '/'

/--
A base is a core and slashes, and in an address the core is followed by the
blanks at the end of the base, then by one slash and the path.
-/
structure Seam (base core blanks : List Char) (count : Nat) : Prop where
  reads : significant base = core ++ List.replicate count '/'
  joins : ∀ path, IsRelative path →
    significant (addressText base path) = core ++ (blanks ++ '/' :: path)
  areTrimmed : ∀ blank ∈ blanks, isTrimmed blank = true
  isUnpadded : significant base ≠ [] → (blanks = [] ↔ IsUnpadded base)

/-- A relative path is joined with one slash. -/
theorem IsRelative.addressText_eq
    {path : List Char}
    (isRelative : IsRelative path)
    (base : List Char) :
    addressText base path =
      Text.trimEndWhere (· == '/') base ++ '/' :: path := by
  have noSlash : path.dropWhile (· == '/') = path :=
    Text.dropWhile_of_first fun first isFirst =>
      beq_false_of_ne fun isSlash => isRelative.noSlash (isSlash ▸ isFirst)
  rw [addressText, noSlash]

private theorem significant_addressText
    (base : List Char)
    {path : List Char}
    (isRelative : IsRelative path) :
    significant (addressText base path) =
      ((Text.trimEndWhere (· == '/') base).dropWhile isTrimmed).filter
          (!isDropped ·) ++
        '/' :: path := by
  rw [isRelative.addressText_eq]
  exact significant_append _ (List.cons_ne_nil '/' path)
    (List.forall_mem_cons.mpr ⟨rfl, isRelative.untrimmed⟩)

/-- Slashes at the end of a base are followed by no blanks. -/
theorem seam_of_slashes (stem : List Char) (count : Nat)
    (trims : Text.trimEndWhere (· == '/')
      (stem ++ List.replicate (count + 1) '/') = stem) :
    Seam (stem ++ List.replicate (count + 1) '/')
      ((stem.dropWhile isTrimmed).filter (!isDropped ·)) [] (count + 1) := by
  have untrimmed : ∀ slash ∈ List.replicate (count + 1) '/',
      isTrimmed slash = false := fun slash among => by
    rw [List.eq_of_mem_replicate among]
    rfl
  exact
    { reads := significant_append stem (by simp) untrimmed
      joins := fun path isRelative => by
        rw [significant_addressText _ isRelative, trims]
        rfl
      areTrimmed := nofun
      isUnpadded := fun _ => iff_of_true rfl fun last isLast => by
        rw [List.filter_append, filter_of_untrimmed untrimmed,
          List.getLast?_append_of_ne_nil _ (by simp)] at isLast
        exact untrimmed last (List.mem_of_getLast? isLast) }

/--
What is read of the blanks and control characters at the end of a base if
something follows.
-/
def trailingBlanks (base : List Char) : List Char :=
  ((base.dropWhile isTrimmed).rtakeWhile isTrimmed).filter (!isDropped ·)

private theorem isTrimmed_of_mem_trailingBlanks {base : List Char} :
    ∀ blank ∈ trailingBlanks base, isTrimmed blank = true :=
  fun _ among => List.mem_rtakeWhile_imp (List.mem_of_mem_filter among)

private theorem filter_dropWhile_eq (base : List Char) :
    (base.dropWhile isTrimmed).filter (!isDropped ·) =
      significant base ++ trailingBlanks base := by
  have whole := List.rdropWhile_append_rtakeWhile
    (p := isTrimmed) (l := base.dropWhile isTrimmed)
  conv_lhs => rw [← whole, List.filter_append]
  rfl

/-- A base has no trailing blanks exactly when it is not padded. -/
private theorem trailingBlanks_eq_nil_iff
    {base : List Char}
    (nonempty : significant base ≠ []) :
    trailingBlanks base = [] ↔ IsUnpadded base := by
  have filtered : base.filter (!isDropped ·) =
      (base.takeWhile isTrimmed).filter (!isDropped ·) ++
        (significant base ++ trailingBlanks base) := by
    rw [← filter_dropWhile_eq, ← List.filter_append,
      List.takeWhile_append_dropWhile]
  rw [IsUnpadded, filtered,
    List.getLast?_append_of_ne_nil _ (by simp [nonempty])]
  constructor
  · intro noBlanks last isLast
    rw [noBlanks, List.append_nil] at isLast
    exact last_significant last isLast
  · intro isUnpadded
    by_contra someBlanks
    rw [List.getLast?_append_of_ne_nil _ someBlanks] at isUnpadded
    have isLast := List.getLast?_eq_some_getLast someBlanks
    have untrimmed := isUnpadded _ isLast
    rw [isTrimmed_of_mem_trailingBlanks _ (List.getLast_mem someBlanks)]
      at untrimmed
    cases untrimmed

/-- Without blanks at its end, a base is read as if something followed. -/
theorem significant_of_isUnpadded
    {base : List Char}
    (nonempty : significant base ≠ [])
    (isUnpadded : IsUnpadded base) :
    significant base = (base.dropWhile isTrimmed).filter (!isDropped ·) := by
  rw [filter_dropWhile_eq, (trailingBlanks_eq_nil_iff nonempty).mpr isUnpadded,
    List.append_nil]

/-- Without slashes at the end, the blanks of a base are kept in an address. -/
private theorem seam_of_no_slash {base : List Char}
    (trims : Text.trimEndWhere (· == '/') base = base) :
    Seam base (significant base) (trailingBlanks base) 0 :=
  { reads := (List.append_nil _).symm
    joins := fun path isRelative => by
      rw [significant_addressText _ isRelative, trims, filter_dropWhile_eq,
        List.append_assoc]
    areTrimmed := isTrimmed_of_mem_trailingBlanks
    isUnpadded := trailingBlanks_eq_nil_iff }

/-- Every base has one seam. -/
theorem exists_seam (base : List Char) :
    ∃ core blanks count, Seam base core blanks count := by
  have whole := List.rdropWhile_append_rtakeWhile
    (p := (· == '/')) (l := base)
  have slashes : base.rtakeWhile (· == '/') =
      List.replicate (base.rtakeWhile (· == '/')).length '/' :=
    List.eq_replicate_of_mem fun slash among => by
      simpa using List.mem_rtakeWhile_imp among
  cases length : (base.rtakeWhile (· == '/')).length with
  | zero =>
      rw [List.length_eq_zero_iff.mp length, List.append_nil] at whole
      exact ⟨_, _, _, seam_of_no_slash whole⟩
  | succ count =>
      rw [slashes, length] at whole
      have seam := seam_of_slashes (base.rdropWhile (· == '/')) count
      rw [whole] at seam
      exact ⟨_, _, _, seam rfl⟩

/--
Where host and number end, only slashes can be taken for the slashes that
follow a core.
-/
theorem exists_stem
    {start rest core : List Char}
    {count : Nat}
    (endsInHost :
      ∀ last ∈ start.getLast?, Url.endsAuthority .web last = false)
    (whole : start ++ rest = core ++ List.replicate count '/') :
    ∃ stem, core = start ++ stem ∧ rest = stem ++ List.replicate count '/' := by
  rcases List.append_eq_append_iff.mp whole with
    ⟨stem, isCore, isRest⟩ | ⟨slashes, isStart, areSlashes⟩
  · exact ⟨stem, isCore, isRest⟩
  · rcases List.eq_nil_or_concat slashes with rfl | ⟨others, last, rfl⟩
    · rw [List.append_nil] at isStart
      exact ⟨[], by rw [isStart, List.append_nil], areSlashes.symm⟩
    · -- The start would end in one of the slashes.
      rw [List.concat_eq_append] at isStart areSlashes
      have isSlash : last = '/' := by
        refine List.eq_of_mem_replicate (n := count) ?_
        rw [areSlashes]
        simp
      have stays := endsInHost last (by
        rw [isStart, ← List.append_assoc, List.getLast?_concat]
        rfl)
      rw [isSlash] at stays
      cases stays

/-- How a base is read alone, and in front of a path. -/
structure Reading
    (base : List Char)
    (found : Url)
    (stem blanks : List Char)
    (count : Nat) : Prop where
  alone : found = found.ending (stem ++ List.replicate count '/')
  isEnding : Url.IsEnding stem
  /-- The blanks belong to the path if there is one. -/
  joins : blanks = [] ∨ stem ≠ [] → ∀ path, IsRelative path →
    Url.parse (addressText base path) =
      .ok (found.ending (stem ++ (blanks ++ '/' :: path)))
  /-- Otherwise they would belong to the host. -/
  refuses : blanks ≠ [] → stem = [] → ∀ path, IsRelative path →
    ∀ url, Url.parse (addressText base path) ≠ .ok url
  areTrimmed : ∀ blank ∈ blanks, isTrimmed blank = true
  isUnpadded : blanks = [] ↔ IsUnpadded base
  isUnmarked : IsUnmarked base ↔ IsUnmarked stem

private theorem isEnding_append_iff
    {stem : List Char}
    (nonempty : stem ≠ [])
    (rest : List Char) :
    Url.IsEnding (stem ++ rest) ↔ Url.IsEnding stem := by
  rw [Url.IsEnding, Url.IsEnding, List.head?_append_of_ne_nil _ nonempty]

theorem isUnmarked_replicate (count : Nat) :
    IsUnmarked (List.replicate count '/') := by
  simp [IsUnmarked, List.mem_replicate]

/-- A base that is read as the URL of a web page is read in such a way. -/
theorem exists_reading
    {base : List Char}
    {found : Url}
    (parses : Url.parse base = .ok found)
    (isWeb : found.isWeb = true) :
    ∃ stem blanks count, Reading base found stem blanks count := by
  obtain ⟨start, rest, whole, isEnding, alone, opening⟩ :=
    Url.exists_opening parses isWeb
  obtain ⟨core, blanks, count, seam⟩ := exists_seam base
  obtain ⟨stem, rfl, rfl⟩ :=
    exists_stem opening.endsInHost (whole.symm.trans seam.reads)
  have stemEnding : Url.IsEnding stem := by
    by_cases isEmpty : stem = []
    · rw [isEmpty]
      exact nofun
    · exact (isEnding_append_iff isEmpty _).mp isEnding
  have slashEnding (path : List Char) : Url.IsEnding ('/' :: path) := by
    rintro _ ⟨⟩
    rfl
  have joined : ∀ path, IsRelative path →
      significant (addressText base path) =
        start ++ (stem ++ (blanks ++ '/' :: path)) :=
    fun path isRelative =>
      (seam.joins path isRelative).trans (List.append_assoc _ _ _)
  have nonempty : significant base ≠ [] := fun isEmpty => by
    rw [Url.parse, isEmpty] at parses
    cases parses
  refine ⟨stem, blanks, count, ?_⟩
  exact
    { alone
      isEnding := stemEnding
      joins := fun canFollow path isRelative => by
        refine opening.reads ?_ (joined path isRelative)
        by_cases isEmpty : stem = []
        -- Directly behind the host, the path starts with its own slash.
        · rw [isEmpty, canFollow.resolve_right (not_not_intro isEmpty)]
          exact slashEnding path
        · exact (isEnding_append_iff isEmpty _).mpr stemEnding
      refuses := fun someBlanks isEmpty path isRelative => by
        refine opening.refuses someBlanks seam.areTrimmed (slashEnding path) ?_
        rw [joined path isRelative, isEmpty]
        rfl
      areTrimmed := seam.areTrimmed
      isUnpadded := seam.isUnpadded nonempty
      isUnmarked := by
        rw [← isUnmarked_significant, whole, Url.isUnmarked_append,
          Url.isUnmarked_append]
        simp [opening.isUnmarked, isUnmarked_replicate] }

end EventRelay.Backend
