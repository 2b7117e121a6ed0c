import EventRelay.Proofs.Text.Plain
import EventRelay.Proofs.Text.Split
import EventRelay.Proofs.Text.Trimming
import EventRelay.Proofs.Url.Blanks

namespace EventRelay.Url

/-!
# Segments and slashes

A path is read segment by segment, each added to the path that those before it
lead to.  The last segment differs only in that dots leave an empty segment
behind.
-/

open Text (splitWhere trimEndWhere)

/-- Without the marks of query and fragment. -/
def IsUnmarked (text : List Char) : Prop :=
  '?' ∉ text ∧ '#' ∉ text

instance (text : List Char) : Decidable (IsUnmarked text) :=
  inferInstanceAs (Decidable (_ ∧ _))

/-- Two texts in a row hold no mark exactly when neither does. -/
theorem isUnmarked_append {first second : List Char} :
    IsUnmarked (first ++ second) ↔ IsUnmarked first ∧ IsUnmarked second := by
  simp only [IsUnmarked, List.mem_append, not_or]
  exact and_and_and_comm

private theorem splitOnce?_mark_eq_none_iff {mark : Char} {text : List Char} :
    Text.splitOnce? (· == mark) text = none ↔ mark ∉ text := by
  rw [Text.splitOnce?_eq_none_iff]
  constructor
  · intro clear among
    exact ne_of_beq_false (clear mark among) rfl
  · rintro absent character among
    exact beq_false_of_ne fun isMark => absent (isMark ▸ among)

/-- A text has neither query nor fragment if it has no mark of one. -/
theorem splitEnding_eq_iff {text : List Char} :
    (splitEnding text).query = none ∧ (splitEnding text).fragment = none ↔
      IsUnmarked text := by
  constructor
  · rintro ⟨noQuery, noFragment⟩
    have uncut : Text.splitOnce? (· == '#') text = none := by
      cases cut : Text.splitOnce? (· == '#') text with
      | none =>
          rfl
      | some parts =>
          simp only [splitEnding, cut] at noFragment
          split at noFragment <;> cases noFragment
    have unasked : Text.splitOnce? (· == '?') text = none := by
      cases cut : Text.splitOnce? (· == '?') text with
      | none =>
          rfl
      | some parts =>
          simp [splitEnding, uncut, cut] at noQuery
    exact ⟨splitOnce?_mark_eq_none_iff.mp unasked,
      splitOnce?_mark_eq_none_iff.mp uncut⟩
  · rintro ⟨noQuery, noFragment⟩
    simp [splitEnding, splitOnce?_mark_eq_none_iff.mpr noQuery,
      splitOnce?_mark_eq_none_iff.mpr noFragment]

/-- A text without marks is a path as a whole. -/
theorem path_splitEnding
    {text : List Char}
    (isUnmarked : IsUnmarked text) :
    (splitEnding text).path = text := by
  simp [splitEnding, splitOnce?_mark_eq_none_iff.mpr isUnmarked.1,
    splitOnce?_mark_eq_none_iff.mpr isUnmarked.2]

/-- Whether a segment stands for another place in the path. -/
def isDots (segment : List Char) : Bool :=
  isDoubleDot segment || isSingleDot segment

/-- A segment that leads nowhere else is added as it is encoded. -/
theorem addSegment_of_not_isDots
    {segment : List Char}
    (notDots : isDots segment = false)
    (path : List (List Char))
    (isLast : Bool) :
    addSegment .web path segment isLast =
      path ++ [Text.Percent.encode encodedInPath segment] := by
  simp only [isDots, Bool.or_eq_false_iff] at notDots
  simp [addSegment, notDots]

/-- As the last one, a segment may leave an empty one behind. -/
theorem exists_addSegment_last
    (path : List (List Char))
    (segment : List Char) :
    ∃ count,
      addSegment .web path segment true =
        addSegment .web path segment false ++ List.replicate count [] := by
  unfold addSegment
  split
  · exact ⟨1, by simp⟩
  split
  · exact ⟨1, by simp⟩
  · exact ⟨0, by simp⟩

/-- How dots are written, in lower case. -/
def dotSpellings : List (List Char) :=
  [['.'], ['%', '2', 'e'], ['.', '.'], ['.', '%', '2', 'e'],
    ['%', '2', 'e', '.'], ['%', '2', 'e', '%', '2', 'e']]

/-- A segment that stands for dots is one of their spellings. -/
private theorem map_lowerAscii_of_isDots
    {segment : List Char}
    (areDots : isDots segment = true) :
    segment.map lowerAscii ∈ dotSpellings := by
  simp only [isDots, isDoubleDot, isSingleDot, Bool.or_eq_true] at areDots
  rcases areDots with areDots | areDots
  all_goals
    split at areDots
    all_goals first
      | cases areDots; done
      | simp [dotSpellings, *]

/-- What ends in a blank or a control character leads nowhere else. -/
theorem isDots_concat
    (segment : List Char)
    {character : Char}
    (isTrimmed : isTrimmed character = true) :
    isDots (segment ++ [character]) = false := by
  have staysTrimmed : Url.isTrimmed (lowerAscii character) = true :=
    forall_isTrimmed
      (fun first => Url.isTrimmed (lowerAscii first) = true)
      (by decide) isTrimmed
  have untrimmed : ∀ spelling ∈ dotSpellings,
      spelling.all (!Url.isTrimmed ·) = true := by
    decide
  refine eq_false_of_ne_true fun areDots => ?_
  -- Lower case leaves such characters alone, and no spelling has one.
  have spelled := map_lowerAscii_of_isDots areDots
  have kept := List.all_eq_true.mp (untrimmed _ spelled)
    (lowerAscii character) (List.mem_map_of_mem List.mem_concat_self)
  rw [staysTrimmed] at kept
  cases kept

/-- A plain segment leads nowhere else. -/
private theorem isDots_of_isPlainSegment
    {segment : List Char}
    (isPlain : Text.isPlainSegment segment = true) :
    isDots segment = false := by
  obtain ⟨isName, notDot, notDots⟩ := Text.isPlainSegment_iff.mp isPlain
  have spellings : ∀ spelling ∈ dotSpellings,
      '%' ∈ spelling ∨ spelling = ['.'] ∨ spelling = ['.', '.'] := by
    decide
  have onPlain {character : Char} (among : character ∈ segment) :
      lowerAscii character ≠ '%' ∧
        (lowerAscii character = '.' → character = '.') :=
    Text.forall_isPlain
      (fun first =>
        lowerAscii first ≠ '%' ∧ (lowerAscii first = '.' → first = '.'))
      (by decide) (Text.isPlain_of_mem isName among)
  have dotsOnly {dots : List Char}
      (spelled : segment.map lowerAscii = dots)
      (only : dots.all (· == '.') = true) :
      segment = dots := by
    rw [← spelled, ← List.map_id segment, List.map_map]
    exact List.map_congr_left fun character among => by
      have isDot : lowerAscii character = '.' :=
        beq_iff_eq.mp (List.all_eq_true.mp only _
          (spelled ▸ List.mem_map_of_mem among))
      exact ((onPlain among).2 isDot).trans isDot.symm
  refine eq_false_of_ne_true fun areDots => ?_
  rcases spellings _ (map_lowerAscii_of_isDots areDots) with
    percent | isDot | areDots
  · obtain ⟨character, among, isPercent⟩ := List.mem_map.mp percent
    exact (onPlain among).1 isPercent
  · exact notDot (dotsOnly isDot rfl)
  · exact notDots (dotsOnly areDots rfl)

/-- A plain segment is added as it is written. -/
theorem addSegment_of_isPlainSegment
    {segment : List Char}
    (isPlain : Text.isPlainSegment segment = true)
    (path : List (List Char))
    (isLast : Bool) :
    addSegment .web path segment isLast = path ++ [segment] := by
  have isName := (Text.isPlainSegment_iff.mp isPlain).1
  have unencoded : ∀ character ∈ segment,
      (Text.Percent.isControl character || encodedInPath character) =
        false :=
    fun character among =>
      Text.forall_isPlain
        (fun first =>
          (Text.Percent.isControl first || encodedInPath first) = false)
        (by decide) (Text.isPlain_of_mem isName among)
  have stays : Text.Percent.encode encodedInPath segment = segment := by
    refine Eq.trans ?_ (List.flatMap_singleton' segment)
    exact List.flatMap_congr fun character among => by
      rw [unencoded character among]
      rfl
  rw [addSegment_of_not_isDots (isDots_of_isPlainSegment isPlain), stays]

/-- The path that segments lead to if others follow. -/
def descend (segments : List (List Char)) : List (List Char) :=
  segments.foldl (addSegment .web · · false) []

private theorem descend_concat (segments : List (List Char)) (segment : List Char) :
    descend (segments ++ [segment]) =
      addSegment .web (descend segments) segment false :=
  List.foldl_concat _ _ _ _

/--
Segments are added one after the other, and the last ones as a path of their
own.
-/
private theorem addSegments_append
    {rest : List (List Char)}
    (nonempty : rest ≠ [])
    (path segments : List (List Char)) :
    addSegments .web path (segments ++ rest) =
      addSegments .web (segments.foldl (addSegment .web · · false) path)
        rest := by
  induction segments generalizing path with
  | nil =>
      rfl
  | cons segment segments inductionHypothesis =>
      have others : (segments ++ rest).isEmpty = false := by
        simp [nonempty]
      rw [List.cons_append, addSegments, others, inductionHypothesis]
      rfl

/--
Segments that lead nowhere else and are encoded as themselves are added as
they are.
-/
theorem addSegments_of_stays
    {segments : List (List Char)}
    (stays : ∀ segment ∈ segments, ∀ path isLast,
      addSegment .web path segment isLast = path ++ [segment])
    (path : List (List Char)) :
    addSegments .web path segments = path ++ segments := by
  induction segments generalizing path with
  | nil =>
      rw [addSegments, List.append_nil]
  | cons segment segments inductionHypothesis =>
      obtain ⟨first, others⟩ := List.forall_mem_cons.mp stays
      rw [addSegments, first, inductionHypothesis others, List.append_assoc]
      rfl

/-- Nothing, or what starts with a slash. -/
def IsRooted (text : List Char) : Prop :=
  ∀ first ∈ text.head?, isSlash .web first = true

/-- The segments behind the slashes of a text. -/
def segmentsOf (text : List Char) : List (List Char) :=
  match text with
  | [] =>
      []
  | _ :: rest =>
      splitWhere (isSlash .web) rest

/-- Segments behind one more slash are added to where the text leads. -/
theorem readPath_append
    {text : List Char}
    (isRooted : IsRooted text)
    (rest : List Char) :
    readPath .web (text ++ '/' :: rest) =
      .segments (addSegments .web (descend (segmentsOf text))
        (splitWhere (isSlash .web) rest)) := by
  obtain ⟨piece, pieces, shape⟩ :=
    Text.exists_splitWhere (isSlash .web) rest
  have nonempty : splitWhere (isSlash .web) rest ≠ [] :=
    shape ▸ List.cons_ne_nil piece pieces
  cases text with
  | nil =>
      rfl
  | cons first text =>
      have slash : isSlash .web first = true := isRooted first rfl
      rw [List.cons_append, readPath, if_pos slash, readSegments,
        Text.splitWhere_append (by rfl), addSegments_append nonempty]
      rfl

/-- Slashes at the end leave empty segments. -/
theorem exists_readPath_slashes
    {text : List Char}
    (isRooted : IsRooted text)
    (count : Nat) :
    ∃ trailing,
      readPath .web (text ++ List.replicate count '/') =
        .segments (descend (segmentsOf text) ++
          List.replicate trailing []) := by
  cases count with
  | zero =>
      rw [List.replicate_zero, List.append_nil]
      cases text with
      | nil =>
          exact ⟨1, rfl⟩
      | cons first text =>
          -- Only the last segment is read otherwise than if more followed.
          obtain ⟨before, last, shape, -⟩ :=
            Text.exists_splitWhere_append_clear (isSlash .web) text
          obtain ⟨trailing, ends⟩ :=
            exists_addSegment_last (descend before) last
          refine ⟨trailing, ?_⟩
          rw [readPath, if_pos (isRooted first rfl), readSegments, segmentsOf,
            shape, addSegments_append (List.cons_ne_nil last []),
            descend_concat, ← ends]
          rfl
  | succ count =>
      refine ⟨count + 1, ?_⟩
      have empty : ∀ segment ∈ List.replicate (count + 1) ([] : List Char),
          ∀ path isLast,
            addSegment .web path segment isLast = path ++ [segment] := by
        intro segment among path isLast
        rw [List.eq_of_mem_replicate among]
        exact addSegment_of_not_isDots rfl path isLast
      rw [List.replicate_succ, readPath_append isRooted,
        Text.splitWhere_replicate (by rfl), addSegments_of_stays empty]

/-- The text of a path is the texts of its parts, in order. -/
@[simp] theorem pathText_append (first second : List (List Char)) :
    pathText (.segments (first ++ second)) =
      pathText (.segments first) ++ pathText (.segments second) :=
  List.flatMap_append

/-- Empty segments are written as slashes. -/
private theorem pathText_replicate (count : Nat) :
    pathText (.segments (List.replicate count [])) =
      List.replicate count '/' := by
  rw [pathText, List.flatMap_replicate, List.flatten_replicate_singleton]

/-- The text of a path is its segments behind slashes. -/
theorem pathText_intercalate
    {segments : List (List Char)}
    (nonempty : segments ≠ []) :
    pathText (.segments segments) = '/' :: ['/'].intercalate segments := by
  induction segments with
  | nil =>
      contradiction
  | cons segment segments inductionHypothesis =>
      cases segments with
      | nil =>
          rw [List.intercalate_singleton, pathText, List.flatMap_singleton]
      | cons second segments =>
          have others := inductionHypothesis (List.cons_ne_nil second segments)
          rw [pathText] at others ⊢
          rw [List.flatMap_cons, others, List.intercalate_cons_cons,
            List.append_assoc]
          rfl

/-- The text of where the segments of a text lead. -/
def stemText (text : List Char) : List Char :=
  pathText (.segments (descend (segmentsOf text)))

/-- Slashes at the end do not count if all are trimmed. -/
theorem trimEndWhere_pathText_slashes
    {text : List Char}
    (isRooted : IsRooted text)
    (count : Nat) :
    trimEndWhere (· == '/')
        (pathText (readPath .web (text ++ List.replicate count '/'))) =
      trimEndWhere (· == '/') (stemText text) := by
  obtain ⟨trailing, reads⟩ := exists_readPath_slashes isRooted count
  rw [reads, pathText_append, pathText_replicate]
  exact Text.rdropWhile_append
    (fun slash among => beq_iff_eq.mpr (List.eq_of_mem_replicate among))
    (stemText text)

/-- Plain segments behind a slash are read as they are written. -/
theorem readPath_segments
    {text : List Char}
    (isRooted : IsRooted text)
    {segments : List (List Char)}
    (nonempty : segments ≠ [])
    (arePlain : ∀ segment ∈ segments, Text.isPlainSegment segment = true) :
    readPath .web (text ++ '/' :: ['/'].intercalate segments) =
      .segments (descend (segmentsOf text) ++ segments) := by
  have clear : ∀ segment ∈ segments, ∀ character ∈ segment,
      isSlash .web character = false :=
    fun segment isSegment character among =>
      Text.forall_isPlain (fun first => isSlash .web first = false)
        (by decide)
        (Text.isPlain_of_mem
          (Text.isPlainSegment_iff.mp (arePlain segment isSegment)).1 among)
  have stays : ∀ segment ∈ segments, ∀ path isLast,
      addSegment .web path segment isLast = path ++ [segment] :=
    fun segment isSegment =>
      addSegment_of_isPlainSegment (arePlain segment isSegment)
  rw [readPath_append isRooted,
    Text.splitWhere_intercalate (by rfl) nonempty clear,
    addSegments_of_stays stays]

/-- Plain segments behind a slash are appended as they are written. -/
theorem pathText_segments
    {text : List Char}
    (isRooted : IsRooted text)
    {segments : List (List Char)}
    (nonempty : segments ≠ [])
    (arePlain : ∀ segment ∈ segments, Text.isPlainSegment segment = true) :
    pathText (readPath .web (text ++ '/' :: ['/'].intercalate segments)) =
      stemText text ++ '/' :: ['/'].intercalate segments := by
  rw [readPath_segments isRooted nonempty arePlain, pathText_append,
    pathText_intercalate nonempty]
  rfl

/-- One slash more leaves one empty segment. -/
theorem pathText_slash {text : List Char} (isRooted : IsRooted text) :
    pathText (readPath .web (text ++ ['/'])) = stemText text ++ ['/'] := by
  have reads := readPath_append isRooted []
  rw [Text.splitWhere_nil, addSegments_of_stays] at reads
  · rw [reads, pathText_append]
    rfl
  · intro segment among path isLast
    rw [List.mem_singleton.mp among]
    exact addSegment_of_not_isDots rfl path isLast

/-- Under a web scheme, going up always drops the last segment. -/
private theorem shorten_web (path : List (List Char)) :
    shorten .web path = path.dropLast := by
  unfold shorten
  split
  · simp
  · rfl

/-- No segment makes a path longer than by itself and a slash. -/
theorem length_addSegment_le
    (path : List (List Char))
    (segment : List Char) :
    (pathText (.segments (addSegment .web path segment false))).length ≤
      (pathText (.segments path)).length +
        (1 + (Text.Percent.encode encodedInPath segment).length) := by
  by_cases isUp : isDoubleDot segment = true
  · obtain ⟨rest, whole⟩ := List.dropLast_prefix path
    have parts := congrArg (fun path => (pathText (.segments path)).length)
      whole
    simp only [pathText_append, List.length_append] at parts
    simp only [addSegment, if_pos isUp, shorten_web, if_neg Bool.false_ne_true,
      List.append_nil]
    omega
  by_cases isSame : isSingleDot segment = true
  · simp only [addSegment, if_neg isUp, if_pos isSame,
      if_neg Bool.false_ne_true, List.append_nil]
    omega
  · have notDots : isDots segment = false := by
      simp [isDots, isUp, isSame]
    rw [addSegment_of_not_isDots notDots, pathText_append, List.length_append]
    simp only [pathText, List.flatMap_singleton, List.length_cons]
    omega

/-- Blanks that are not trimmed away are written as something. -/
private theorem length_encode_pos
    {blanks : List Char}
    (nonempty : blanks ≠ [])
    (areTrimmed : ∀ blank ∈ blanks, isTrimmed blank = true) :
    0 < (Text.Percent.encode encodedInPath blanks).length := by
  obtain ⟨first, rest, rfl⟩ := List.exists_cons_of_ne_nil nonempty
  have encoded : Text.Percent.encode encodedInPath [first] ≠ [] :=
    forall_isTrimmed
      (fun first => Text.Percent.encode encodedInPath [first] ≠ [])
      (by decide) (areTrimmed first List.mem_cons_self)
  rw [← List.singleton_append, Text.Percent.encode, List.flatMap_append,
    List.length_append]
  exact Nat.add_pos_left (List.length_pos_of_ne_nil encoded) _

/-- A segment that ends in blanks does not stand for dots. -/
private theorem isDots_append
    (segment : List Char)
    {blanks : List Char}
    (nonempty : blanks ≠ [])
    (areTrimmed : ∀ blank ∈ blanks, isTrimmed blank = true) :
    isDots (segment ++ blanks) = false := by
  obtain ⟨others, last, rfl⟩ :=
    (List.eq_nil_or_concat blanks).resolve_left nonempty
  rw [List.concat_eq_append] at areTrimmed ⊢
  rw [← List.append_assoc]
  exact isDots_concat _ (areTrimmed last List.mem_concat_self)

/--
Blanks at the end of the last segment stay in the path, whatever they stand
behind.
-/
theorem length_stemText_lt
    {text blanks : List Char}
    (hasSlash : text ≠ [])
    (nonempty : blanks ≠ [])
    (areTrimmed : ∀ blank ∈ blanks, isTrimmed blank = true) :
    (stemText text).length < (stemText (text ++ blanks)).length := by
  obtain ⟨first, rest, rfl⟩ := List.exists_cons_of_ne_nil hasSlash
  have clear : ∀ blank ∈ blanks, isSlash .web blank = false :=
    fun blank among =>
      forall_isTrimmed (fun first => isSlash .web first = false)
        (by decide) (areTrimmed blank among)
  obtain ⟨before, last, shape, grows⟩ :=
    Text.exists_splitWhere_append_clear (isSlash .web) rest
  have short := length_addSegment_le (descend before) last
  have long := length_encode_pos nonempty areTrimmed
  have encodes : Text.Percent.encode encodedInPath (last ++ blanks) =
      Text.Percent.encode encodedInPath last ++
        Text.Percent.encode encodedInPath blanks :=
    List.flatMap_append
  have shorter : stemText (first :: rest) =
      pathText (.segments (addSegment .web (descend before) last false)) := by
    rw [stemText, segmentsOf, shape, descend_concat]
  have longer : stemText (first :: rest ++ blanks) =
      pathText (.segments (descend before)) ++
        '/' :: Text.Percent.encode encodedInPath (last ++ blanks) := by
    rw [stemText, List.cons_append, segmentsOf, grows blanks clear,
      descend_concat,
      addSegment_of_not_isDots (isDots_append last nonempty areTrimmed),
      pathText_append]
    simp [pathText]
  rw [shorter, longer, encodes]
  simp only [List.length_append, List.length_cons]
  omega

end EventRelay.Url
