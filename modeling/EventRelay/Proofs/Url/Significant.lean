import EventRelay.Proofs.Url.Paths

namespace EventRelay.Url

/-!
# What is read of a text

Blanks and control characters at both ends of a text are not read, nor are tabs
and line ends anywhere.  All other characters are.
-/

private theorem isTrimmed_of_isDropped
    {character : Char}
    (isDropped : isDropped character = true) :
    isTrimmed character = true := by
  simp only [Url.isDropped, Bool.or_eq_true, beq_iff_eq] at isDropped
  rcases isDropped with (rfl | rfl) | rfl <;> rfl

theorem filter_of_untrimmed
    {text : List Char}
    (untrimmed : ∀ character ∈ text, isTrimmed character = false) :
    text.filter (!isDropped ·) = text := by
  refine List.filter_eq_self.mpr fun character among => ?_
  cases dropped : isDropped character with
  | false =>
      rfl
  | true =>
      have trimmed := isTrimmed_of_isDropped dropped
      rw [untrimmed character among] at trimmed
      cases trimmed

/-- Blanks are kept where something follows. -/
theorem significant_append
    (front : List Char)
    {back : List Char}
    (nonempty : back ≠ [])
    (untrimmed : ∀ character ∈ back, isTrimmed character = false) :
    significant (front ++ back) =
      (front.dropWhile isTrimmed).filter (!isDropped ·) ++ back := by
  have trims : Text.trimWhere isTrimmed (front ++ back) =
      front.dropWhile isTrimmed ++ back := by
    refine Text.trimWhere_eq_iff.mpr
      ⟨⟨fun first isFirst => ?_, fun last isLast => ?_⟩,
        front.takeWhile isTrimmed, [],
        fun blank among => List.mem_takeWhile_imp among, nofun, ?_⟩
    · have found := List.head?_dropWhile_not isTrimmed front
      cases shape : front.dropWhile isTrimmed with
      | nil =>
          rw [shape, List.nil_append] at isFirst
          exact untrimmed first (List.mem_of_mem_head? isFirst)
      | cons character rest =>
          rw [shape, List.cons_append, List.head?_cons] at isFirst
          rw [shape, List.head?_cons] at found
          cases isFirst
          simpa using found
    · rw [List.getLast?_append_of_ne_nil _ nonempty] at isLast
      exact untrimmed last (List.mem_of_getLast? isLast)
    · rw [List.append_nil, ← List.append_assoc,
        List.takeWhile_append_dropWhile]
  rw [significant, trims, List.filter_append, filter_of_untrimmed untrimmed]

/-- Only blanks and control characters are lost. -/
private theorem mem_significant
    {character : Char}
    (untrimmed : isTrimmed character = false)
    {text : List Char} :
    character ∈ significant text ↔ character ∈ text := by
  obtain ⟨-, before, after, blanksBefore, blanksAfter, whole⟩ :=
    Text.trimmed_trimWhere isTrimmed text
  have elsewhere {blanks : List Char}
      (areTrimmed : ∀ blank ∈ blanks, isTrimmed blank = true) :
      character ∉ blanks := fun among =>
    ne_of_isTrimmed (areTrimmed character among) untrimmed rfl
  have kept : isDropped character = false :=
    eq_false_of_ne_true fun dropped =>
      ne_of_isTrimmed (isTrimmed_of_isDropped dropped) untrimmed rfl
  rw [significant, List.mem_filter, kept]
  conv_rhs => rw [whole]
  simp [elsewhere blanksBefore, elsewhere blanksAfter]

theorem isUnmarked_significant {text : List Char} :
    IsUnmarked (significant text) ↔ IsUnmarked text :=
  and_congr (mem_significant rfl).not (mem_significant rfl).not

/-- What is read ends in no blank. -/
theorem last_significant
    {text : List Char} :
    ∀ last ∈ (significant text).getLast?, isTrimmed last = false := by
  have isBare := (Text.trimmed_trimWhere isTrimmed text).isBare
  rw [significant]
  rcases List.eq_nil_or_concat (Text.trimWhere isTrimmed text) with
    isEmpty | ⟨others, last, shape⟩
  · rw [isEmpty]
    exact nofun
  · have untrimmed : isTrimmed last = false :=
      isBare.last last (by rw [shape, List.concat_eq_append]; simp)
    rw [shape, List.concat_eq_append, List.filter_append,
      filter_of_untrimmed (List.forall_mem_singleton.mpr untrimmed),
      List.getLast?_concat]
    rintro _ ⟨⟩
    exact untrimmed

end EventRelay.Url
