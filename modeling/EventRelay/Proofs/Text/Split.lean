import EventRelay.Text.Split

namespace EventRelay.Text

/-!
# Pieces between separators

No piece holds a separator, and splitting is undone by looking for the first
separator again and again.
-/

variable {separates : α → Bool}

@[simp] theorem splitWhere_nil : splitWhere separates [] = [[]] :=
  rfl

theorem splitWhere_cons (item : α) (items : List α) :
    splitWhere separates (item :: items) =
      if separates item then
        [] :: splitWhere separates items
      else
        consFirst item (splitWhere separates items) :=
  rfl

/-- There is always a first piece. -/
theorem exists_splitWhere (separates : α → Bool) (items : List α) :
    ∃ piece pieces, splitWhere separates items = piece :: pieces := by
  cases items with
  | nil =>
      exact ⟨[], [], rfl⟩
  | cons item items =>
      rw [splitWhere_cons]
      split
      · exact ⟨[], _, rfl⟩
      · cases splitWhere separates items with
        | nil =>
            exact ⟨[item], [], rfl⟩
        | cons piece pieces =>
            exact ⟨item :: piece, pieces, rfl⟩

/-- Items before a separator go to the first piece. -/
theorem splitWhere_append_cons
    {first : List α}
    (clear : ∀ item ∈ first, separates item = false)
    {separator : α}
    (separating : separates separator = true)
    (rest : List α) :
    splitWhere separates (first ++ separator :: rest) =
      first :: splitWhere separates rest := by
  induction first with
  | nil =>
      rw [List.nil_append, splitWhere_cons, if_pos separating]
  | cons item first inductionHypothesis =>
      obtain ⟨clearItem, clearFirst⟩ := List.forall_mem_cons.mp clear
      rw [List.cons_append, splitWhere_cons, clearItem,
        inductionHypothesis clearFirst]
      rfl

/-- Without a separator there is one piece. -/
theorem splitWhere_of_clear
    {items : List α}
    (clear : ∀ item ∈ items, separates item = false) :
    splitWhere separates items = [items] := by
  induction items with
  | nil =>
      rfl
  | cons item items inductionHypothesis =>
      obtain ⟨clearItem, clearItems⟩ := List.forall_mem_cons.mp clear
      rw [splitWhere_cons, clearItem, inductionHypothesis clearItems]
      rfl

/-- No piece holds a separator. -/
theorem clear_of_mem_splitWhere
    {items piece : List α}
    (member : piece ∈ splitWhere separates items) :
    ∀ item ∈ piece, separates item = false := by
  induction items generalizing piece with
  | nil =>
      rw [splitWhere_nil, List.mem_singleton] at member
      simp [member]
  | cons first items inductionHypothesis =>
      obtain ⟨head, pieces, shape⟩ := exists_splitWhere separates items
      rw [splitWhere_cons, shape] at member
      split at member
      · rcases List.mem_cons.mp member with rfl | among
        · simp
        · exact inductionHypothesis (shape ▸ among)
      · next keeps =>
          rcases List.mem_cons.mp member with rfl | among
          · exact List.forall_mem_cons.mpr ⟨eq_false_of_ne_true keeps,
              inductionHypothesis (shape ▸ List.mem_cons_self)⟩
          · exact inductionHypothesis
              (shape ▸ List.mem_cons_of_mem head among)

/-- The pieces hold nothing new. -/
theorem mem_of_mem_splitWhere
    {items piece : List α}
    (member : piece ∈ splitWhere separates items) :
    ∀ item ∈ piece, item ∈ items := by
  induction items generalizing piece with
  | nil =>
      rw [splitWhere_nil, List.mem_singleton] at member
      simp [member]
  | cons first items inductionHypothesis =>
      obtain ⟨head, pieces, shape⟩ := exists_splitWhere separates items
      have among : ∀ other ∈ head :: pieces, ∀ item ∈ other, item ∈ items :=
        fun other isOther => inductionHypothesis (shape ▸ isOther)
      rw [splitWhere_cons, shape] at member
      intro item isItem
      split at member
      · rcases List.mem_cons.mp member with rfl | later
        · cases isItem
        · exact List.mem_cons_of_mem first (among piece later item isItem)
      · rcases List.mem_cons.mp member with rfl | later
        · rcases List.mem_cons.mp isItem with rfl | inHead
          · exact List.mem_cons_self
          · exact List.mem_cons_of_mem first
              (among head List.mem_cons_self item inHead)
        · exact List.mem_cons_of_mem first
            (among piece (List.mem_cons_of_mem head later) item isItem)

/-- The pieces on both sides of a separator are cut on their own. -/
theorem splitWhere_append
    {separator : α}
    (separating : separates separator = true)
    (items rest : List α) :
    splitWhere separates (items ++ separator :: rest) =
      splitWhere separates items ++ splitWhere separates rest := by
  induction items with
  | nil =>
      rw [List.nil_append, splitWhere_cons, if_pos separating]
      rfl
  | cons item items inductionHypothesis =>
      obtain ⟨piece, pieces, shape⟩ := exists_splitWhere separates items
      rw [List.cons_append, splitWhere_cons, splitWhere_cons,
        inductionHypothesis, shape]
      split <;> rfl

/-- What stands between separators is cut on its own. -/
theorem splitWhere_intercalate_eq
    {separator : α}
    (separating : separates separator = true)
    {pieces : List (List α)}
    (nonempty : pieces ≠ []) :
    splitWhere separates ([separator].intercalate pieces) =
      pieces.flatMap (splitWhere separates) := by
  induction pieces with
  | nil =>
      contradiction
  | cons piece pieces inductionHypothesis =>
      cases pieces with
      | nil =>
          rw [List.intercalate_singleton, List.flatMap_singleton]
      | cons second pieces =>
          rw [List.intercalate_cons_cons, List.append_assoc,
            List.singleton_append, splitWhere_append separating,
            inductionHypothesis (List.cons_ne_nil _ _)]
          rfl

/-- Pieces without separators are found again between them. -/
theorem splitWhere_intercalate
    {separator : α}
    (separating : separates separator = true)
    {pieces : List (List α)}
    (nonempty : pieces ≠ [])
    (clear : ∀ piece ∈ pieces, ∀ item ∈ piece, separates item = false) :
    splitWhere separates ([separator].intercalate pieces) = pieces := by
  rw [splitWhere_intercalate_eq separating nonempty]
  clear nonempty
  induction pieces with
  | nil =>
      rfl
  | cons piece pieces inductionHypothesis =>
      obtain ⟨clearPiece, clearPieces⟩ := List.forall_mem_cons.mp clear
      rw [List.flatMap_cons, splitWhere_of_clear clearPiece,
        inductionHypothesis clearPieces]
      rfl

/-- Items in front that are no separators belong to the first piece. -/
theorem splitWhere_append_left
    {first items piece : List α}
    {pieces : List (List α)}
    (clear : ∀ item ∈ first, separates item = false)
    (shape : splitWhere separates items = piece :: pieces) :
    splitWhere separates (first ++ items) = (first ++ piece) :: pieces := by
  induction first with
  | nil =>
      exact shape
  | cons item first inductionHypothesis =>
      obtain ⟨clearItem, clearFirst⟩ := List.forall_mem_cons.mp clear
      rw [List.cons_append, splitWhere_cons, clearItem,
        inductionHypothesis clearFirst]
      rfl

/-- Only what the separators are among the items matters. -/
theorem splitWhere_congr
    {other : α → Bool}
    {items : List α}
    (same : ∀ item ∈ items, separates item = other item) :
    splitWhere separates items = splitWhere other items := by
  induction items with
  | nil =>
      rfl
  | cons item items inductionHypothesis =>
      obtain ⟨sameItem, sameItems⟩ := List.forall_mem_cons.mp same
      rw [splitWhere_cons, splitWhere_cons, sameItem,
        inductionHypothesis sameItems]

/-- Pieces can be cut further. -/
theorem flatMap_splitWhere
    {fewer : α → Bool}
    (separating : ∀ item, fewer item = true → separates item = true)
    (items : List α) :
    (splitWhere fewer items).flatMap (splitWhere separates) =
      splitWhere separates items := by
  induction items with
  | nil =>
      rfl
  | cons item items inductionHypothesis =>
      obtain ⟨piece, pieces, shape⟩ := exists_splitWhere fewer items
      rw [shape, List.flatMap_cons] at inductionHypothesis
      rw [splitWhere_cons, splitWhere_cons, ← inductionHypothesis, shape]
      by_cases isFewer : fewer item = true
      · rw [if_pos isFewer, if_pos (separating item isFewer)]
        rfl
      · rw [if_neg isFewer]
        change splitWhere separates (item :: piece) ++ _ = _
        obtain ⟨first, others, cut⟩ := exists_splitWhere separates piece
        rw [splitWhere_cons, cut]
        split <;> rfl

/-- Separators only have nothing between them. -/
theorem splitWhere_replicate
    {separator : α}
    (separating : separates separator = true)
    (count : Nat) :
    splitWhere separates (List.replicate count separator) =
      List.replicate (count + 1) [] := by
  induction count with
  | zero =>
      rfl
  | succ count inductionHypothesis =>
      rw [List.replicate_succ, splitWhere_cons, if_pos separating,
        inductionHypothesis]
      rfl

/-- What follows without a separator belongs to the last piece. -/
theorem exists_splitWhere_append_clear
    (separates : α → Bool)
    (items : List α) :
    ∃ before last,
      splitWhere separates items = before ++ [last] ∧
        ∀ after : List α, (∀ item ∈ after, separates item = false) →
          splitWhere separates (items ++ after) =
            before ++ [last ++ after] := by
  induction items with
  | nil =>
      exact ⟨[], [], rfl, fun after clear => splitWhere_of_clear clear⟩
  | cons item items inductionHypothesis =>
      obtain ⟨before, last, shape, grows⟩ := inductionHypothesis
      by_cases separating : separates item = true
      · refine ⟨[] :: before, last, ?_, fun after clear => ?_⟩
        · rw [splitWhere_cons, if_pos separating, shape]
          rfl
        · rw [List.cons_append, splitWhere_cons, if_pos separating,
            grows after clear]
          rfl
      · cases before with
        | nil =>
            refine ⟨[], item :: last, ?_, fun after clear => ?_⟩
            · rw [splitWhere_cons, if_neg separating, shape]
              rfl
            · rw [List.cons_append, splitWhere_cons, if_neg separating,
                grows after clear]
              rfl
        | cons piece before =>
            refine ⟨(item :: piece) :: before, last, ?_,
              fun after clear => ?_⟩
            · rw [splitWhere_cons, if_neg separating, shape]
              rfl
            · rw [List.cons_append, splitWhere_cons, if_neg separating,
                grows after clear]
              rfl

end EventRelay.Text
