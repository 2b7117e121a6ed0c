import EventRelay.Text.Split
import Mathlib.Data.List.DropRight

namespace EventRelay.Text

/-!
# Trimmed lists

Trimming leaves what stands between the items that are dropped from both ends,
and cutting once leaves what stands on both sides of the first separator.  Both
are said here without a word on how the parts are found.
-/

variable {drops separates : α → Bool}

/-- Neither the first nor the last item is one to be dropped. -/
structure IsBare (drops : α → Bool) (items : List α) : Prop where
  first : ∀ item ∈ items.head?, drops item = false
  last : ∀ item ∈ items.getLast?, drops item = false

/-- What is left of a list without the dropped items at both ends. -/
structure Trimmed (drops : α → Bool) (items core : List α) : Prop where
  isBare : IsBare drops core
  around : ∃ before after : List α,
    (∀ item ∈ before, drops item = true) ∧
      (∀ item ∈ after, drops item = true) ∧
        items = before ++ (core ++ after)

theorem dropWhile_of_first
    {items : List α}
    (first : ∀ item ∈ items.head?, drops item = false) :
    items.dropWhile drops = items := by
  cases items with
  | nil =>
      rfl
  | cons item rest =>
      exact List.dropWhile_cons_of_neg (by simp [first item rfl])

theorem rdropWhile_of_last
    {items : List α}
    (last : ∀ item ∈ items.getLast?, drops item = false) :
    items.rdropWhile drops = items := by
  rw [List.rdropWhile, dropWhile_of_first (List.head?_reverse ▸ last),
    List.reverse_reverse]

theorem rdropWhile_append
    {after : List α}
    (dropped : ∀ item ∈ after, drops item = true)
    (items : List α) :
    (items ++ after).rdropWhile drops = items.rdropWhile drops := by
  rw [List.rdropWhile, List.reverse_append,
    List.dropWhile_append_of_pos
      (fun item member => dropped item (List.mem_reverse.mp member))]
  rfl

theorem last_rdropWhile
    {items : List α}
    {item : α}
    (isLast : item ∈ (items.rdropWhile drops).getLast?) :
    drops item = false := by
  obtain ⟨nonempty, isItem⟩ := List.mem_getLast?_eq_getLast isLast
  rw [isItem]
  exact eq_false_of_ne_true (List.rdropWhile_last_not drops _ nonempty)

private theorem head?_eq_of_rdropWhile_cons
    {items rest : List α}
    {item : α}
    (shape : items.rdropWhile drops = item :: rest) :
    items.head? = some item := by
  have parts : items.rdropWhile drops ++ items.rtakeWhile drops = items :=
    List.rdropWhile_append_rtakeWhile
  rw [← parts, shape]
  rfl

theorem trimmed_trimWhere (drops : α → Bool) (items : List α) :
    Trimmed drops items (trimWhere drops items) := by
  change Trimmed drops items ((items.dropWhile drops).rdropWhile drops)
  refine ⟨⟨?_, fun _ => last_rdropWhile⟩, items.takeWhile drops,
    (items.dropWhile drops).rtakeWhile drops, ?_, ?_, ?_⟩
  · intro item isFirst
    obtain ⟨rest, shape⟩ := List.head?_eq_some_iff.mp isFirst
    have found := List.head?_dropWhile_not drops items
    rwa [head?_eq_of_rdropWhile_cons shape] at found
  · exact fun item member => List.mem_takeWhile_imp member
  · exact fun item member => List.mem_rtakeWhile_imp member
  · rw [List.rdropWhile_append_rtakeWhile, List.takeWhile_append_dropWhile]

/-- Trimming leaves the only part that can be left. -/
theorem trimWhere_eq_iff {items core : List α} :
    trimWhere drops items = core ↔ Trimmed drops items core := by
  constructor
  · rintro rfl
    exact trimmed_trimWhere drops items
  · rintro ⟨isBare, before, after, droppedBefore, droppedAfter, rfl⟩
    change ((before ++ (core ++ after)).dropWhile drops).rdropWhile drops = core
    rw [List.dropWhile_append_of_pos droppedBefore]
    cases core with
    | nil =>
        rw [List.nil_append, List.dropWhile_eq_nil_iff.mpr droppedAfter]
        rfl
    | cons item rest =>
        have untouched :
            (item :: rest ++ after).dropWhile drops = item :: rest ++ after :=
          dropWhile_of_first isBare.first
        rw [untouched, rdropWhile_append droppedAfter,
          rdropWhile_of_last isBare.last]

/-- The parts that are cut have a separator between them, and none before. -/
theorem splitOnce?_eq_some_iff {items first rest : List α} :
    splitOnce? separates items = some (first, rest) ↔
      (∀ item ∈ first, separates item = false) ∧
        ∃ separator, separates separator = true ∧
          items = first ++ separator :: rest := by
  constructor
  · intro cut
    rw [splitOnce?] at cut
    split at cut
    · contradiction
    · next separator after shape =>
        obtain ⟨rfl, rfl⟩ := Prod.mk.inj (Option.some.inj cut)
        refine ⟨fun item member => ?_, separator, ?_, ?_⟩
        · simpa using List.mem_takeWhile_imp member
        · simpa [shape] using
            List.head?_dropWhile_not (fun item => !separates item) items
        · rw [← shape, List.takeWhile_append_dropWhile]
  · rintro ⟨clear, separator, separating, rfl⟩
    have kept : ∀ item ∈ first, (!separates item) = true := by
      simpa using clear
    rw [splitOnce?, List.dropWhile_append_of_pos kept,
      List.takeWhile_append_of_pos kept]
    simp [separating]

/-- Nothing is cut without a separator. -/
theorem splitOnce?_eq_none_iff {items : List α} :
    splitOnce? separates items = none ↔
      ∀ item ∈ items, separates item = false := by
  rw [splitOnce?]
  split
  · next noSeparator =>
      simpa using List.dropWhile_eq_nil_iff.mp noSeparator
  · next separator after shape =>
      have found : separator ∈ items :=
        (List.dropWhile_sublist _).subset (shape ▸ List.mem_cons_self)
      have separating :=
        List.head?_dropWhile_not (fun item => !separates item) items
      simp only [shape, List.head?_cons] at separating
      refine iff_of_false nofun fun clear => ?_
      rw [clear separator found] at separating
      cases separating

end EventRelay.Text
