import EventRelay.Frame.Reference

namespace EventRelay.Reference

/-!
# Cutting a body that grows

A blank line that has been found stays the first one when more bytes arrive.
Hence the segments of a longer body are those of the shorter one, followed by
the segments of its tail with the new bytes.
-/

/-- A cut removes one segment and one blank line, and nothing else. -/
theorem eq_of_cut?
    {body segment after : List UInt8}
    (cuts : cut? body = some (segment, after)) :
    body = segment ++ blankLine ++ after := by
  induction body using cut?.induct generalizing segment after with
  | case1 rest =>
      simp only [cut?, Option.some.injEq, Prod.mk.injEq] at cuts
      obtain ⟨rfl, rfl⟩ := cuts
      rfl
  | case2 =>
      simp [cut?] at cuts
  | case3 byte rest notBlank inductionHypothesis =>
      rw [cut?] at cuts
      · simp only [Option.map_eq_some_iff, Prod.mk.injEq, Prod.exists] at cuts
        obtain ⟨inner, outer, restCuts, rfl, rfl⟩ := cuts
        rw [inductionHypothesis restCuts]
        rfl
      · exact notBlank

/-- A cut stays where it is when bytes are appended. -/
theorem cut?_append
    {body segment after : List UInt8}
    (cuts : cut? body = some (segment, after))
    (more : List UInt8) :
    cut? (body ++ more) = some (segment, after ++ more) := by
  induction body using cut?.induct generalizing segment after with
  | case1 rest =>
      simp only [cut?, Option.some.injEq, Prod.mk.injEq] at cuts
      obtain ⟨rfl, rfl⟩ := cuts
      rfl
  | case2 =>
      simp [cut?] at cuts
  | case3 byte rest notBlank inductionHypothesis =>
      rw [cut?] at cuts
      · simp only [Option.map_eq_some_iff, Prod.mk.injEq, Prod.exists] at cuts
        obtain ⟨inner, outer, restCuts, rfl, rfl⟩ := cuts
        rw [List.cons_append, cut?, inductionHypothesis restCuts]
        · rfl
        · -- Only an empty rest could make a blank line with the new bytes.
          rintro later rfl restShape
          cases rest with
          | nil =>
              simp [cut?] at restCuts
          | cons second rest =>
              simp only [List.cons_append, List.cons.injEq] at restShape
              exact notBlank rest rfl (by rw [restShape.1])
      · exact notBlank

/-- Bytes before the first blank line go to the first segment. -/
theorem cut?_cons
    {byte : UInt8}
    {rest : List UInt8}
    (notBlank : ¬blankLine <+: byte :: rest) :
    cut? (byte :: rest) =
      (cut? rest).map fun (segment, after) => (byte :: segment, after) := by
  rw [cut?]
  rintro later rfl rfl
  exact notBlank ⟨later, rfl⟩

/-- A body is cut unless it has no blank line. -/
theorem cut?_eq_none_iff
    {body : List UInt8} :
    cut? body = none ↔ ¬blankLine <:+: body := by
  induction body with
  | nil =>
      simp [cut?, blankLine]
  | cons byte rest inductionHypothesis =>
      rw [List.infix_cons_iff]
      by_cases startsBlank : blankLine <+: byte :: rest
      · obtain ⟨later, shape⟩ := startsBlank
        rw [← shape]
        simp [cut?, blankLine]
      · rw [cut?_cons startsBlank]
        simp [startsBlank, inductionHypothesis]

/-- Bytes in which no blank line starts can be set aside before a cut. -/
theorem cut?_of_clear
    {offset : Nat}
    {body : List UInt8}
    (inside : offset ≤ body.length)
    (clear : ∀ index < offset, ¬blankLine <+: body.drop index) :
    cut? body =
      (cut? (body.drop offset)).map fun (segment, after) =>
        (body.take offset ++ segment, after) := by
  induction offset generalizing body with
  | zero =>
      simp
  | succ offset inductionHypothesis =>
      cases body with
      | nil =>
          simp at inside
      | cons byte rest =>
          have notBlank : ¬blankLine <+: byte :: rest :=
            clear 0 (Nat.succ_pos offset)
          have restClear :
              ∀ index < offset, ¬blankLine <+: rest.drop index := by
            intro index below
            exact clear (index + 1) (Nat.succ_lt_succ below)
          have restInside : offset ≤ rest.length := by
            simpa using inside
          rw [cut?_cons notBlank,
            inductionHypothesis restInside restClear]
          simp [Function.comp_def]

theorem segments_of_uncut
    {body : List UInt8}
    (uncut : cut? body = none) :
    segments body = [] := by
  rw [segments]
  split
  · rfl
  · next cuts =>
      simp [uncut] at cuts

theorem segments_of_cut
    {body segment after : List UInt8}
    (cuts : cut? body = some (segment, after)) :
    segments body = segment :: segments after := by
  rw [segments]
  split
  · next uncut =>
      simp [cuts] at uncut
  · next same =>
      rw [cuts] at same
      cases same
      rfl

theorem tail_of_uncut
    {body : List UInt8}
    (uncut : cut? body = none) :
    tail body = body := by
  rw [tail]
  split
  · rfl
  · next cuts =>
      simp [uncut] at cuts

theorem tail_of_cut
    {body segment after : List UInt8}
    (cuts : cut? body = some (segment, after)) :
    tail body = tail after := by
  rw [tail]
  split
  · next uncut =>
      simp [cuts] at uncut
  · next same =>
      rw [cuts] at same
      cases same
      rfl

/-- The segments with their blank lines, and then the tail, are the body. -/
theorem flatMap_segments_append_tail (body : List UInt8) :
    (segments body).flatMap (· ++ blankLine) ++ tail body = body := by
  induction body using segments.induct with
  | case1 body uncut =>
      rw [segments_of_uncut uncut, tail_of_uncut uncut]
      rfl
  | case2 body segment after cuts inductionHypothesis =>
      rw [segments_of_cut cuts, tail_of_cut cuts, List.flatMap_cons,
        List.append_assoc, inductionHypothesis, eq_of_cut? cuts]

/-- New bytes continue the tail and leave the earlier segments alone. -/
theorem segments_append (body more : List UInt8) :
    segments (body ++ more) = segments body ++ segments (tail body ++ more) := by
  induction body using segments.induct with
  | case1 body uncut =>
      rw [segments_of_uncut uncut, tail_of_uncut uncut]
      rfl
  | case2 body segment after cuts inductionHypothesis =>
      rw [segments_of_cut cuts, tail_of_cut cuts,
        segments_of_cut (cut?_append cuts more), inductionHypothesis]
      rfl

/-- Only the tail matters for what becomes of new bytes. -/
theorem tail_append (body more : List UInt8) :
    tail (body ++ more) = tail (tail body ++ more) := by
  induction body using tail.induct with
  | case1 body uncut =>
      rw [tail_of_uncut uncut]
  | case2 body segment after cuts inductionHypothesis =>
      rw [tail_of_cut cuts, tail_of_cut (cut?_append cuts more),
        inductionHypothesis]

end EventRelay.Reference
