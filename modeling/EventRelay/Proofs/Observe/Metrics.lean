import EventRelay.Observe.Metrics

namespace EventRelay.Observe.Metrics

/-!
# Adding to metrics

An amount goes to its own series and to the total of its quantity, and to no
other.
-/

/-- The values of all series of a quantity together. -/
def totalOf (name : String) : List (Series × Int) → Int
  | [] =>
      0
  | (series, value) :: rest =>
      (if series.name = name then value else 0) + totalOf name rest

/-- What was measured of a quantity, whatever the labels. -/
def total (metrics : Metrics) (name : String) : Int :=
  totalOf name metrics.values

private theorem lookup_addTo
    (series other : Series)
    (amount : Int)
    (values : List (Series × Int)) :
    ((addTo series amount values).lookup other).getD 0 =
      (values.lookup other).getD 0 +
        (if series = other then amount else 0) := by
  induction values with
  | nil =>
      by_cases same : other = series
      · simp [addTo, same]
      · simp [addTo, List.lookup_cons, beq_false_of_ne same, Ne.symm same]
  | cons entry rest inductionHypothesis =>
      obtain ⟨first, value⟩ := entry
      rw [addTo]
      split
      · next same =>
          subst same
          by_cases asked : other = first
          · simp [asked]
          · simp [List.lookup_cons, beq_false_of_ne asked, Ne.symm asked]
      · next differs =>
          by_cases asked : other = first
          · subst asked
            simp [Ne.symm differs]
          · simpa [List.lookup_cons, beq_false_of_ne asked] using
              inductionHypothesis

/-- Adding to a series changes that series only. -/
@[simp] theorem value_add
    (metrics : Metrics)
    (series other : Series)
    (amount : Int) :
    (metrics.add series amount).value other =
      metrics.value other + (if series = other then amount else 0) :=
  lookup_addTo series other amount metrics.values

private theorem totalOf_addTo
    (series : Series)
    (name : String)
    (amount : Int)
    (values : List (Series × Int)) :
    totalOf name (addTo series amount values) =
      totalOf name values + (if series.name = name then amount else 0) := by
  induction values with
  | nil =>
      simp [addTo, totalOf]
  | cons entry rest inductionHypothesis =>
      obtain ⟨first, value⟩ := entry
      rw [addTo]
      split
      · next same =>
          subst same
          by_cases named : first.name = name
          · simp [totalOf, named, Int.add_right_comm]
          · simp [totalOf, named]
      · rw [totalOf, totalOf, inductionHypothesis, Int.add_assoc]

/-- Adding to a series adds to the total under its name only. -/
@[simp] theorem total_add
    (metrics : Metrics)
    (series : Series)
    (name : String)
    (amount : Int) :
    (metrics.add series amount).total name =
      metrics.total name + (if series.name = name then amount else 0) :=
  totalOf_addTo series name amount metrics.values

end EventRelay.Observe.Metrics
