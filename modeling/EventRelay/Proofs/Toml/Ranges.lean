import EventRelay.Toml.Document

namespace EventRelay.Config

/-!
# Ranges of whole numbers

Every whole number that is read from a document has 64 bits with a sign.  The
scanners of scalars have it so, arrays and inline tables hold what was
scanned, and a table holds what was assigned in it.
-/

/-- Every whole number in a datum has 64 bits with a sign. -/
inductive Datum.InRange : Datum → Prop where
  | null : InRange .null
  | boolean (value : Bool) : InRange (.boolean value)
  | integer {value : Int} :
      -9223372036854775808 ≤ value → value < 9223372036854775808 →
        InRange (.integer value)
  | decimal : InRange .decimal
  | text (value : String) : InRange (.text value)
  | moment : InRange .moment
  | list {items : List Datum} :
      (∀ item ∈ items, InRange item) → InRange (.list items)
  | table (isInline : Bool) {fields : List (String × Datum)} :
      (∀ field ∈ fields, InRange field.2) → InRange (.table isInline fields)

end EventRelay.Config

namespace EventRelay.Toml

open Config (Datum)

/-- What a scanner of values takes is in range. -/
def ScansInRange (scanner : ValueScanner) : Prop :=
  ∀ {text : List Char} {datum : Datum} {rest : List Char},
    scanner text = some (datum, rest) → datum.InRange

/-- A whole number that is kept fits into 64 signed bits. -/
private theorem inRange_of_whole?
    {negative : Bool}
    {magnitude : Nat}
    {datum : Datum}
    (isWhole : whole? negative magnitude = some datum) :
    datum.InRange := by
  unfold whole? at isWhole
  split at isWhole
  · next bounded =>
      obtain rfl := Option.some.inj isWhole
      exact .integer (by omega) (by omega)
  · split at isWhole
    · next bounded =>
        obtain rfl := Option.some.inj isWhole
        exact .integer (by omega) (by omega)
    · contradiction

/-- Numbers with another base are in range. -/
private theorem scansInRange_takeBased? (base : Nat) :
    ScansInRange (takeBased? base) := by
  intro text datum rest takes
  simp only [takeBased?, Option.bind_eq_bind, Option.bind_eq_some_iff,
    Option.some.injEq, Prod.mk.injEq, Prod.exists] at takes
  obtain ⟨digits, after, -, datum, isWhole, rfl, -⟩ := takes
  exact inRange_of_whole? isWhole

/-- Whole numbers in any notation are in range. -/
private theorem scansInRange_takeInteger? : ScansInRange takeInteger? := by
  intro text datum rest takes
  unfold takeInteger? at takes
  split at takes
  · exact scansInRange_takeBased? 16 takes
  · exact scansInRange_takeBased? 8 takes
  · exact scansInRange_takeBased? 2 takes
  · simp only [Option.bind_eq_bind, Option.bind_eq_some_iff,
      Option.some.injEq, Prod.mk.injEq, Prod.exists] at takes
    obtain ⟨digits, after, -, datum, isWhole, rfl, -⟩ := takes
    exact inRange_of_whole? isWhole

/-- Dates and times are read as moments, which carry no number. -/
private theorem eq_moment_of_takeMoment?
    {text rest : List Char}
    {datum : Datum}
    (takes : takeMoment? text = some (datum, rest)) :
    datum = .moment := by
  unfold takeMoment? at takes
  split at takes
  · exact (Prod.mk.inj (Option.some.inj takes)).1.symm
  · obtain ⟨after, -, same⟩ := Option.map_eq_some_iff.mp takes
    exact (Prod.mk.inj same).1.symm

private theorem eq_decimal_of_takeSpecial?
    {text rest : List Char}
    {datum : Datum}
    (takes : takeSpecial? text = some (datum, rest)) :
    datum = .decimal := by
  simp only [takeSpecial?] at takes
  split at takes
  · exact (Prod.mk.inj (Option.some.inj takes)).1.symm
  · obtain ⟨after, -, same⟩ := Option.map_eq_some_iff.mp takes
    exact (Prod.mk.inj same).1.symm

/-- Numbers with a point or an exponent carry no whole number. -/
private theorem eq_decimal_of_takeFloat?
    {text rest : List Char}
    {datum : Datum}
    (takes : takeFloat? text = some (datum, rest)) :
    datum = .decimal := by
  have finish {isTooLarge : Prop} [Decidable isTooLarge] {after : List Char}
      (fits :
        (if isTooLarge then none else some (Datum.decimal, after)) =
          some (datum, rest)) :
      datum = .decimal := by
    split at fits
    · contradiction
    · exact (Prod.mk.inj (Option.some.inj fits)).1.symm
  simp only [takeFloat?, Option.bind_eq_bind, Option.bind_eq_some_iff] at takes
  obtain ⟨⟨whole, afterWhole⟩, -, takes⟩ := takes
  split at takes
  · split at takes
    · exact finish takes
    · exact finish takes
  · obtain ⟨exponent, -, fits⟩ := Option.bind_eq_some_iff.mp takes
    exact finish fits

private theorem scansInRange_takeNumeric? : ScansInRange takeNumeric? := by
  intro text datum rest takes
  simp only [takeNumeric?, Option.or_eq_some_iff] at takes
  rcases takes with moment | ⟨-, special | ⟨-, float | ⟨-, integer⟩⟩⟩
  · rw [eq_moment_of_takeMoment? moment]
    exact .moment
  · rw [eq_decimal_of_takeSpecial? special]
    exact .decimal
  · rw [eq_decimal_of_takeFloat? float]
    exact .decimal
  · exact scansInRange_takeInteger? integer

/-- Scalars are in range. -/
private theorem scansInRange_takeScalar? : ScansInRange takeScalar? := by
  intro text datum rest
  fun_cases takeScalar? text
  all_goals
    intro takes
  case case1 | case2 =>
    obtain ⟨taken, -, same⟩ := Option.map_eq_some_iff.mp takes
    rw [← (Prod.mk.inj same).1]
    exact .text taken.1
  case case3 | case4 =>
    obtain ⟨after, -, same⟩ := Option.map_eq_some_iff.mp takes
    rw [← (Prod.mk.inj same).1]
    exact .boolean _
  case case5 =>
    exact scansInRange_takeNumeric? takes

/-! ## Tables -/

/-- Every value under an item of a table is in range. -/
inductive Item.InRange : Item → Prop where
  | leaf {datum : Datum} : datum.InRange → InRange (.leaf datum)
  | table (isImplicit isDotted : Bool) {fields : Fields} :
      (∀ field ∈ fields, InRange field.2) →
        InRange (.table isImplicit isDotted fields)
  | tables {items : List Fields} :
      (∀ fields ∈ items, ∀ field ∈ fields, InRange field.2) →
        InRange (.tables items)

/-- Every assigned value is in range. -/
def AssignsInRange (assignments : List (List String × String × Datum)) :
    Prop :=
  ∀ assignment ∈ assignments, assignment.2.2.InRange

namespace Fields

/-- Every value in a table is in range. -/
def InRange (fields : Fields) : Prop :=
  ∀ field ∈ fields, field.2.InRange

variable {key : String} {item : Item} {fields changed : Fields}

private theorem InRange.nil : InRange [] :=
  nofun

private theorem InRange.concat
    (inRange : fields.InRange)
    (added : item.InRange) :
    InRange (fields ++ [(key, item)]) := by
  intro field isMember
  rcases List.mem_append.mp isMember with isOld | isNew
  · exact inRange field isOld
  · rw [List.mem_singleton.mp isNew]
    exact added

/-- What is found in fields in range is in range. -/
private theorem InRange.of_lookup
    (inRange : fields.InRange)
    (found : fields.lookup key = some item) :
    item.InRange := by
  obtain ⟨before, after, rfl, -⟩ := List.lookup_eq_some_iff.mp found
  exact inRange (key, item)
    (List.mem_append_right before List.mem_cons_self)

/-- Putting an item in range in the place of another keeps fields in range. -/
private theorem InRange.replace
    (inRange : fields.InRange)
    (put : item.InRange) :
    (fields.replace key item).InRange := by
  induction fields with
  | nil =>
      exact InRange.nil
  | cons field fields inductionHypothesis =>
      obtain ⟨first, others⟩ := List.forall_mem_cons.mp inRange
      rw [Fields.replace]
      split
      · exact List.forall_mem_cons.mpr ⟨put, others⟩
      · exact List.forall_mem_cons.mpr ⟨first, inductionHypothesis others⟩

private theorem InRange.remove (inRange : fields.InRange) :
    (fields.remove key).InRange :=
  fun field isMember => inRange field (List.mem_filter.mp isMember).1

/--
A change that keeps fields in range keeps them so at the end of any path.
-/
private theorem inRange_of_changeAt
    {byDottedKey isDotted : Bool}
    {change : Bool → Fields → Option Fields}
    {path : List String}
    (changes : ∀ {isDotted : Bool} {fields changed : Fields},
      change isDotted fields = some changed →
        fields.InRange → changed.InRange)
    (isChanged :
      changeAt byDottedKey change isDotted path fields = some changed)
    (inRange : fields.InRange) :
    changed.InRange := by
  induction path generalizing isDotted fields changed with
  | nil =>
      exact changes isChanged inRange
  | cons key path inductionHypothesis =>
      rw [changeAt.eq_2] at isChanged
      split at isChanged
      · obtain ⟨inner, isInner, rfl⟩ := Option.map_eq_some_iff.mp isChanged
        have innerInRange := inductionHypothesis isInner InRange.nil
        exact inRange.concat (.table true byDottedKey innerInRange)
      · contradiction
      · next isImplicit innerDotted table found =>
          split at isChanged
          · contradiction
          · obtain ⟨inner, isInner, rfl⟩ :=
              Option.map_eq_some_iff.mp isChanged
            cases inRange.of_lookup found with
            | table _ _ tableInRange =>
                exact inRange.replace (.table isImplicit innerDotted
                  (inductionHypothesis isInner tableInRange))
      · next items found =>
          split at isChanged
          · contradiction
          · next last isLast =>
              obtain ⟨inner, isInner, rfl⟩ :=
                Option.map_eq_some_iff.mp isChanged
              cases inRange.of_lookup found with
              | tables itemsInRange =>
                  have innerInRange := inductionHypothesis isInner
                    (itemsInRange last (List.mem_of_getLast? isLast))
                  refine inRange.replace (.tables ?_)
                  intro table isMember
                  rcases List.mem_append.mp isMember with isOld | isNew
                  · exact itemsInRange table (List.dropLast_subset _ isOld)
                  · rw [List.mem_singleton.mp isNew]
                    exact innerInRange

/-- Assigning a datum in range keeps fields in range. -/
private theorem inRange_of_assign?
    {path : List String}
    {datum : Datum}
    (isAssigned : fields.assign? path key datum = some changed)
    (assigned : datum.InRange)
    (inRange : fields.InRange) :
    changed.InRange := by
  refine inRange_of_changeAt ?_ isAssigned inRange
  intro isDotted table changed isChanged tableInRange
  split at isChanged
  · contradiction
  · obtain rfl := Option.some.inj isChanged
    exact tableInRange.concat (.leaf assigned)

private theorem inRange_of_assignAll?
    {assignments : List (List String × String × Datum)}
    (isAssigned : fields.assignAll? assignments = some changed)
    (assigned : AssignsInRange assignments)
    (inRange : fields.InRange) :
    changed.InRange := by
  induction assignments generalizing fields with
  | nil =>
      obtain rfl := Option.some.inj isAssigned
      exact inRange
  | cons assignment assignments inductionHypothesis =>
      obtain ⟨first, others⟩ := List.forall_mem_cons.mp assigned
      simp only [assignAll?, List.foldlM_cons, Option.bind_eq_bind,
        Option.bind_eq_some_iff] at isAssigned
      obtain ⟨middle, isFirst, isRest⟩ := isAssigned
      exact inductionHypothesis isRest others
        (inRange_of_assign? isFirst first inRange)

/-- Opening a table with assignments in range keeps fields in range. -/
private theorem inRange_of_define?
    {path : List String}
    {assignments : List (List String × String × Datum)}
    (isDefined : fields.define? path key assignments = some changed)
    (assigned : AssignsInRange assignments)
    (inRange : fields.InRange) :
    changed.InRange := by
  refine inRange_of_changeAt ?_ isDefined inRange
  intro isDotted parent changed isChanged parentInRange
  have finish {start : Fields} (startInRange : start.InRange)
      (isFilled :
        (start.assignAll? assignments).bind (fun table =>
          some (parent.remove key ++ [(key, .table false false table)])) =
          some changed) :
      changed.InRange := by
    obtain ⟨table, isTable, same⟩ := Option.bind_eq_some_iff.mp isFilled
    obtain rfl := Option.some.inj same
    exact parentInRange.remove.concat (.table false false
      (inRange_of_assignAll? isTable assigned startInRange))
  simp only [Option.bind_eq_bind] at isChanged
  split at isChanged
  · exact finish InRange.nil isChanged
  · next found =>
      cases parentInRange.of_lookup found with
      | table _ _ innerInRange =>
          exact finish innerInRange isChanged
  · contradiction

/-- Appending a table to an array of tables keeps fields in range. -/
private theorem inRange_of_append?
    {path : List String}
    {assignments : List (List String × String × Datum)}
    (isAppended : fields.append? path key assignments = some changed)
    (assigned : AssignsInRange assignments)
    (inRange : fields.InRange) :
    changed.InRange := by
  refine inRange_of_changeAt ?_ isAppended inRange
  intro isDotted parent changed isChanged parentInRange
  simp only [Option.bind_eq_bind, Option.bind_eq_some_iff] at isChanged
  obtain ⟨table, isTable, isPut⟩ := isChanged
  have tableInRange := inRange_of_assignAll? isTable assigned InRange.nil
  split at isPut
  · obtain rfl := Option.some.inj isPut
    exact parentInRange.concat
      (.tables (List.forall_mem_singleton.mpr tableInRange))
  · next items found =>
      obtain rfl := Option.some.inj isPut
      cases parentInRange.of_lookup found with
      | tables itemsInRange =>
          exact parentInRange.replace
            (.tables (List.forall_mem_append.mpr
              ⟨itemsInRange, List.forall_mem_singleton.mpr tableInRange⟩))
  · contradiction

end Fields

/-- The data of fields are the data of each of them. -/
private theorem fieldData_eq_map (isInline : Bool) (fields : Fields) :
    fieldData isInline fields =
      fields.map fun field => (field.1, field.2.toDatum isInline) := by
  induction fields with
  | nil =>
      rfl
  | cons field fields inductionHypothesis =>
      rw [fieldData, inductionHypothesis, List.map_cons]

/-- The data of an array of tables are the data of each table. -/
private theorem tableData_eq_map (isInline : Bool) (items : List Fields) :
    tableData isInline items =
      items.map fun fields => .table isInline (fieldData isInline fields) := by
  induction items with
  | nil =>
      rfl
  | cons fields items inductionHypothesis =>
      rw [tableData, inductionHypothesis, List.map_cons]

/-- Items in range become data in range. -/
private theorem Item.InRange.toDatum
    {item : Item}
    (inRange : item.InRange)
    (isInline : Bool) :
    (item.toDatum isInline).InRange := by
  induction inRange with
  | leaf inRange =>
      exact inRange
  | table isImplicit isDotted _ inductionHypothesis =>
      rw [Item.toDatum, fieldData_eq_map]
      exact .table isInline (List.forall_mem_map.mpr inductionHypothesis)
  | tables _ inductionHypothesis =>
      rw [Item.toDatum, tableData_eq_map]
      refine .list (List.forall_mem_map.mpr ?_)
      intro fields isMember
      rw [fieldData_eq_map]
      exact .table isInline
        (List.forall_mem_map.mpr (inductionHypothesis fields isMember))

private theorem Fields.InRange.toDatum
    {fields : Fields}
    (inRange : fields.InRange)
    (isInline : Bool) :
    (Datum.table isInline (fieldData isInline fields)).InRange := by
  rw [fieldData_eq_map]
  exact .table isInline (List.forall_mem_map.mpr fun field isMember =>
    (inRange field isMember).toDatum isInline)

section Nested

variable {value : ValueScanner} (inRange : ScansInRange value)

include inRange

/-- The items of an array are in range when the values read are. -/
private theorem inRange_of_takeItems?
    {fuel : Nat}
    {found items : List Datum}
    {text rest : List Char}
    (takes : takeItems? value fuel found text = some (items, rest))
    (foundInRange : ∀ item ∈ found, item.InRange) :
    ∀ item ∈ items, item.InRange := by
  induction fuel generalizing found text with
  | zero =>
      contradiction
  | succ fuel inductionHypothesis =>
      rw [takeItems?.eq_2] at takes
      split at takes
      · rw [← (Prod.mk.inj (Option.some.inj takes)).1]
        simpa using foundInRange
      · split at takes
        · contradiction
        · next item after takesItem =>
            have longer : ∀ other ∈ item :: found, other.InRange :=
              List.forall_mem_cons.mpr ⟨inRange takesItem, foundInRange⟩
            split at takes
            · exact inductionHypothesis takes longer
            · rw [← (Prod.mk.inj (Option.some.inj takes)).1]
              simpa only [List.mem_reverse] using longer
            · contradiction

/-- An assigned value is in range when the values read are. -/
private theorem inRange_of_takeAssignment?
    {text rest : List Char}
    {key : Key}
    {datum : Datum}
    (takes : takeAssignment? value text = some ((key, datum), rest)) :
    datum.InRange := by
  simp only [takeAssignment?, Option.bind_eq_bind, Option.bind_eq_some_iff,
    Option.some.injEq] at takes
  obtain ⟨⟨_, _⟩, -, after, -, ⟨_, _⟩, takesDatum, same⟩ := takes
  rw [← (Prod.mk.inj (Prod.mk.inj same).1).2]
  exact inRange takesDatum

/-- The fields of an inline table are in range when the values read are. -/
private theorem inRange_of_takeFields?
    {fuel : Nat}
    {found fields : List (Key × Datum)}
    {text rest : List Char}
    (takes : takeFields? value fuel found text = some (fields, rest))
    (foundInRange : ∀ field ∈ found, field.2.InRange) :
    ∀ field ∈ fields, field.2.InRange := by
  induction fuel generalizing found text with
  | zero =>
      contradiction
  | succ fuel inductionHypothesis =>
      rw [takeFields?.eq_2] at takes
      split at takes
      · contradiction
      · next field after takesField =>
          have longer : ∀ other ∈ field :: found, other.2.InRange :=
            List.forall_mem_cons.mpr
              ⟨inRange_of_takeAssignment? inRange takesField, foundInRange⟩
          split at takes
          · exact inductionHypothesis takes longer
          · rw [← (Prod.mk.inj (Option.some.inj takes)).1]
            simpa only [List.mem_reverse] using longer
          · contradiction

private theorem scansInRange_takeInline? : ScansInRange (takeInline? value) := by
  intro text datum rest takes
  unfold takeInline? at takes
  split at takes
  · rw [← (Prod.mk.inj (Option.some.inj takes)).1]
    exact .table true (List.forall_mem_nil _)
  · simp only [Option.bind_eq_bind, Option.bind_eq_some_iff,
      Option.some.injEq, Prod.mk.injEq, Prod.exists] at takes
    obtain ⟨assignments, after, takesFields, fields, isAssigned, rfl, -⟩ :=
      takes
    have assigned :=
      inRange_of_takeFields? inRange takesFields (List.forall_mem_nil _)
    exact (Fields.inRange_of_assignAll? isAssigned
      (List.forall_mem_map.mpr assigned) Fields.InRange.nil).toDatum true

end Nested

/-- Values of any depth are in range. -/
private theorem scansInRange_takeValue? (depth : Nat) :
    ScansInRange (takeValue? depth) := by
  induction depth with
  | zero =>
      exact scansInRange_takeScalar?
  | succ depth inductionHypothesis =>
      intro text datum rest takes
      unfold takeValue? at takes
      split at takes
      · obtain ⟨⟨items, after⟩, takesItems, same⟩ :=
          Option.map_eq_some_iff.mp takes
        rw [← (Prod.mk.inj same).1]
        exact .list (inRange_of_takeItems? inductionHypothesis takesItems
          (List.forall_mem_nil _))
      · exact scansInRange_takeInline? inductionHypothesis takes
      · exact scansInRange_takeScalar? takes

/-! ## Documents -/

/-- The value that a statement assigns, if it does, is in range. -/
def Statement.InRange (statement : Statement) : Prop :=
  ∀ key datum, statement = .assign key datum → datum.InRange

/-- A line assigns only what is in range. -/
private theorem inRange_of_takeStatement?
    {text rest : List Char}
    {statement : Statement}
    (takes : takeStatement? text = some (statement, rest)) :
    statement.InRange := by
  unfold takeStatement? at takes
  split at takes
  · obtain ⟨taken, -, same⟩ := Option.map_eq_some_iff.mp takes
    rw [← (Prod.mk.inj same).1]
    exact nofun
  · obtain ⟨taken, -, same⟩ := Option.map_eq_some_iff.mp takes
    rw [← (Prod.mk.inj same).1]
    exact nofun
  · obtain ⟨⟨⟨key, value⟩, after⟩, takesAssignment, same⟩ :=
      Option.map_eq_some_iff.mp takes
    rw [← (Prod.mk.inj same).1]
    rintro _ _ ⟨rfl, rfl⟩
    exact inRange_of_takeAssignment? (scansInRange_takeValue? maxDepth)
      takesAssignment

/-- The lines of a document assign only what is in range. -/
private theorem inRange_of_statements?
    {fuel : Nat}
    {found statements : List Statement}
    {text : List Char}
    (takes : statements? fuel found text = some statements)
    (foundInRange : ∀ statement ∈ found, statement.InRange) :
    ∀ statement ∈ statements, statement.InRange := by
  induction fuel generalizing found text with
  | zero =>
      contradiction
  | succ fuel inductionHypothesis =>
      rw [statements?.eq_2] at takes
      split at takes
      · obtain rfl := Option.some.inj takes
        simpa only [List.mem_reverse] using foundInRange
      · split at takes
        · contradiction
        · next statement after takesStatement =>
            split at takes
            · contradiction
            · exact inductionHypothesis takes
                (List.forall_mem_cons.mpr
                  ⟨inRange_of_takeStatement? takesStatement, foundInRange⟩)

/--
Every value assigned in the current section and in earlier ones is in range.
-/
def SectionsInRange (sections : Section × List Section) : Prop :=
  ∀ part ∈ sections.1 :: sections.2, AssignsInRange part.assignments

/-- Sorting a line into its section keeps the sections in range. -/
private theorem SectionsInRange.add
    {sections : Section × List Section}
    {statement : Statement}
    (inRange : SectionsInRange sections)
    (added : statement.InRange) :
    SectionsInRange (addStatement sections statement) := by
  obtain ⟨current, earlier⟩ := List.forall_mem_cons.mp inRange
  cases statement with
  | assign key datum =>
      have assigned : datum.InRange := added key datum rfl
      exact List.forall_mem_cons.mpr
        ⟨List.forall_mem_cons.mpr ⟨assigned, current⟩, earlier⟩
  | header key =>
      exact List.forall_mem_cons.mpr ⟨nofun, inRange⟩
  | listHeader key =>
      exact List.forall_mem_cons.mpr ⟨nofun, inRange⟩

private theorem SectionsInRange.addAll
    {sections : Section × List Section}
    {statements : List Statement}
    (inRange : SectionsInRange sections)
    (added : ∀ statement ∈ statements, statement.InRange) :
    SectionsInRange (statements.foldl addStatement sections) := by
  induction statements generalizing sections with
  | nil =>
      exact inRange
  | cons statement statements inductionHypothesis =>
      obtain ⟨first, others⟩ := List.forall_mem_cons.mp added
      exact inductionHypothesis (inRange.add first) others

/-- Every section of lines in range is in range. -/
private theorem inRange_of_mem_sectionsOf
    {statements : List Statement}
    {part : Section}
    (inRange : ∀ statement ∈ statements, statement.InRange)
    (isPart : part ∈ sectionsOf statements) :
    AssignsInRange part.assignments := by
  have start : SectionsInRange (⟨none, []⟩, []) :=
    List.forall_mem_singleton.mpr nofun
  have all := start.addAll inRange
  obtain ⟨collected, isCollected, rfl⟩ := List.mem_map.mp isPart
  have assigned := all collected (List.mem_reverse.mp isCollected)
  simpa only [AssignsInRange, List.mem_reverse] using assigned

/-- Applying a section in range keeps fields in range. -/
private theorem inRange_of_applySection?
    {fields changed : Fields}
    {part : Section}
    (applies : applySection? fields part = some changed)
    (assigned : AssignsInRange part.assignments)
    (inRange : fields.InRange) :
    changed.InRange := by
  unfold applySection? at applies
  split at applies
  · exact Fields.inRange_of_assignAll? applies assigned inRange
  · exact Fields.inRange_of_define? applies assigned inRange
  · exact Fields.inRange_of_append? applies assigned inRange

/-- Applying all sections of a document keeps fields in range. -/
private theorem inRange_of_applySections?
    {fields changed : Fields}
    {parts : List Section}
    (applies : parts.foldlM applySection? fields = some changed)
    (assigned : ∀ part ∈ parts, AssignsInRange part.assignments)
    (inRange : fields.InRange) :
    changed.InRange := by
  induction parts generalizing fields with
  | nil =>
      obtain rfl := Option.some.inj applies
      exact inRange
  | cons part parts inductionHypothesis =>
      obtain ⟨first, others⟩ := List.forall_mem_cons.mp assigned
      simp only [List.foldlM_cons, Option.bind_eq_bind,
        Option.bind_eq_some_iff] at applies
      obtain ⟨middle, appliesFirst, appliesRest⟩ := applies
      exact inductionHypothesis appliesRest others
        (inRange_of_applySection? appliesFirst first inRange)

/-- Every whole number of a document has 64 bits with a sign. -/
theorem inRange_of_parse?
    {text : List Char}
    {datum : Datum}
    (parses : parse? text = some datum) :
    datum.InRange := by
  simp only [parse?, Option.bind_eq_bind, Option.bind_eq_some_iff,
    Option.some.injEq] at parses
  obtain ⟨statements, takes, fields, applies, rfl⟩ := parses
  have inRange := inRange_of_statements? takes (List.forall_mem_nil _)
  exact (inRange_of_applySections? applies
    (fun part isPart => inRange_of_mem_sectionsOf inRange isPart)
    Fields.InRange.nil).toDatum false

end EventRelay.Toml
