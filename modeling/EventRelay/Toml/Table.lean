import EventRelay.Config.Datum

namespace EventRelay.Toml

/-!
# Tables

A table is filled by assignments to dotted keys and by headers.  A table that
a header defined cannot be defined again nor extended by dotted keys; a table
that was only passed through may still be defined, once.
-/

open Config (Datum)

/-- What a key of a table stands for. -/
inductive Item where
  | leaf (datum : Datum)
  /-- A table, whether it was only passed through, and whether that was by a
      dotted key. -/
  | table (isImplicit isDotted : Bool) (fields : List (String × Item))
  /-- A list of tables, each of which has a header of its own. -/
  | tables (items : List (List (String × Item)))

/-- The fields of a table in the order of their definition. -/
abbrev Fields := List (String × Item)

namespace Fields

/-- Replaces the item of a key. -/
def replace (key : String) (item : Item) : Fields → Fields
  | [] =>
      []
  | (other, held) :: rest =>
      if other = key then
        (key, item) :: rest
      else
        (other, held) :: replace key item rest

/-- Removes a key. -/
def remove (key : String) (fields : Fields) : Fields :=
  fields.filter (·.1 != key)

/--
Changes the table at a path.  The change is told whether the table was made by
a dotted key.
-/
def changeAt
    (byDottedKey : Bool)
    (change : Bool → Fields → Option Fields)
    (isDotted : Bool) :
    List String → Fields → Option Fields
  | [], fields =>
      change isDotted fields
  | key :: path, fields =>
      match fields.lookup key with
      | none =>
          (changeAt byDottedKey change byDottedKey path []).map fun inner =>
            fields ++ [(key, .table true byDottedKey inner)]
      | some (.leaf _) =>
          none
      | some (.table isImplicit innerDotted inner) =>
          if byDottedKey ∧ !isImplicit then
            none
          else
            (changeAt byDottedKey change innerDotted path inner).map
              fun inner =>
                replace key (.table isImplicit innerDotted inner) fields
      | some (.tables items) =>
          match items.getLast? with
          | none =>
              none
          | some last =>
              (changeAt byDottedKey change false path last).map fun last =>
                replace key (.tables (items.dropLast ++ [last])) fields

/-- Assigns a value to a key that was not assigned before. -/
def assign? (path : List String) (key : String) (datum : Datum)
    (fields : Fields) : Option Fields :=
  changeAt true
    (fun isDotted table =>
      if isDotted = path.isEmpty ∨ (table.lookup key).isSome then
        none
      else
        some (table ++ [(key, .leaf datum)]))
    false path fields

/-- Assigns several values. -/
def assignAll? (fields : Fields)
    (assignments : List (List String × String × Datum)) : Option Fields :=
  assignments.foldlM
    (fun fields (path, key, datum) => fields.assign? path key datum) fields

/-- Defines the table of a header, with its assignments. -/
def define? (path : List String) (key : String)
    (assignments : List (List String × String × Datum))
    (fields : Fields) : Option Fields :=
  changeAt false
    (fun _ parent => do
      let start ←
        match parent.lookup key with
        | none =>
            some []
        | some (.table true false inner) =>
            some inner
        | some _ =>
            none
      let table ← assignAll? start assignments
      some (parent.remove key ++ [(key, .table false false table)]))
    false path fields

/-- Adds a table to the list of tables of a header. -/
def append? (path : List String) (key : String)
    (assignments : List (List String × String × Datum))
    (fields : Fields) : Option Fields :=
  changeAt false
    (fun _ parent => do
      let table ← assignAll? [] assignments
      match parent.lookup key with
      | none =>
          some (parent ++ [(key, .tables [table])])
      | some (.tables items) =>
          some (parent.replace key (.tables (items ++ [table])))
      | some _ =>
          none)
    false path fields

end Fields

mutual

/-- An item as data. -/
def Item.toDatum (isInline : Bool) : Item → Datum
  | .leaf datum =>
      datum
  | .table _ _ fields =>
      .table isInline (fieldData isInline fields)
  | .tables items =>
      .list (tableData isInline items)

/-- Fields as data. -/
def fieldData (isInline : Bool) : List (String × Item) → List (String × Datum)
  | [] =>
      []
  | (key, item) :: fields =>
      (key, item.toDatum isInline) :: fieldData isInline fields

/-- Tables as data. -/
def tableData (isInline : Bool) : List (List (String × Item)) → List Datum
  | [] =>
      []
  | fields :: items =>
      .table isInline (fieldData isInline fields) :: tableData isInline items

end

end EventRelay.Toml
