import EventRelay.Json.Number

namespace EventRelay.Json

/-!
# Documents

A document is a value.  The members of an object are kept in a list; reading
sorts them by key, and of several members with one key keeps the last.
-/

/-- A JSON value. -/
inductive Value where
  | null
  | boolean (value : Bool)
  | number (value : Number)
  | text (value : String)
  | list (items : List Value)
  | object (members : List (String × Value))
  deriving Repr

/-- The members of an object. -/
abbrev Members := List (String × Value)

namespace Members

/-- Puts a member in its place by key, in place of one with the same key. -/
def insert (key : String) (value : Value) : Members → Members
  | [] =>
      [(key, value)]
  | (other, held) :: rest =>
      if key = other then
        (key, value) :: rest
      else if key < other then
        (key, value) :: (other, held) :: rest
      else
        (other, held) :: insert key value rest

/-- The members sorted by key; of each key the last one is kept. -/
def ofList (members : List (String × Value)) : Members :=
  members.foldl (fun sorted (key, value) => insert key value sorted) []

/-- The value of a member. -/
def get? (members : Members) (key : String) : Option Value :=
  members.lookup key

end Members

namespace Value

/-- A whole number as a value. -/
def ofInt (value : Int) : Value :=
  .number (.whole value)

/-- A text, or null where there is none. -/
def ofOption (value : Option String) : Value :=
  match value with
  | none =>
      .null
  | some content =>
      .text content

/-- The value of a member of an object. -/
def member? (value : Value) (key : String) : Option Value :=
  match value with
  | .object members =>
      Members.get? members key
  | _ =>
      none

end Value

end EventRelay.Json
