import EventRelay.Backend.Document

namespace EventRelay.Backend

/-!
# Envelopes

Every answer of the backend is wrapped: whether it succeeded, its data, and
an error text.  Members of other names are ignored.
-/

open Json (Tree Value)

/-- A wrapped answer. -/
structure Envelope (α : Type) where
  success : Bool
  data : Option α
  error : Option String
  deriving Repr

namespace Envelope

/-- The members that are read. -/
def names : List String :=
  ["success", "data", "error"]

/-- The envelope of data. -/
def ofData (data : α) : Envelope α :=
  ⟨true, some data, none⟩

/-- The envelope of an error. -/
def ofError (error : String) : Envelope α :=
  ⟨false, none, some error⟩

/-- What stands in for an error text that was not given. -/
def unspecified : String :=
  "unspecified backend error"

/-- The error of a success without data. -/
def emptySuccess : String :=
  "response marked successful but carried no data"

/-- The data of a success, or an error text. -/
def intoData (envelope : Envelope α) : Except String α :=
  match envelope.success, envelope.data with
  | true, some data =>
      .ok data
  | true, none =>
      .error emptySuccess
  | false, _ =>
      .error (envelope.error.getD unspecified)

/-- The members that are read, each at most once. -/
def known? (members : Tree.Members) : Option (List (String × Tree)) :=
  members.foldlM
    (fun known (key, tree) => do
      let key ← key
      if !names.contains key then
        some known
      else if (known.lookup key).isSome then
        none
      else
        some ((key, tree) :: known))
    []

/-- Reads the three parts of an envelope. -/
def ofParts?
    (read : Tree → Option α)
    (success data error : Tree) : Option (Envelope α) := do
  let success ← success.boolean?
  let data ← data.optional? read
  let error ← error.optional? Tree.string?
  some ⟨success, data, error⟩

/-- Reads an envelope, written as an object or as a list of its three parts. -/
def ofTree? [Document α] : Nat → Tree → Option (Envelope α)
  | depth + 1, .object members => do
      let known ← known? members
      let success ← known.lookup "success"
      ofParts? (Document.ofTree? depth) success
        ((known.lookup "data").getD .null)
        ((known.lookup "error").getD .null)
  | depth + 1, .list [success, data, error] =>
      ofParts? (Document.ofTree? depth) success data error
  | _, _ =>
      none

/-- The envelope as a value. -/
def toValue [Document α] (envelope : Envelope α) : Value :=
  .object
    [("success", .boolean envelope.success),
      ("data", (envelope.data.map Document.toValue).getD .null),
      ("error", .ofOption envelope.error)]

end Envelope

instance [Document α] : Document (Envelope α) where
  ofTree? :=
    Envelope.ofTree?
  toValue :=
    Envelope.toValue

/-- An envelope of a failure, for which no type of data matters. -/
def failureText (error : String) : String :=
  Value.compact
    (.object
      [("success", .boolean false), ("data", .null), ("error", .text error)])

end EventRelay.Backend
