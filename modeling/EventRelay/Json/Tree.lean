import EventRelay.Json.Token
import EventRelay.Json.Value

namespace EventRelay.Json

/-!
# Trees

A tree is a document as written: members keep their order and are not made
unique, and numbers and texts without content are allowed.  Whoever reads a
part of the tree decides what to demand of it.

A machine with a stack of open lists and objects reads tokens one at a time.
-/

/-- A document as written. -/
inductive Tree where
  | null
  | boolean (value : Bool)
  | number (value : Option Number)
  | text (value : Option String)
  | list (items : List Tree)
  | object (members : List (Option String × Tree))
  deriving Repr

/-- The members of an object as written. -/
abbrev Tree.Members := List (Option String × Tree)

/-- A list or object that is still open, its parts newest first. -/
inductive Pending where
  | list (items : List Tree)
  | object (members : Tree.Members) (key : Option String)
  deriving Repr

/-- What may come next. -/
inductive Expected where
  | value
  | firstItem
  | key (members : Tree.Members)
  | firstKey
  | colon (members : Tree.Members) (key : Option String)
  /-- A complete value, after which a list or object goes on or ends. -/
  | separator (complete : Tree)
  deriving Repr

/-- A document that has been read in part. -/
structure Reader where
  stack : List Pending
  expected : Expected
  deriving Repr

namespace Reader

/-- Nothing read. -/
def start : Reader :=
  ⟨[], .value⟩

/-- Reads the first token of a value. -/
def beginValue (stack : List Pending) : Token → Option Reader
  | .null =>
      some ⟨stack, .separator .null⟩
  | .boolean value =>
      some ⟨stack, .separator (.boolean value)⟩
  | .number value =>
      some ⟨stack, .separator (.number value)⟩
  | .text value =>
      some ⟨stack, .separator (.text value)⟩
  | .openList =>
      some ⟨.list [] :: stack, .firstItem⟩
  | .openObject =>
      some ⟨stack, .firstKey⟩
  | _ =>
      none

/-- Reads the token after a complete value. -/
def afterValue (stack : List Pending) (complete : Tree) :
    Token → Option Reader
  | .comma =>
      match stack with
      | .list items :: outer =>
          some ⟨.list (complete :: items) :: outer, .value⟩
      | .object members key :: outer =>
          some ⟨outer, .key ((key, complete) :: members)⟩
      | [] =>
          none
  | .closeList =>
      match stack with
      | .list items :: outer =>
          some ⟨outer, .separator (.list (complete :: items).reverse)⟩
      | _ =>
          none
  | .closeObject =>
      match stack with
      | .object members key :: outer =>
          some ⟨outer,
            .separator (.object ((key, complete) :: members).reverse)⟩
      | _ =>
          none
  | _ =>
      none

/-- Reads one token. -/
def step (reader : Reader) (token : Token) : Option Reader :=
  match reader.expected with
  | .value =>
      beginValue reader.stack token
  | .firstItem =>
      match token, reader.stack with
      | .closeList, .list _ :: outer =>
          some ⟨outer, .separator (.list [])⟩
      | _, stack =>
          beginValue stack token
  | .firstKey =>
      match token with
      | .closeObject =>
          some ⟨reader.stack, .separator (.object [])⟩
      | .text key =>
          some ⟨reader.stack, .colon [] key⟩
      | _ =>
          none
  | .key members =>
      match token with
      | .text key =>
          some ⟨reader.stack, .colon members key⟩
      | _ =>
          none
  | .colon members key =>
      match token with
      | .colon =>
          some ⟨.object members key :: reader.stack, .value⟩
      | _ =>
          none
  | .separator complete =>
      afterValue reader.stack complete token

/-- The document read, if it is complete. -/
def result? (reader : Reader) : Option Tree :=
  match reader.stack, reader.expected with
  | [], .separator complete =>
      some complete
  | _, _ =>
      none

/-- Reads tokens until one document is complete. -/
def takeDocument (reader : Reader) : List Token → Option (Tree × List Token)
  | [] =>
      none
  | token :: tokens =>
      match reader.step token with
      | none =>
          none
      | some next =>
          match next.result? with
          | some complete =>
              some (complete, tokens)
          | none =>
              takeDocument next tokens

end Reader

namespace Tree

/-- Reads one document from the front of a list of tokens. -/
def take? (tokens : List Token) : Option (Tree × List Token) :=
  Reader.start.takeDocument tokens

/-- Reads tokens that are one document. -/
def ofTokens? (tokens : List Token) : Option Tree :=
  match take? tokens with
  | some (tree, []) =>
      some tree
  | _ =>
      none

/-- Reads bytes that are one document. -/
def ofBytes? (bytes : List UInt8) : Option Tree :=
  ofTokens? (Token.ofBytes bytes)

/-- How deep lists and objects may be nested in what is read. -/
def maxDepth : Nat :=
  127

mutual

/-- The value of a tree whose nesting stays within a depth. -/
def toValue? (depth : Nat) : Tree → Option Value
  | .null =>
      some .null
  | .boolean value =>
      some (.boolean value)
  | .number value =>
      value.map .number
  | .text value =>
      value.map .text
  | .list items =>
      match depth with
      | 0 =>
          none
      | depth + 1 =>
          (itemValues? depth items).map .list
  | .object members =>
      match depth with
      | 0 =>
          none
      | depth + 1 =>
          (memberValues? depth members).map fun members =>
            .object (Members.ofList members)

/-- The values of a list of trees. -/
def itemValues? (depth : Nat) : List Tree → Option (List Value)
  | [] =>
      some []
  | item :: items => do
      let value ← toValue? depth item
      let values ← itemValues? depth items
      some (value :: values)

/-- The values of members as written. -/
def memberValues? (depth : Nat) :
    List (Option String × Tree) → Option (List (String × Value))
  | [] =>
      some []
  | (key, tree) :: members => do
      let key ← key
      let value ← toValue? depth tree
      let values ← memberValues? depth members
      some ((key, value) :: values)

end

/-- The text of a tree that is one. -/
def string? : Tree → Option String
  | .text value =>
      value
  | _ =>
      none

/-- The truth value of a tree that is one. -/
def boolean? : Tree → Option Bool
  | .boolean value =>
      some value
  | _ =>
      none

/-- The whole number of a tree, if it has 64 bits with a sign. -/
def integer? : Tree → Option Int
  | .number (some (.whole value)) =>
      if value < 9223372036854775808 then
        some value
      else
        none
  | _ =>
      none

/-- Reads null as absence, and all else by a reader. -/
def optional? (read : Tree → Option α) : Tree → Option (Option α)
  | .null =>
      some none
  | tree =>
      (read tree).map some

end Tree

namespace Value

/-- Reads bytes that are one document. -/
def ofBytes? (bytes : List UInt8) : Option Value :=
  (Tree.ofBytes? bytes).bind (Tree.toValue? Tree.maxDepth)

end Value

end EventRelay.Json
