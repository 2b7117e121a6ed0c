import EventRelay.Toml.Scalar
import EventRelay.Toml.Table

namespace EventRelay.Toml

/-!
# Documents

A document is a sequence of lines: assignments, and headers under which the
assignments after them fall.
-/

open Config (Datum)

/-- How deep arrays and inline tables may be nested. -/
def maxDepth : Nat :=
  79

/-- How many parts a dotted key may have. -/
def maxKeyParts : Nat :=
  79

/-- A dotted key: the tables it passes through, and its last part. -/
abbrev Key := List String × String

/-- Whether a character may stand in a key without quotes. -/
def isKeyCharacter (character : Char) : Bool :=
  character.isAlphanum || character == '_' || character == '-'

/-- Takes one part of a key. -/
def takeKeyPart? (text : List Char) : Option (String × List Char) :=
  match text.takeWhile isKeyCharacter with
  | [] =>
      takeShortText? text
  | word =>
      some (String.ofList word, text.dropWhile isKeyCharacter)

/-- Takes the parts of a key, separated by points with blanks around them. -/
def takeKeyParts? : Nat → List Char → Option (List String × List Char)
  | 0, _ =>
      none
  | fuel + 1, text => do
      let (part, rest) ← takeKeyPart? (skipBlanks text)
      match skipBlanks rest with
      | '.' :: rest =>
          let (parts, rest) ← takeKeyParts? fuel rest
          some (part :: parts, rest)
      | rest =>
          some ([part], rest)

/-- Takes a key. -/
def takeKey? (text : List Char) : Option (Key × List Char) := do
  let (parts, rest) ← takeKeyParts? (text.length + 1) text
  let last ← parts.getLast?
  if parts.length ≤ maxKeyParts then
    some ((parts.dropLast, last), rest)
  else
    none

/-- A scanner of values. -/
abbrev ValueScanner := List Char → Option (Datum × List Char)

/-- Takes a key, the sign after it, and a value. -/
def takeAssignment? (value : ValueScanner) (text : List Char) :
    Option ((Key × Datum) × List Char) := do
  let (key, rest) ← takeKey? text
  let rest ← expect? '=' rest
  let (datum, rest) ← value (skipBlanks rest)
  some ((key, datum), rest)

/-- Takes the items of an array up to its closing bracket. -/
def takeItems? (value : ValueScanner) :
    Nat → List Datum → List Char → Option (List Datum × List Char)
  | 0, _, _ =>
      none
  | fuel + 1, found, text =>
      match skipSpace text with
      | ']' :: rest =>
          some (found.reverse, rest)
      | text =>
          match value text with
          | none =>
              none
          | some (item, rest) =>
              match skipSpace rest with
              | ',' :: rest =>
                  takeItems? value fuel (item :: found) rest
              | ']' :: rest =>
                  some ((item :: found).reverse, rest)
              | _ =>
                  none

/-- Takes the assignments of an inline table up to its closing brace. -/
def takeFields? (value : ValueScanner) :
    Nat → List (Key × Datum) → List Char → Option ((List (Key × Datum)) × List Char)
  | 0, _, _ =>
      none
  | fuel + 1, found, text =>
      match takeAssignment? value text with
      | none =>
          none
      | some (field, rest) =>
          match skipBlanks rest with
          | ',' :: rest =>
              takeFields? value fuel (field :: found) rest
          | '\x7d' :: rest =>
              some ((field :: found).reverse, rest)
          | _ =>
              none

/-- An assignment in the form in which tables take it. -/
def flatten (assignment : Key × Datum) : List String × String × Datum :=
  (assignment.1.1, assignment.1.2, assignment.2)

/-- Takes what follows the opening brace of an inline table. -/
def takeInline? (value : ValueScanner) (text : List Char) : Option (Datum × List Char) :=
  match skipBlanks text with
  | '\x7d' :: rest =>
      some (.table true [], rest)
  | text => do
      let (assignments, rest) ← takeFields? value (text.length + 1) [] text
      let fields ← Fields.assignAll? [] (assignments.map flatten)
      some (.table true (fieldData true fields), rest)

/-- Takes a value in which arrays and tables nest up to a depth. -/
def takeValue? : Nat → ValueScanner
  | 0, text =>
      takeScalar? text
  | depth + 1, text =>
      match text with
      | '[' :: rest =>
          (takeItems? (takeValue? depth) (rest.length + 1) [] rest).map
            fun (items, rest) => (.list items, rest)
      | '\x7b' :: rest =>
          takeInline? (takeValue? depth) rest
      | _ =>
          takeScalar? text

/-- What a line says. -/
inductive Statement where
  | assign (key : Key) (datum : Datum)
  | header (key : Key)
  | listHeader (key : Key)

/-- Takes the rest of a header after its opening brackets. -/
def takeHeader? (closing : List Char) (text : List Char) : Option (Key × List Char) := do
  let (key, rest) ← takeKey? text
  let rest ← afterWord? closing rest
  some (key, rest)

/-- Takes a statement from a line that has one. -/
def takeStatement? (text : List Char) : Option (Statement × List Char) :=
  match text with
  | '[' :: '[' :: rest =>
      (takeHeader? [']', ']'] rest).map fun (key, rest) =>
        (.listHeader key, rest)
  | '[' :: rest =>
      (takeHeader? [']'] rest).map fun (key, rest) => (.header key, rest)
  | _ =>
      (takeAssignment? (takeValue? maxDepth) text).map
        fun ((key, datum), rest) => (.assign key datum, rest)

/--
The statements of a text, found so far newest first.  Every statement uses up
a character.
-/
def statements? : Nat → List Statement → List Char → Option (List Statement)
  | 0, _, _ =>
      none
  | fuel + 1, found, text =>
      match skipSpace text with
      | [] =>
          some found.reverse
      | text =>
          match takeStatement? text with
          | none =>
              none
          | some (statement, rest) =>
              match endLine? rest with
              | none =>
                  none
              | some rest =>
                  statements? fuel (statement :: found) rest

/-- A header, or none for the start of the document, with its assignments. -/
structure Section where
  header : Option (Bool × Key)
  assignments : List (List String × String × Datum)

/--
Adds a statement to sections, the current one first and its assignments newest
first.
-/
def addStatement (sections : Section × List Section) (statement : Statement) :
    Section × List Section :=
  let (current, earlier) := sections
  match statement with
  | .assign key datum =>
      ({ current with
          assignments := flatten (key, datum) :: current.assignments },
        earlier)
  | .header key =>
      (⟨some (false, key), []⟩, current :: earlier)
  | .listHeader key =>
      (⟨some (true, key), []⟩, current :: earlier)

/-- The sections of a document in order. -/
def sectionsOf (statements : List Statement) : List Section :=
  let (current, earlier) :=
    statements.foldl addStatement (⟨none, []⟩, [])
  (current :: earlier).reverse.map fun part =>
    { part with assignments := part.assignments.reverse }

/-- Applies a section to the table of the document. -/
def applySection? (fields : Fields) (part : Section) : Option Fields :=
  match part.header with
  | none =>
      fields.assignAll? part.assignments
  | some (false, path, key) =>
      fields.define? path key part.assignments
  | some (true, path, key) =>
      fields.append? path key part.assignments

/-- The text without a byte-order mark. -/
def withoutMark : List Char → List Char
  | '\uFEFF' :: rest =>
      rest
  | text =>
      text

/-- Reads a document. -/
def parse? (text : List Char) : Option Datum := do
  let body := withoutMark text
  let statements ← statements? (body.length + 1) [] body
  let fields ← (sectionsOf statements).foldlM applySection? []
  some (.table false (fieldData false fields))

end EventRelay.Toml
