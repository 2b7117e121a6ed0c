import EventRelay.Url.Host

namespace EventRelay.Url

/-!
# Reading URLs

A text is read from left to right: scheme, credentials, host, number, path,
query, fragment.  Web schemes always have a host and take the backslash for a
slash; the file scheme may have an empty host; other schemes may have none.
-/

open Text (splitWhere splitOnce?)

/-- How a scheme is treated. -/
inductive SchemeKind where
  | web
  | file
  | other
  deriving Repr, DecidableEq

namespace SchemeKind

/-- Whether the backslash is a slash. -/
def isSpecial : SchemeKind → Bool
  | .other =>
      false
  | _ =>
      true

end SchemeKind

/-- The web schemes, each with the number it uses when none is given. -/
def webSchemes : List (List Char × Nat) :=
  [(['h', 't', 't', 'p'], 80),
    (['h', 't', 't', 'p', 's'], 443),
    (['w', 's'], 80),
    (['w', 's', 's'], 443),
    (['f', 't', 'p'], 21)]

/-- The scheme of files. -/
def fileScheme : List Char :=
  ['f', 'i', 'l', 'e']

/-- The kind of a scheme. -/
def SchemeKind.ofScheme (scheme : List Char) : SchemeKind :=
  if (webSchemes.lookup scheme).isSome then
    .web
  else if scheme = fileScheme then
    .file
  else
    .other

/-- Whether a character is encoded in a fragment. -/
def encodedInFragment (character : Char) : Bool :=
  [' ', '"', '<', '>', '\x60'].contains character

/-- Whether a character is encoded in a path. -/
def encodedInPath (character : Char) : Bool :=
  encodedInFragment character ||
    ['#', '?', '\x7b', '\x7d'].contains character

/-- Whether a character is encoded in credentials. -/
def encodedInCredentials (character : Char) : Bool :=
  encodedInPath character ||
    ['/', ':', ';', '=', '@', '[', '\\', ']', '^', '|'].contains character

/-- Whether a character is encoded in a query. -/
def encodedInQuery (kind : SchemeKind) (character : Char) : Bool :=
  [' ', '"', '#', '<', '>'].contains character ||
    (kind.isSpecial && character == '\'')

/-- Whether a character is trimmed from both ends. -/
def isTrimmed (character : Char) : Bool :=
  character.toNat ≤ 0x20

/-- Whether a character is dropped everywhere. -/
def isDropped (character : Char) : Bool :=
  character == '\t' || character == '\n' || character == '\r'

/-- The characters that are read. -/
def significant (text : List Char) : List Char :=
  (Text.trimWhere isTrimmed text).filter (!isDropped ·)

/-- The lower case of an ASCII letter. -/
def lowerAscii (character : Char) : Char :=
  character.toLower

/-- Whether a character may follow the first letter of a scheme. -/
def isSchemeCharacter (character : Char) : Bool :=
  character.isAlphanum || character == '+' || character == '-' ||
    character == '.'

/-- The scheme in lower case, and what follows its colon. -/
def splitScheme? (text : List Char) : Option (List Char × List Char) :=
  match text with
  | [] =>
      none
  | first :: _ =>
      if first.isAlpha then
        match text.dropWhile isSchemeCharacter with
        | ':' :: rest =>
            some ((text.takeWhile isSchemeCharacter).map lowerAscii, rest)
        | _ =>
            none
      else
        none

/-- Whether a character ends host and number. -/
def endsAuthority (kind : SchemeKind) (character : Char) : Bool :=
  character == '/' || character == '?' || character == '#' ||
    (kind.isSpecial && character == '\\')

/-- Whether a character separates path segments. -/
def isSlash (kind : SchemeKind) (character : Char) : Bool :=
  character == '/' || (kind.isSpecial && character == '\\')

/-! ## Credentials, host and number -/

/-- Divides at the last sign that ends credentials. -/
def splitCredentials? (authority : List Char) :
    Option (List Char × List Char) :=
  match authority.reverse.dropWhile (· != '@') with
  | [] =>
      none
  | _ :: credentials =>
      some (credentials.reverse,
        (authority.reverse.takeWhile (· != '@')).reverse)

/-- The encoded name and password; an empty password counts as none. -/
def readCredentials (credentials : List Char) :
    List Char × Option (List Char) :=
  let encode := Text.Percent.encode encodedInCredentials
  match splitOnce? (· == ':') credentials with
  | none =>
      (encode credentials, none)
  | some (name, []) =>
      (encode name, none)
  | some (name, password) =>
      (encode name, some (encode password))

/-- The length of a host: up to a colon outside brackets. -/
def hostLength (insideBrackets : Bool) : List Char → Nat
  | [] =>
      0
  | character :: rest =>
      if character = ':' ∧ !insideBrackets then
        0
      else if character = '[' then
        hostLength true rest + 1
      else if character = ']' then
        hostLength false rest + 1
      else
        hostLength insideBrackets rest + 1

/-- Reads the number after a host; returns it and what follows. -/
def readNumber (scheme : List Char) (text : List Char) :
    Except UrlError (Option Nat × List Char) :=
  let digits := text.takeWhile Char.isDigit
  let rest := text.dropWhile Char.isDigit
  let number := (Text.decimal? digits).getD 0
  if 65535 < number then
    .error .invalidNumber
  else
    match rest with
    | character :: _ =>
        if character = '\\' then
          .ok (if digits.isEmpty then none else some number, rest)
        else
          .error .invalidNumber
    | [] =>
        if digits.isEmpty ∨ webSchemes.lookup scheme = some number then
          .ok (none, [])
        else
          .ok (some number, [])

/-- Host and number, and what follows them. -/
structure Location where
  host : Host
  number : Option Nat
  rest : List Char

/-- Reads host and number. -/
def readLocation
    (kind : SchemeKind)
    (scheme : List Char)
    (text : List Char) : Except UrlError Location := do
  let length := hostLength false text
  let hostText := text.take length
  let after := text.drop length
  if hostText.isEmpty ∧ (kind.isSpecial ∨ !after.isEmpty) then
    .error .emptyHost
  else
    let host ←
      if kind.isSpecial then Host.ofDomain hostText else Host.ofText hostText
    match after with
    | ':' :: numberText =>
        let (number, rest) ← readNumber scheme numberText
        .ok ⟨host, number, rest⟩
    | _ =>
        .ok ⟨host, none, []⟩

/-! ## Paths -/

/-- Whether a segment stands for the one it is in. -/
def isSingleDot (segment : List Char) : Bool :=
  match segment.map lowerAscii with
  | ['.'] =>
      true
  | ['%', '2', 'e'] =>
      true
  | _ =>
      false

/-- Whether a segment stands for the one above. -/
def isDoubleDot (segment : List Char) : Bool :=
  match segment.map lowerAscii with
  | ['.', '.'] =>
      true
  | ['.', '%', '2', 'e'] =>
      true
  | ['%', '2', 'e', '.'] =>
      true
  | ['%', '2', 'e', '%', '2', 'e'] =>
      true
  | _ =>
      false

/-- Whether a segment names a drive. -/
def isDrive (segment : List Char) : Bool :=
  match segment with
  | [letter, mark] =>
      letter.isAlpha && (mark == ':' || mark == '|')
  | _ =>
      false

/-- The usual form of a drive. -/
def normalizeDrive (segment : List Char) : List Char :=
  match segment with
  | [letter, _] =>
      [letter, ':']
  | _ =>
      segment

/-- The path above; a drive has none. -/
def shorten (kind : SchemeKind) (path : List (List Char)) :
    List (List Char) :=
  match path with
  | [only] =>
      if kind = .file ∧ isDrive only then
        path
      else
        []
  | _ =>
      path.dropLast

/-- Adds a segment to a path. -/
def addSegment
    (kind : SchemeKind)
    (path : List (List Char))
    (segment : List Char)
    (isLast : Bool) : List (List Char) :=
  if isDoubleDot segment then
    shorten kind path ++ if isLast then [[]] else []
  else if isSingleDot segment then
    path ++ if isLast then [[]] else []
  else if kind = .file ∧ path.isEmpty ∧ isDrive segment then
    [normalizeDrive segment]
  else
    path ++ [Text.Percent.encode encodedInPath segment]

/-- Adds segments to a path. -/
def addSegments (kind : SchemeKind) (path : List (List Char)) :
    List (List Char) → List (List Char)
  | [] =>
      path
  | segment :: segments =>
      addSegments kind (addSegment kind path segment segments.isEmpty) segments

/-- Removes empty segments from the start, but not the only segment. -/
def dropLeadingEmpty : List (List Char) → List (List Char)
  | [] :: segment :: segments =>
      dropLeadingEmpty (segment :: segments)
  | segments =>
      segments

/-- The segments of a path that was written without its first slash. -/
def readSegments (kind : SchemeKind) (text : List Char) :
    List (List Char) :=
  let segments := addSegments kind [] (splitWhere (isSlash kind) text)
  if kind = .file then
    dropLeadingEmpty segments
  else
    segments

/-- The path that starts where host and number end. -/
def readPath (kind : SchemeKind) (text : List Char) : Path :=
  match text with
  | [] =>
      .segments (if kind.isSpecial then [[]] else [])
  | first :: rest =>
      if isSlash kind first then
        .segments (readSegments kind rest)
      else
        .segments (readSegments kind text)

/-- The parts of a text after host and number. -/
structure Ending where
  path : List Char
  query : Option (List Char)
  fragment : Option (List Char)

/-- Divides a text into path, query and fragment. -/
def splitEnding (text : List Char) : Ending :=
  let (before, fragment) :=
    match splitOnce? (· == '#') text with
    | none =>
        (text, none)
    | some (before, fragment) =>
        (before, some fragment)
  match splitOnce? (· == '?') before with
  | none =>
      ⟨before, none, fragment⟩
  | some (path, query) =>
      ⟨path, some query, fragment⟩

/-- Completes a URL by query and fragment. -/
def withEnding (kind : SchemeKind) (url : Url) (ending : Ending) : Url :=
  { url with
    query := ending.query.map (Text.Percent.encode (encodedInQuery kind))
    fragment := ending.fragment.map (Text.Percent.encode encodedInFragment) }

/-! ## Whole URLs -/

/-- Reads what follows the two slashes of a scheme. -/
def readAfterSlashes
    (kind : SchemeKind)
    (scheme : List Char)
    (text : List Char) : Except UrlError Url := do
  let authority := text.takeWhile (!endsAuthority kind ·)
  let after := text.dropWhile (!endsAuthority kind ·)
  let (credentials, location) := (splitCredentials? authority).getD ([], authority)
  let hasSign := (splitCredentials? authority).isSome
  if hasSign ∧ credentials.isEmpty ∧ location.isEmpty ∧ !after.isEmpty then
    .error .emptyHost
  else
    let (username, password) := readCredentials credentials
    let found ← readLocation kind scheme location
    if found.host = .name [] ∧ (!username.isEmpty ∨ password.isSome) then
      .error .emptyHost
    else
      let ending := splitEnding (found.rest ++ after)
      .ok (withEnding kind
        { scheme
          username
          password
          host := some found.host
          portNumber := found.number
          path := readPath kind ending.path
          query := none
          fragment := none }
        ending)

/-- The name of the own machine. -/
def localhost : List Char :=
  ['l', 'o', 'c', 'a', 'l', 'h', 'o', 's', 't']

/--
Reads the host of a file; a drive is no host, and the own machine is written
as the empty host.
-/
def readFileHost (text : List Char) : Except UrlError (Host × List Char) :=
  let hostText := text.takeWhile (!endsAuthority .file ·)
  let rest := text.dropWhile (!endsAuthority .file ·)
  if hostText.isEmpty then
    .ok (.name [], rest)
  else if isDrive hostText then
    .ok (.name [], text)
  else do
    let host ← Host.ofDomain hostText
    if host = .name localhost then
      .ok (.name [], rest)
    else
      .ok (host, rest)

/-- Reads what follows the colon of a file scheme. -/
def readFile (scheme : List Char) (text : List Char) :
    Except UrlError Url := do
  let (host, rest) ←
    match text with
    | first :: second :: rest =>
        if isSlash .file first ∧ isSlash .file second then
          readFileHost rest
        else
          .ok (.name [], text)
    | _ =>
        .ok (.name [], text)
  let ending := splitEnding rest
  .ok (withEnding .file
    { scheme
      username := []
      password := none
      host := some host
      portNumber := none
      path := readPath .file ending.path
      query := none
      fragment := none }
    ending)

/-- Reads what follows the colon of an unknown scheme. -/
def readOther (scheme : List Char) (text : List Char) :
    Except UrlError Url :=
  match text with
  | '/' :: '/' :: rest =>
      readAfterSlashes .other scheme rest
  | _ =>
      let ending := splitEnding text
      let path :=
        match ending.path with
        | '/' :: _ =>
            readPath .other ending.path
        | _ =>
            .whole (Text.Percent.encode (fun _ => false) ending.path)
      .ok (withEnding .other
        { scheme
          username := []
          password := none
          host := none
          portNumber := none
          path
          query := none
          fragment := none }
        ending)

/-- Reads a URL. -/
def parse (text : List Char) : Except UrlError Url :=
  match splitScheme? (significant text) with
  | none =>
      .error .relativeWithoutBase
  | some (scheme, rest) =>
      match SchemeKind.ofScheme scheme with
      | .web =>
          readAfterSlashes .web scheme (rest.dropWhile (isSlash .web))
      | .file =>
          readFile scheme rest
      | .other =>
          readOther scheme rest

/-- Reads a URL from a string. -/
def ofString (text : String) : Except UrlError Url :=
  parse text.toList

end EventRelay.Url
