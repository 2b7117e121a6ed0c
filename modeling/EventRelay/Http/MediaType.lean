namespace EventRelay.Http.MediaType

/-!
# Media types

A media type is a type and a subtype with parameters.  Only its form and
whether it is JSON matter here.
-/

/-- Whether a character may stand in a name. -/
def isTokenCharacter (character : Char) : Bool :=
  character.isAlphanum ||
    ['!', '#', '$', '%', '&', '\'', '*', '+', '-', '.', '^', '_', '\x60', '|',
      '~'].contains character

/-- Where a reader of parameters stands. -/
inductive ParameterState where
  /-- Before a name; blanks are skipped. -/
  | nameStart
  | name
  | valueStart
  | value
  | quotedStart
  | quoted
  | afterQuoted
  deriving Repr, DecidableEq

/-- Whether characters may stand inside quotes. -/
def isQuotedCharacter (character : Char) : Bool :=
  0x20 ≤ character.toNat && character.toNat != 0x7F

/-- Reads one character of the parameters. -/
def stepParameter? (state : ParameterState) (character : Char) :
    Option ParameterState :=
  match state with
  | .nameStart =>
      if character = ' ' then
        some .nameStart
      else if isTokenCharacter character then
        some .name
      else
        none
  | .name =>
      if character = '=' then
        some .valueStart
      else if isTokenCharacter character then
        some .name
      else
        none
  | .valueStart =>
      if character = '"' then
        some .quotedStart
      else if isTokenCharacter character then
        some .value
      else
        none
  | .value =>
      if character = ';' then
        some .nameStart
      else if isTokenCharacter character then
        some .value
      else
        none
  | .quotedStart =>
      if isQuotedCharacter character then
        some .quoted
      else
        none
  | .quoted =>
      if character = '"' then
        some .afterQuoted
      else if isQuotedCharacter character then
        some .quoted
      else
        none
  | .afterQuoted =>
      if character = ';' then
        some .nameStart
      else if character = ' ' then
        some .afterQuoted
      else
        none

/-- Whether parameters may end in a state. -/
def mayEnd : ParameterState → Bool
  | .valueStart =>
      true
  | .value =>
      true
  | .afterQuoted =>
      true
  | _ =>
      false

/-- Whether a text is a list of parameters; it may be empty. -/
def areParameters (text : List Char) : Bool :=
  text.isEmpty ||
    match text.foldlM stepParameter? .nameStart with
    | some state =>
        mayEnd state
    | none =>
        false

/-- The ASCII lower case of a text. -/
def lower (text : List Char) : List Char :=
  text.map Char.toLower

/-- Whether a subtype is JSON or is written in it. -/
def isJsonSubtype (subtype : List Char) : Bool :=
  let json := ['j', 's', 'o', 'n']
  match (lower subtype).reverse.span (· != '+') with
  | (only, []) =>
      only.reverse == json
  | (suffix, _ :: before) =>
      suffix.reverse == json || before.reverse == json

/-- Whether a text is a media type of JSON documents. -/
def isJson (text : List Char) : Bool :=
  let category := text.takeWhile isTokenCharacter
  match text.dropWhile isTokenCharacter with
  | '/' :: rest =>
      let subtype := rest.takeWhile isTokenCharacter
      let parameters :=
        match rest.dropWhile isTokenCharacter with
        | [] =>
            true
        | ';' :: parameters =>
            areParameters parameters
        | _ =>
            false
      lower category == "application".toList && isJsonSubtype subtype &&
        parameters
  | _ =>
      false

end EventRelay.Http.MediaType
