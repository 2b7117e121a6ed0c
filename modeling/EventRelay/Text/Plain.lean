namespace EventRelay.Text

/-!
# Plain names

Names that stand for themselves in addresses and cookies: ASCII letters,
digits, underscores, hyphens and dots.
-/

/-- Whether a character may stand in a plain name. -/
def isPlain (character : Char) : Bool :=
  character.isAlphanum || character == '_' || character == '-' ||
    character == '.'

/-- Whether a text consists of such characters, at least one. -/
def isPlainName (text : List Char) : Bool :=
  !text.isEmpty && text.all isPlain

/--
Whether a plain name keeps its place in a path, where one dot and two dots
have a meaning of their own.
-/
def isPlainSegment (text : List Char) : Bool :=
  isPlainName text && text != ['.'] && text != ['.', '.']

end EventRelay.Text
