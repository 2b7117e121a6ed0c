import EventRelay.Proofs.Json.Numerals
import EventRelay.Proofs.Json.Quoting

namespace EventRelay.Json

/-!
# Tokens of compact texts

The compact text of a value whose numbers are whole is cut into the tokens of
the value, one for each of its parts and marks.
-/

open Text.Utf8 (encode encode_append)

namespace Value

/-- What holds of every number in a value. -/
inductive EachNumber (holds : Number → Prop) : Value → Prop where
  | null : EachNumber holds .null
  | boolean (value : Bool) : EachNumber holds (.boolean value)
  | number {value : Number} :
      holds value → EachNumber holds (.number value)
  | text (value : String) : EachNumber holds (.text value)
  | list {items : List Value} :
      (∀ item ∈ items, EachNumber holds item) →
        EachNumber holds (.list items)
  | object {members : Members} :
      (∀ member ∈ members, EachNumber holds member.2) →
        EachNumber holds (.object members)

/-- Whole numbers in range are written exactly. -/
theorem EachNumber.isExact
    {value : Value}
    (whole : value.EachNumber Number.IsWhole)
    (inRange : value.EachNumber Number.InRange) :
    value.EachNumber Number.IsExact := by
  induction whole with
  | null =>
      exact .null
  | boolean value =>
      exact .boolean value
  | number isWhole =>
      cases inRange with
      | number isInRange =>
          exact .number ⟨isWhole, isInRange⟩
  | text value =>
      exact .text value
  | list _ inductionHypothesis =>
      cases inRange with
      | list areInRange =>
          exact .list fun item isItem =>
            inductionHypothesis item isItem (areInRange item isItem)
  | object _ inductionHypothesis =>
      cases inRange with
      | object areInRange =>
          exact .object fun member isMember =>
            inductionHypothesis member isMember (areInRange member isMember)

mutual

/-- The tokens of a value. -/
def tokens : Value → List Token
  | .null =>
      [.null]
  | .boolean value =>
      [.boolean value]
  | .number value =>
      [.number (some value)]
  | .text value =>
      [.text (some value)]
  | .list items =>
      .openList :: itemTokens items ++ [.closeList]
  | .object members =>
      .openObject :: memberTokens members ++ [.closeObject]

/-- The tokens of items, separated by commas. -/
def itemTokens : List Value → List Token
  | [] =>
      []
  | [item] =>
      tokens item
  | item :: items =>
      tokens item ++ .comma :: itemTokens items

/-- The tokens of members, separated by commas. -/
def memberTokens : List (String × Value) → List Token
  | [] =>
      []
  | [(key, value)] =>
      .text (some key) :: .colon :: tokens value
  | (key, value) :: members =>
      .text (some key) :: .colon :: tokens value ++
        .comma :: memberTokens members

end

end Value

namespace Token

/--
Bytes that are cut into tokens if others follow, for any number of steps that
is large enough.
-/
def Scans (bytes : List UInt8) (tokens : List Token) (rest : List UInt8) :
    Prop :=
  ∀ fuel, (bytes ++ rest).length ≤ fuel →
    ∃ left, rest.length ≤ left ∧
      scan fuel (bytes ++ rest) = tokens ++ scan left rest

namespace Scans

variable {rest : List UInt8}

theorem nil : Scans [] [] rest :=
  fun fuel enough => ⟨fuel, enough, rfl⟩

/-- Two texts that scan to tokens scan to both, in order. -/
theorem append
    {bytes more : List UInt8}
    {tokens others : List Token}
    (first : Scans bytes tokens (more ++ rest))
    (second : Scans more others rest) :
    Scans (bytes ++ more) (tokens ++ others) rest := by
  intro fuel enough
  rw [List.append_assoc] at enough ⊢
  obtain ⟨between, enoughBetween, scansFirst⟩ := first fuel enough
  obtain ⟨left, enoughLeft, scansSecond⟩ := second between enoughBetween
  exact ⟨left, enoughLeft, by
    rw [scansFirst, scansSecond, List.append_assoc]⟩

/-- Bytes that are one token. -/
theorem single
    (byte : UInt8)
    {bytes : List UInt8}
    {token : Token}
    (isSpace : isSpace byte = false)
    (takes : take? byte (bytes ++ rest) = some (token, rest)) :
    Scans (byte :: bytes) [token] rest := by
  intro fuel enough
  cases fuel with
  | zero =>
      cases enough
  | succ fuel =>
      refine ⟨fuel, ?_, ?_⟩
      · simp only [List.length_append, List.length_cons] at enough
        omega
      · simp [scan, isSpace, takes]

/-- A quoted text scans to that text. -/
theorem quoted (text : String) :
    Scans (encode (quoted text)) [.text (some text)] rest := by
  have written : encode (Json.quoted text) =
      0x22 :: (encode (text.toList.flatMap escape) ++ [0x22]) := by
    rw [Json.quoted, List.cons_append, encode, List.flatMap_cons,
      List.flatMap_append]
    rfl
  rw [written]
  refine single _ rfl ?_
  have takes := takeText?_escape text rest (Nat.lt_succ_self _)
  rw [← List.singleton_append, ← List.append_assoc] at takes
  change Option.map _ (takeText? _ _ _) = _
  rw [takes]
  rfl

/-- A whole number in range scans to itself where a number may end. -/
theorem wholeText
    {value : Int}
    (inRange : (Number.whole value).InRange)
    (closes : Closes rest) :
    Scans (encode (Number.wholeText value)) [.number (some (.whole value))]
      rest := by
  obtain ⟨notBelow, notAbove⟩ := inRange
  rw [minWhole] at notBelow
  rw [Number.wholeText]
  split
  · next negative =>
      obtain ⟨digits, spells, takes⟩ :=
        takeNumber?_decimalText true value.natAbs closes
      have reads := spells.value?_negative (by omega) (by omega)
      have isValue : -(value.natAbs : Int) = value := by omega
      rw [isValue] at reads
      have written : encode ('-' :: Text.decimalText value.natAbs) =
          0x2D :: encode (Text.decimalText value.natAbs) := by
        rw [encode, List.flatMap_cons]
        rfl
      rw [written]
      refine single _ rfl ?_
      change Option.map _ (takeNumber? true _) = _
      rw [takes]
      exact congrArg (fun value => some (number value, rest)) reads
  · next positive =>
      obtain ⟨digits, spells, takes⟩ :=
        takeNumber?_decimalText false value.natAbs closes
      have reads := spells.value?_positive (by omega)
      have isValue : (value.natAbs : Int) = value := by omega
      rw [isValue] at reads
      obtain ⟨byte, bytes, written, notSpace, takesDigit⟩ :=
        take?_decimalText value.natAbs
      rw [written] at takes ⊢
      refine single byte notSpace ?_
      rw [takesDigit, ← List.cons_append, takes]
      exact congrArg (fun value => some (number value, rest)) reads

/-- A mark of one byte. -/
theorem mark
    (byte : UInt8)
    {mark : Char}
    {token : Token}
    (written : Text.Utf8.encodeChar mark = [byte])
    (isSpace : isSpace byte = false)
    (takes : ∀ rest, take? byte rest = some (token, rest)) :
    Scans (encode [mark]) [token] rest := by
  rw [encode, List.flatMap_singleton, written]
  exact single byte isSpace (takes rest)

theorem comma : Scans (encode [',']) [.comma] rest :=
  mark 0x2C rfl rfl fun _ => rfl

theorem colon : Scans (encode [':']) [.colon] rest :=
  mark 0x3A rfl rfl fun _ => rfl

end Scans

end Token

namespace Value

open Token (Scans Closes closes_cons)

/-- A mark in front of a text adds its own token. -/
theorem scans_cons
    {mark : Char}
    {text : List Char}
    {token : Token}
    {tokens : List Token}
    {rest : List UInt8}
    (first : Scans (encode [mark]) [token] (encode text ++ rest))
    (others : Scans (encode text) tokens rest) :
    Scans (encode (mark :: text)) (token :: tokens) rest := by
  have scans := first.append others
  rwa [← encode_append] at scans

/-- Two printed texts scan to the tokens of both. -/
theorem scans_append
    {text more : List Char}
    {tokens others : List Token}
    {rest : List UInt8}
    (first : Scans (encode text) tokens (encode more ++ rest))
    (second : Scans (encode more) others rest) :
    Scans (encode (text ++ more)) (tokens ++ others) rest := by
  rw [encode_append]
  exact first.append second

mutual

/-- The text of a value is cut into the tokens of the value. -/
theorem scans_print
    {value : Value}
    (isExact : value.EachNumber Number.IsExact)
    {rest : List UInt8}
    (closes : Closes rest) :
    Scans (encode value.print) value.tokens rest := by
  match value with
  | .null =>
      exact .single 0x6E rfl rfl
  | .boolean true =>
      exact .single 0x74 rfl rfl
  | .boolean false =>
      exact .single 0x66 rfl rfl
  | .number (.whole value) =>
      cases isExact with
      | number inRange =>
          exact .wholeText inRange.2 closes
  | .number (.real value) =>
      cases isExact with
      | number isWhole =>
          exact isWhole.1.elim
  | .text value =>
      exact .quoted value
  | .list items =>
      cases isExact with
      | list exactItems =>
          rw [print, tokens]
          exact scans_append
            (scans_cons (.mark 0x5B rfl rfl fun _ => rfl)
              (scans_printItems exactItems
                (closes_cons (.inr (.inl rfl)) rest)))
            (.mark 0x5D rfl rfl fun _ => rfl)
  | .object members =>
      cases isExact with
      | object exactMembers =>
          rw [print, tokens]
          exact scans_append
            (scans_cons (.mark 0x7B rfl rfl fun _ => rfl)
              (scans_printMembers exactMembers
                (closes_cons (.inr (.inr rfl)) rest)))
            (.mark 0x7D rfl rfl fun _ => rfl)

/-- The items of a list scan to their tokens. -/
theorem scans_printItems
    {items : List Value}
    (areExact : ∀ item ∈ items, item.EachNumber Number.IsExact)
    {rest : List UInt8}
    (closes : Closes rest) :
    Scans (encode (printItems items)) (itemTokens items) rest := by
  match items with
  | [] =>
      exact .nil
  | [item] =>
      exact scans_print (areExact item List.mem_cons_self) closes
  | item :: next :: items =>
      obtain ⟨isExact, others⟩ := List.forall_mem_cons.mp areExact
      rw [printItems, itemTokens]
      exact scans_append
        (scans_print isExact (closes_cons (.inl rfl) _))
        (scans_cons .comma (scans_printItems others closes))
      all_goals nofun

/-- The members of an object scan to their tokens. -/
theorem scans_printMembers
    {members : Members}
    (areExact : ∀ member ∈ members, member.2.EachNumber Number.IsExact)
    {rest : List UInt8}
    (closes : Closes rest) :
    Scans (encode (printMembers members)) (memberTokens members) rest := by
  match members with
  | [] =>
      exact .nil
  | [(key, value)] =>
      rw [printMembers, memberTokens]
      exact scans_append (.quoted key)
        (scans_cons .colon
          (scans_print (areExact _ List.mem_cons_self) closes))
  | (key, value) :: next :: members =>
      obtain ⟨isExact, others⟩ := List.forall_mem_cons.mp areExact
      rw [printMembers, memberTokens]
      exact scans_append
        (scans_append (.quoted key)
          (scans_cons .colon
            (scans_print isExact (closes_cons (.inl rfl) _))))
        (scans_cons .comma (scans_printMembers others closes))
      all_goals nofun

end

/-- A printed value scans to the tokens of the value. -/
theorem ofBytes_print
    {value : Value}
    (isExact : value.EachNumber Number.IsExact) :
    Token.ofBytes (encode value.print) = value.tokens := by
  obtain ⟨left, -, scans⟩ :=
    scans_print isExact Token.closes_nil (encode value.print).length
      (Nat.le_of_eq (congrArg List.length (List.append_nil _)))
  rw [List.append_nil] at scans
  rw [Token.ofBytes, scans]
  cases left <;> exact List.append_nil _

end Value

end EventRelay.Json
