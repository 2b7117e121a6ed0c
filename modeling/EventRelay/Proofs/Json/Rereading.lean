import EventRelay.Json.Tree
import EventRelay.Proofs.Json.Printing

namespace EventRelay.Json

/-!
# Values as trees

The compact text of a value is read as the tree of the value: the reader takes
the tokens of a value for that value, wherever one is due.
-/

open Text.Utf8 (encode)

namespace Tree

mutual

/-- A value as a tree. -/
def ofValue : Value → Tree
  | .null =>
      .null
  | .boolean value =>
      .boolean value
  | .number value =>
      .number (some value)
  | .text value =>
      .text (some value)
  | .list items =>
      .list (ofItems items)
  | .object members =>
      .object (ofMembers members)

/-- Items as trees. -/
def ofItems : List Value → List Tree
  | [] =>
      []
  | item :: items =>
      ofValue item :: ofItems items

/-- Members as trees. -/
def ofMembers : List (String × Value) → Members
  | [] =>
      []
  | (key, value) :: members =>
      (some key, ofValue value) :: ofMembers members

end

theorem ofMembers_eq_map (members : Json.Members) :
    ofMembers members =
      members.map fun member => (some member.1, ofValue member.2) := by
  induction members with
  | nil =>
      rfl
  | cons member members inductionHypothesis =>
      rw [ofMembers, inductionHypothesis, List.map_cons]

end Tree

namespace Reader

/-- The outcome of reading on: a complete document is not read any further. -/
def readOn (reader : Reader) (tokens : List Token) :
    Option (Tree × List Token) :=
  match reader.result? with
  | some complete =>
      some (complete, tokens)
  | none =>
      reader.takeDocument tokens

/-- A reader whose document is not complete reads one token. -/
theorem readOn_cons
    {reader : Reader}
    (isOpen : reader.result? = none)
    (token : Token)
    (tokens : List Token) :
    reader.readOn (token :: tokens) =
      (reader.step token).bind (·.readOn tokens) := by
  rw [readOn, isOpen]
  dsimp only
  rw [takeDocument]
  cases reader.step token with
  | none =>
      rfl
  | some next =>
      cases isResult : next.result? with
      | none =>
          simp [readOn, isResult]
      | some complete =>
          simp [readOn, isResult]

theorem readOn_of_step
    {reader next : Reader}
    {token : Token}
    (isOpen : reader.result? = none)
    (steps : reader.step token = some next)
    (tokens : List Token) :
    reader.readOn (token :: tokens) = next.readOn tokens := by
  rw [readOn_cons isOpen, steps, Option.bind_some]

variable (stack : List Pending)

theorem result?_value : result? ⟨stack, .value⟩ = none := by
  cases stack <;> rfl

theorem result?_key (members : Tree.Members) :
    result? ⟨stack, .key members⟩ = none := by
  cases stack <;> rfl

theorem result?_firstKey : result? ⟨stack, .firstKey⟩ = none := by
  cases stack <;> rfl

theorem result?_colon (members : Tree.Members) (key : Option String) :
    result? ⟨stack, .colon members key⟩ = none := by
  cases stack <;> rfl

/-- No value starts with the end of a list. -/
theorem readOn_firstItem
    (value : Value)
    (items : List Tree)
    (rest : List Token) :
    readOn ⟨.list items :: stack, .firstItem⟩ (value.tokens ++ rest) =
      readOn ⟨.list items :: stack, .value⟩ (value.tokens ++ rest) := by
  cases value <;> rfl

mutual

/-- The tokens of a value are read as its tree, wherever a value is due. -/
theorem readOn_tokens
    (value : Value)
    (stack : List Pending)
    (rest : List Token) :
    readOn ⟨stack, .value⟩ (value.tokens ++ rest) =
      readOn ⟨stack, .separator (.ofValue value)⟩ rest := by
  match value with
  | .null =>
      exact readOn_of_step (result?_value stack) rfl rest
  | .boolean value =>
      exact readOn_of_step (result?_value stack) rfl rest
  | .number value =>
      exact readOn_of_step (result?_value stack) rfl rest
  | .text value =>
      exact readOn_of_step (result?_value stack) rfl rest
  | .list [] =>
      refine (readOn_of_step (result?_value stack) rfl _).trans ?_
      exact readOn_of_step rfl rfl rest
  | .list (item :: items) =>
      rw [Value.tokens, List.cons_append, List.cons_append, List.append_assoc]
      refine (readOn_of_step (result?_value stack) rfl _).trans ?_
      have sameStart : ∃ more,
          Value.itemTokens (item :: items) = item.tokens ++ more := by
        cases items with
        | nil =>
            exact ⟨[], (List.append_nil _).symm⟩
        | cons next items =>
            exact ⟨_, Value.itemTokens.eq_3 item _ nofun⟩
      obtain ⟨more, starts⟩ := sameStart
      rw [starts, List.append_assoc, readOn_firstItem, ← List.append_assoc,
        ← starts]
      exact readOn_itemTokens item items [] stack rest
  | .object [] =>
      refine (readOn_of_step (result?_value stack) rfl _).trans ?_
      exact readOn_of_step (result?_firstKey stack) rfl rest
  | .object (member :: members) =>
      rw [Value.tokens, List.cons_append, List.cons_append, List.append_assoc]
      refine (readOn_of_step (result?_value stack) rfl _).trans ?_
      exact readOn_memberTokens member members [] stack rest
        fun key => readOn_of_step (result?_firstKey stack) rfl
termination_by sizeOf value

/-- Items and the end of their list are read where an item is due. -/
theorem readOn_itemTokens
    (item : Value)
    (items : List Value)
    (earlier : List Tree)
    (stack : List Pending)
    (rest : List Token) :
    readOn ⟨.list earlier :: stack, .value⟩
        (Value.itemTokens (item :: items) ++ .closeList :: rest) =
      readOn
        ⟨stack,
          .separator (.list (earlier.reverse ++ Tree.ofItems (item :: items)))⟩
        rest := by
  match items with
  | [] =>
      refine (readOn_tokens item (.list earlier :: stack) _).trans ?_
      refine (readOn_of_step rfl rfl rest).trans ?_
      rw [List.reverse_cons]
      rfl
  | next :: items =>
      rw [Value.itemTokens, List.append_assoc]
      refine (readOn_tokens item (.list earlier :: stack) _).trans ?_
      refine (readOn_of_step rfl rfl _).trans ?_
      refine (readOn_itemTokens next items _ stack rest).trans ?_
      rw [List.reverse_cons, List.append_assoc]
      rfl
      nofun
termination_by sizeOf item + sizeOf items

/-- Members and the end of their object are read where a key is due. -/
theorem readOn_memberTokens
    (member : String × Value)
    (members : Members)
    (earlier : Tree.Members)
    (stack : List Pending)
    (rest : List Token)
    {expected : Expected}
    (isKey : ∀ key tokens,
      readOn ⟨stack, expected⟩ (.text key :: tokens) =
        readOn ⟨stack, .colon earlier key⟩ tokens) :
    readOn ⟨stack, expected⟩
        (Value.memberTokens (member :: members) ++ .closeObject :: rest) =
      readOn
        ⟨stack,
          .separator
            (.object (earlier.reverse ++ Tree.ofMembers (member :: members)))⟩
        rest := by
  obtain ⟨key, value⟩ := member
  match members with
  | [] =>
      refine (isKey (some key) _).trans ?_
      refine (readOn_of_step (result?_colon stack _ _) rfl _).trans ?_
      refine (readOn_tokens value _ _).trans ?_
      refine (readOn_of_step rfl rfl rest).trans ?_
      rw [List.reverse_cons]
      rfl
  | next :: members =>
      rw [Value.memberTokens, List.append_assoc]
      refine (isKey (some key) _).trans ?_
      refine (readOn_of_step (result?_colon stack _ _) rfl _).trans ?_
      refine (readOn_tokens value _ _).trans ?_
      refine (readOn_of_step rfl rfl _).trans ?_
      refine (readOn_memberTokens next members _ stack rest
        fun key => readOn_of_step (result?_key stack _) rfl).trans ?_
      rw [List.reverse_cons, List.append_assoc]
      rfl
      nofun
termination_by sizeOf member + sizeOf members

end

end Reader

/-- The compact text of a value is read as the tree of the value. -/
theorem Tree.ofBytes?_print
    {value : Value}
    (isExact : value.EachNumber Number.IsExact) :
    ofBytes? (encode value.print) = some (ofValue value) := by
  have takes : take? value.tokens = some (ofValue value, []) := by
    have reads := Reader.readOn_tokens value [] []
    rwa [List.append_nil] at reads
  rw [ofBytes?, Value.ofBytes_print isExact, ofTokens?, takes]

end EventRelay.Json
