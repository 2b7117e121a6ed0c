import EventRelay.Json.Tree
import EventRelay.Proofs.Json.Numerals

namespace EventRelay.Json

/-!
# Ranges of numbers

Every whole number that is read from bytes has 64 bits: the tokens have it,
and the reader takes its numbers from tokens only.
-/

namespace Token

/-- Whether a number, if the token is one, has 64 bits unless it is real. -/
def InRange (token : Token) : Prop :=
  ∀ value, token = .number (some value) → value.InRange

private theorem inRange_of_take?
    {byte : UInt8}
    {bytes rest : List UInt8}
    {token : Token} :
    take? byte bytes = some (token, rest) → token.InRange := by
  fun_cases take? byte bytes
  all_goals
    intro takes
  case case7 | case8 | case9 | case10 =>
    obtain ⟨taken, -, same⟩ := Option.map_eq_some_iff.mp takes
    rw [← (Prod.mk.inj same).1]
    exact nofun
  case case11 | case12 =>
    obtain ⟨⟨parts, _⟩, -, same⟩ := Option.map_eq_some_iff.mp takes
    rintro value rfl
    exact NumberText.inRange_of_value? (number.inj (Prod.mk.inj same).1)
  all_goals
    rw [← (Prod.mk.inj (Option.some.inj takes)).1]
    exact nofun

private theorem inRange_of_mem_scan
    {fuel : Nat}
    {bytes : List UInt8}
    {token : Token}
    (isMember : token ∈ scan fuel bytes) :
    token.InRange := by
  induction fuel generalizing bytes with
  | zero =>
      cases isMember
  | succ fuel inductionHypothesis =>
      cases bytes with
      | nil =>
          cases isMember
      | cons byte bytes =>
          rw [scan] at isMember
          split at isMember
          · exact inductionHypothesis isMember
          · split at isMember
            · rw [List.mem_singleton.mp isMember]
              exact nofun
            · next takes =>
                rcases List.mem_cons.mp isMember with rfl | later
                · exact inRange_of_take? takes
                · exact inductionHypothesis later

end Token

/-- What holds of every number in a tree. -/
inductive Tree.EachNumber (holds : Number → Prop) : Tree → Prop where
  | null : EachNumber holds .null
  | boolean (value : Bool) : EachNumber holds (.boolean value)
  | number {value : Option Number} :
      (∀ content ∈ value, holds content) → EachNumber holds (.number value)
  | text (value : Option String) : EachNumber holds (.text value)
  | list {items : List Tree} :
      (∀ item ∈ items, EachNumber holds item) →
        EachNumber holds (.list items)
  | object {members : Tree.Members} :
      (∀ member ∈ members, EachNumber holds member.2) →
        EachNumber holds (.object members)

namespace Reader

/-- What holds of every number in a list or object that is still open. -/
def PendingEach (holds : Number → Prop) : Pending → Prop
  | .list items =>
      ∀ item ∈ items, item.EachNumber holds
  | .object members _ =>
      ∀ member ∈ members, member.2.EachNumber holds

/-- What holds of every number in what is complete already. -/
def ExpectedEach (holds : Number → Prop) : Expected → Prop
  | .key members =>
      ∀ member ∈ members, member.2.EachNumber holds
  | .colon members _ =>
      ∀ member ∈ members, member.2.EachNumber holds
  | .separator complete =>
      complete.EachNumber holds
  | _ =>
      True

/-- What holds of every number that was read. -/
structure EachNumber (holds : Number → Prop) (reader : Reader) : Prop where
  stack : ∀ pending ∈ reader.stack, PendingEach holds pending
  expected : ExpectedEach holds reader.expected

variable {holds : Number → Prop} {reader next : Reader} {token : Token}

private theorem eachNumber_of_beginValue
    {stack : List Pending}
    (each : ∀ pending ∈ stack, PendingEach holds pending)
    (isToken : ∀ value, token = .number (some value) → holds value)
    (begins : beginValue stack token = some next) :
    next.EachNumber holds := by
  cases token with
  | null =>
      obtain rfl := Option.some.inj begins
      exact ⟨each, .null⟩
  | boolean value =>
      obtain rfl := Option.some.inj begins
      exact ⟨each, .boolean value⟩
  | number value =>
      obtain rfl := Option.some.inj begins
      exact ⟨each, .number fun content isContent =>
        isToken content (congrArg Token.number isContent)⟩
  | text value =>
      obtain rfl := Option.some.inj begins
      exact ⟨each, .text value⟩
  | openList =>
      obtain rfl := Option.some.inj begins
      exact ⟨List.forall_mem_cons.mpr ⟨nofun, each⟩, trivial⟩
  | openObject =>
      obtain rfl := Option.some.inj begins
      exact ⟨each, trivial⟩
  | _ =>
      cases begins

private theorem eachNumber_of_afterValue
    {stack : List Pending}
    {complete : Tree}
    (each : ∀ pending ∈ stack, PendingEach holds pending)
    (isComplete : complete.EachNumber holds) :
    afterValue stack complete token = some next → next.EachNumber holds := by
  fun_cases afterValue stack complete token with
  | case1 items outer =>
      rintro ⟨⟩
      obtain ⟨eachItem, eachOuter⟩ := List.forall_mem_cons.mp each
      have eachSoFar := List.forall_mem_cons.mpr ⟨isComplete, eachItem⟩
      exact ⟨List.forall_mem_cons.mpr ⟨eachSoFar, eachOuter⟩, trivial⟩
  | case2 members key outer =>
      rintro ⟨⟩
      obtain ⟨eachMember, eachOuter⟩ := List.forall_mem_cons.mp each
      exact ⟨eachOuter, List.forall_mem_cons.mpr ⟨isComplete, eachMember⟩⟩
  | case4 items outer =>
      rintro ⟨⟩
      obtain ⟨eachItem, eachOuter⟩ := List.forall_mem_cons.mp each
      have eachSoFar := List.forall_mem_cons.mpr ⟨isComplete, eachItem⟩
      exact ⟨eachOuter, .list fun item isMember =>
        eachSoFar item (List.mem_reverse.mp isMember)⟩
  | case6 members key outer =>
      rintro ⟨⟩
      obtain ⟨eachMember, eachOuter⟩ := List.forall_mem_cons.mp each
      have eachSoFar : ∀ member ∈ (key, complete) :: members,
          member.2.EachNumber holds :=
        List.forall_mem_cons.mpr ⟨isComplete, eachMember⟩
      exact ⟨eachOuter, .object fun member isMember =>
        eachSoFar member (List.mem_reverse.mp isMember)⟩
  | case3 | case5 | case7 | case8 =>
      rintro ⟨⟩

/-- One token adds no other number than its own. -/
private theorem EachNumber.step
    (each : reader.EachNumber holds)
    (isToken : ∀ value, token = .number (some value) → holds value) :
    reader.step token = some next → next.EachNumber holds := by
  obtain ⟨stack, expected⟩ := reader
  obtain ⟨eachStack, eachExpected⟩ := each
  cases expected with
  | value =>
      exact eachNumber_of_beginValue eachStack isToken
  | firstItem =>
      simp only [step]
      split
      · rintro ⟨⟩
        exact ⟨(List.forall_mem_cons.mp eachStack).2, .list nofun⟩
      · exact eachNumber_of_beginValue eachStack isToken
  | key members =>
      simp only [step]
      split
      · rintro ⟨⟩
        exact ⟨eachStack, eachExpected⟩
      · rintro ⟨⟩
  | firstKey =>
      simp only [step]
      split
      · rintro ⟨⟩
        exact ⟨eachStack, .object nofun⟩
      · rintro ⟨⟩
        exact ⟨eachStack, nofun⟩
      · rintro ⟨⟩
  | colon members key =>
      simp only [step]
      split
      · rintro ⟨⟩
        exact ⟨List.forall_mem_cons.mpr ⟨eachExpected, eachStack⟩, trivial⟩
      · rintro ⟨⟩
  | separator complete =>
      exact eachNumber_of_afterValue eachStack eachExpected

private theorem EachNumber.result
    (each : reader.EachNumber holds)
    {complete : Tree}
    (isResult : reader.result? = some complete) :
    complete.EachNumber holds := by
  obtain ⟨-, eachExpected⟩ := each
  unfold result? at isResult
  split at isResult
  · next isSeparator =>
      rw [isSeparator] at eachExpected
      exact Option.some.inj isResult ▸ eachExpected
  · cases isResult

/-- A document that is read has no other numbers than its tokens. -/
private theorem EachNumber.takeDocument
    (each : reader.EachNumber holds)
    {tokens rest : List Token}
    {complete : Tree}
    (areTokens : ∀ token ∈ tokens, ∀ value,
      token = .number (some value) → holds value)
    (takes : reader.takeDocument tokens = some (complete, rest)) :
    complete.EachNumber holds := by
  induction tokens generalizing reader with
  | nil =>
      cases takes
  | cons token tokens inductionHypothesis =>
      obtain ⟨isToken, others⟩ := List.forall_mem_cons.mp areTokens
      rw [Reader.takeDocument] at takes
      split at takes
      · cases takes
      · next steps =>
          have eachNext := each.step isToken steps
          split at takes
          · next isResult =>
              obtain ⟨rfl, -⟩ := Prod.mk.inj (Option.some.inj takes)
              exact eachNext.result isResult
          · exact inductionHypothesis eachNext others takes

end Reader

/--
What holds of every number among the tokens of bytes holds of every number in
the document that is read from them.
-/
theorem Tree.eachNumber_of_ofBytes?
    {holds : Number → Prop}
    {bytes : List UInt8}
    {tree : Tree}
    (areTokens : ∀ token ∈ Token.ofBytes bytes, ∀ value,
      token = .number (some value) → holds value)
    (reads : ofBytes? bytes = some tree) :
    tree.EachNumber holds := by
  rw [ofBytes?, ofTokens?] at reads
  split at reads
  · next takes =>
      obtain rfl := Option.some.inj reads
      have start : Reader.start.EachNumber holds :=
        ⟨nofun, trivial⟩
      exact start.takeDocument areTokens takes
  · cases reads

/-- Whole numbers in a document that is read have 64 bits. -/
theorem Tree.inRange_of_ofBytes?
    {bytes : List UInt8}
    {tree : Tree}
    (reads : ofBytes? bytes = some tree) :
    tree.EachNumber Number.InRange :=
  eachNumber_of_ofBytes?
    (fun _ isMember => Token.inRange_of_mem_scan isMember) reads

end EventRelay.Json
