import EventRelay.Proofs.Json.Stable

namespace EventRelay.Json

/-!
# Whole numbers

Whatever is read of a text has no other numbers than the text, and neither has
what is written for it, in whatever order and with whatever members left out.
Hence all its numbers are whole if those of the text are.
-/

/-- Whether a token, if it is a number, is a whole number of 64 bits. -/
def Token.isWhole : Token → Bool
  | .number (some (.whole _)) =>
      true
  | .number _ =>
      false
  | _ =>
      true

/-- Every number of a text is written as a whole number of 64 bits. -/
def HasWholeNumbers (bytes : List UInt8) : Prop :=
  ∀ token ∈ Token.ofBytes bytes, token.isWhole = true

instance (bytes : List UInt8) : Decidable (HasWholeNumbers bytes) :=
  inferInstanceAs (Decidable (∀ token ∈ Token.ofBytes bytes, _))

/-- Where all numbers are whole, those of the tree are. -/
theorem Tree.isWhole_of_ofBytes?
    {bytes : List UInt8}
    {tree : Tree}
    (whole : HasWholeNumbers bytes)
    (reads : ofBytes? bytes = some tree) :
    tree.EachNumber Number.IsWhole := by
  refine eachNumber_of_ofBytes? ?_ reads
  rintro _ isToken value rfl
  cases value with
  | whole =>
      trivial
  | real =>
      cases whole _ isToken

variable {holds : Number → Prop}

namespace Tree

/-- Every item that is read comes from one of the list. -/
private theorem exists_of_mem_itemValues?
    {depth : Nat}
    {items : List Tree}
    {values : List Value}
    (reads : itemValues? depth items = some values)
    {value : Value}
    (isMember : value ∈ values) :
    ∃ item ∈ items, item.toValue? depth = some value := by
  induction items generalizing values with
  | nil =>
      obtain rfl := Option.some.inj reads
      cases isMember
  | cons item items inductionHypothesis =>
      simp only [itemValues?, Option.bind_eq_bind, Option.bind_eq_some_iff,
        Option.some.injEq] at reads
      obtain ⟨first, readFirst, rest, readRest, rfl⟩ := reads
      rcases List.mem_cons.mp isMember with rfl | later
      · exact ⟨item, List.mem_cons_self, readFirst⟩
      · obtain ⟨other, isOther, reads⟩ := inductionHypothesis readRest later
        exact ⟨other, List.mem_cons_of_mem item isOther, reads⟩

/-- Every member that is read comes from one of the object. -/
private theorem exists_of_mem_memberValues?
    {depth : Nat}
    {members : Tree.Members}
    {values : List (String × Value)}
    (reads : memberValues? depth members = some values)
    {value : String × Value}
    (isMember : value ∈ values) :
    ∃ member ∈ members, member.2.toValue? depth = some value.2 := by
  induction members generalizing values with
  | nil =>
      obtain rfl := Option.some.inj reads
      cases isMember
  | cons member members inductionHypothesis =>
      simp only [memberValues?, Option.bind_eq_bind, Option.bind_eq_some_iff,
        Option.some.injEq] at reads
      obtain ⟨key, -, first, readFirst, rest, readRest, rfl⟩ := reads
      rcases List.mem_cons.mp isMember with rfl | later
      · exact ⟨member, List.mem_cons_self, readFirst⟩
      · obtain ⟨other, isOther, reads⟩ := inductionHypothesis readRest later
        exact ⟨other, List.mem_cons_of_mem member isOther, reads⟩

/-- The value of a tree has no other numbers than the tree. -/
theorem EachNumber.toValue?
    {tree : Tree}
    (each : tree.EachNumber holds)
    {depth : Nat}
    {value : Value}
    (reads : tree.toValue? depth = some value) :
    value.EachNumber holds := by
  induction each generalizing depth value with
  | null =>
      obtain rfl := Option.some.inj reads
      exact .null
  | boolean content =>
      obtain rfl := Option.some.inj reads
      exact .boolean content
  | number isNumber =>
      obtain ⟨number, isContent, rfl⟩ := Option.map_eq_some_iff.mp reads
      exact .number (isNumber number isContent)
  | text content =>
      obtain ⟨text, -, rfl⟩ := Option.map_eq_some_iff.mp reads
      exact .text text
  | list _ inductionHypothesis =>
      cases depth with
      | zero =>
          cases reads
      | succ depth =>
          obtain ⟨values, readItems, rfl⟩ := Option.map_eq_some_iff.mp reads
          refine .list fun value isValue => ?_
          obtain ⟨item, isItem, readItem⟩ :=
            exists_of_mem_itemValues? readItems isValue
          exact inductionHypothesis item isItem readItem
  | object _ inductionHypothesis =>
      cases depth with
      | zero =>
          cases reads
      | succ depth =>
          obtain ⟨values, readMembers, rfl⟩ := Option.map_eq_some_iff.mp reads
          refine .object fun value isValue => ?_
          obtain ⟨member, isMember, readMember⟩ :=
            exists_of_mem_memberValues? readMembers (Members.mem_ofList isValue)
          exact inductionHypothesis member isMember readMember

end Tree

namespace Value.EachNumber

private theorem exists_mem_of_forall₂
    {related : α → β → Prop}
    {items : List α}
    {others : List β}
    (areRelated : List.Forall₂ related items others)
    {item : α}
    (isItem : item ∈ items) :
    ∃ other ∈ others, related item other := by
  induction areRelated with
  | nil =>
      cases isItem
  | cons isRelated _ inductionHypothesis =>
      rcases List.mem_cons.mp isItem with rfl | later
      · exact ⟨_, List.mem_cons_self, isRelated⟩
      · obtain ⟨other, isOther, among⟩ := inductionHypothesis later
        exact ⟨other, List.mem_cons_of_mem _ isOther, among⟩

/-- Members in another order have no other numbers. -/
theorem of_alike
    {value other : Value}
    (each : other.EachNumber holds)
    (unique : value.UniqueKeys)
    (alike : value.Alike other) :
    value.EachNumber holds := by
  induction each generalizing value with
  | null =>
      cases alike
      exact .null
  | boolean content =>
      cases alike
      exact .boolean content
  | number isNumber =>
      cases alike
      exact .number isNumber
  | text content =>
      cases alike
      exact .text content
  | list each inductionHypothesis =>
      cases alike with
      | same =>
          exact .list each
      | list areAlike =>
          cases unique with
          | list areUnique =>
              refine .list fun item isItem => ?_
              obtain ⟨other, isOther, isAlike⟩ :=
                exists_mem_of_forall₂ areAlike isItem
              exact inductionHypothesis other isOther (areUnique item isItem)
                isAlike
  | object each inductionHypothesis =>
      cases alike with
      | same =>
          exact .object each
      | object areAlike =>
          cases unique with
          | object nodup areUnique =>
              refine .object fun member isMember => ?_
              have isAlike := areAlike member.1
              rw [Members.lookup_of_mem nodup isMember] at isAlike
              generalize found : List.lookup member.1 _ = partner at isAlike
              cases isAlike with
              | some isAlike =>
                  obtain ⟨before, after, rfl, -⟩ :=
                    List.lookup_eq_some_iff.mp found
                  exact inductionHypothesis (member.1, _) (by simp)
                    (areUnique member isMember) isAlike

/-- Every settled member comes from one that was there. -/
private theorem exists_of_mem_settle
    {settled : String → Value → Option Value}
    {members : Members}
    {member : String × Value}
    (isMember : member ∈ members.settle settled) :
    ∃ original ∈ members, settled original.1 original.2 = some member.2 := by
  induction members with
  | nil =>
      cases isMember
  | cons first rest inductionHypothesis =>
      rw [Members.settle] at isMember
      split at isMember
      · obtain ⟨original, isOriginal, kept⟩ := inductionHypothesis isMember
        exact ⟨original, List.mem_cons_of_mem first isOriginal, kept⟩
      · next changes =>
          rcases List.mem_cons.mp isMember with rfl | later
          · exact ⟨first, List.mem_cons_self, changes⟩
          · obtain ⟨original, isOriginal, kept⟩ := inductionHypothesis later
            exact ⟨original, List.mem_cons_of_mem first isOriginal, kept⟩

/-- Members that are left out or changed bring no other numbers. -/
theorem settle
    {settled : String → Value → Option Value}
    (settles : ∀ {key value changed},
      value.EachNumber holds → settled key value = some changed →
        changed.EachNumber holds)
    {value : Value}
    (each : value.EachNumber holds) :
    (value.settle settled).EachNumber holds := by
  cases each with
  | object eachMember =>
      refine .object fun member isMember => ?_
      obtain ⟨original, isOriginal, kept⟩ := exists_of_mem_settle isMember
      exact settles (eachMember original isOriginal) kept
  | null =>
      exact .null
  | boolean content =>
      exact .boolean content
  | number isNumber =>
      exact .number isNumber
  | text content =>
      exact .text content
  | list eachItem =>
      exact .list eachItem

/-- Changing a named member keeps what holds of the numbers. -/
theorem atMember
    {key name : String}
    {change : Value → Value}
    (changes : ∀ {value}, value.EachNumber holds →
      (change value).EachNumber holds)
    {value changed : Value}
    (each : value.EachNumber holds)
    (isChanged : Value.atMember key change name value = some changed) :
    changed.EachNumber holds := by
  obtain rfl := Option.some.inj isChanged
  split
  · exact changes each
  · exact each

/-- Changing the items of a list keeps what holds of the numbers. -/
theorem mapItems
    {change : Value → Value}
    (changes : ∀ {value}, value.EachNumber holds →
      (change value).EachNumber holds)
    {value : Value}
    (each : value.EachNumber holds) :
    (value.mapItems change).EachNumber holds := by
  cases each with
  | list eachItem =>
      refine .list fun item isItem => ?_
      obtain ⟨original, isOriginal, rfl⟩ := List.mem_map.mp isItem
      exact changes (eachItem original isOriginal)
  | null =>
      exact .null
  | boolean content =>
      exact .boolean content
  | number isNumber =>
      exact .number isNumber
  | text content =>
      exact .text content
  | object eachMember =>
      exact .object eachMember

end Value.EachNumber

end EventRelay.Json
