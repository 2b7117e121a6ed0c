import EventRelay.Frame.Segment

namespace EventRelay.Reference

/-!
# Decoding a whole body at once

These definitions say what a body means without any state: it is cut at the
leftmost blank lines, and the lines of a segment are compared as bytes, so
that only field values are ever decoded as text.
-/

/-- The blank line that ends a segment. -/
def blankLine : List UInt8 :=
  [10, 10]

/-- Cuts a body at its first blank line. -/
def cut? : List UInt8 → Option (List UInt8 × List UInt8)
  | 10 :: 10 :: rest =>
      some ([], rest)
  | [] =>
      none
  | byte :: rest =>
      (cut? rest).map fun (segment, after) => (byte :: segment, after)

theorem length_lt_of_cut?
    {body segment after : List UInt8}
    (cuts : cut? body = some (segment, after)) :
    after.length < body.length := by
  induction body using cut?.induct generalizing segment after with
  | case1 rest =>
      simp only [cut?, Option.some.injEq, Prod.mk.injEq] at cuts
      obtain ⟨-, rfl⟩ := cuts
      simp only [List.length_cons]
      omega
  | case2 =>
      simp [cut?] at cuts
  | case3 byte rest notDelimiter inductionHypothesis =>
      rw [cut?] at cuts
      · simp only [Option.map_eq_some_iff, Prod.mk.injEq, Prod.exists] at cuts
        obtain ⟨inner, outer, restCuts, -, rfl⟩ := cuts
        have shorter := inductionHypothesis restCuts
        simp only [List.length_cons]
        omega
      · exact notDelimiter

/-- The complete segments of a body. -/
def segments (body : List UInt8) : List (List UInt8) :=
  match _cuts : cut? body with
  | none =>
      []
  | some (segment, after) =>
      segment :: segments after
termination_by body.length
decreasing_by exact length_lt_of_cut? _cuts

/-- What follows the last blank line of a body. -/
def tail (body : List UInt8) : List UInt8 :=
  match _cuts : cut? body with
  | none =>
      body
  | some (_, after) =>
      tail after
termination_by body.length
decreasing_by exact length_lt_of_cut? _cuts

/-- The frames of a body. -/
def frames (body : List UInt8) : List Frame :=
  (segments body).filterMap Frame.ofSegment?

/-- The payloads of a body. -/
def payloads (body : List UInt8) : List String :=
  (frames body).map Frame.data

/-- Whether a byte ends a line. -/
def isLineByte (byte : UInt8) : Bool :=
  byte == 10 || byte == 13

/-- The values of the lines that start with a label, as bytes. -/
def values (label : List Char) (segment : List UInt8) : List (List UInt8) :=
  (Text.splitWhere isLineByte segment).filterMap
    (Segment.fieldValue? (Text.Utf8.encode label) 32)

/-- The text of a field value. -/
def textOf (value : List UInt8) : String :=
  String.ofList (Text.Utf8.decodeLossy value)

/-- Reads a segment line by line, decoding the chosen values only. -/
def frameOfLines? (segment : List UInt8) : Option Frame :=
  ((values Segment.dataLabel segment).find? (!·.isEmpty)).map fun payload =>
    ⟨(values Segment.eventLabel segment).head?.map textOf,
      (values Segment.idLabel segment).head?.map textOf,
      textOf payload⟩

end EventRelay.Reference
