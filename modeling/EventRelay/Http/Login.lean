import EventRelay.Http.Header
import EventRelay.Http.MediaType
import EventRelay.Json.Tree

namespace EventRelay.Http.Login

/-!
# Login bodies

A login is a JSON document with a text named `token`.  It is read from left
to right, so that the first fault decides whether the document is malformed
or has the wrong shape.
-/

open Json (Token)

/-- What a login body says. -/
inductive Body where
  | token (token : String)
  /-- The content is not said to be JSON. -/
  | wrongMediaType
  /-- The body is no JSON document. -/
  | malformed
  /-- The document has another shape. -/
  | mismatched
  deriving Repr, DecidableEq

/-- What a token is where a text should stand. -/
def faultOf : Token → Body
  | .null =>
      .mismatched
  | .boolean _ =>
      .mismatched
  | .number (some _) =>
      .mismatched
  | .text (some _) =>
      .mismatched
  | .openList =>
      .mismatched
  | .openObject =>
      .mismatched
  | _ =>
      .malformed

/-- The document may end here, with a token found or not. -/
def finish (found : Option String) (rest : List Token) : Body :=
  match found, rest with
  | none, _ =>
      .mismatched
  | some token, [] =>
      .token token
  | some _, _ :: _ =>
      .malformed

/-- Reads members from a key on.  Every member uses up tokens. -/
def readMembers : Nat → Option String → List Token → Body
  | 0, _, _ =>
      .malformed
  | fuel + 1, found, tokens =>
      match tokens with
      | .text (some key) :: rest =>
          if key = "token" then
            match found, rest with
            | some _, _ =>
                .mismatched
            | none, .colon :: .text (some token) :: after =>
                continueMembers fuel (some token) after
            | none, .colon :: other :: _ =>
                faultOf other
            | none, _ =>
                .malformed
          else
            match rest with
            | .colon :: value =>
                match Json.Tree.take? value with
                | none =>
                    .malformed
                | some (_, after) =>
                    continueMembers fuel found after
            | _ =>
                .malformed
      | _ =>
          .malformed
where
  /-- Reads what follows a member. -/
  continueMembers (fuel : Nat) (found : Option String) :
      List Token → Body
    | .comma :: rest =>
        readMembers fuel found rest
    | .closeObject :: rest =>
        finish found rest
    | _ =>
        .malformed

/-- Reads a list whose only item is the token. -/
def readList : List Token → Body
  | .closeList :: _ =>
      .mismatched
  | .text (some token) :: .closeList :: rest =>
      finish (some token) rest
  | .text (some _) :: _ =>
      .malformed
  | other :: _ =>
      faultOf other
  | [] =>
      .malformed

/-- Reads a document. -/
def readDocument (tokens : List Token) : Body :=
  match tokens with
  | .openObject :: .closeObject :: rest =>
      finish none rest
  | .openObject :: rest =>
      readMembers rest.length none rest
  | .openList :: rest =>
      readList rest
  | other :: _ =>
      faultOf other
  | [] =>
      .malformed

/-- Whether the headers say that the content is JSON. -/
def isJson (headers : Headers) : Bool :=
  match headers.first? "content-type" with
  | none =>
      false
  | some value =>
      (value.text?.map MediaType.isJson).getD false

/-- Reads a login. -/
def read (headers : Headers) (body : List UInt8) : Body :=
  if isJson headers then
    readDocument (Token.ofBytes body)
  else
    .wrongMediaType

end EventRelay.Http.Login
