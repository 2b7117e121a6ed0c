import EventRelay.Observe.Log
import EventRelay.Text.Digits
import EventRelay.Text.Split

namespace EventRelay.Observe

/-!
# Log filters

A filter is a list of directives separated by commas.  Each says how much is
shown of the parts of a program whose name starts in a certain way; of several
that apply, the one with the longest name decides.
-/

namespace Level

/-- How far down the list of levels a level stands. -/
def rank : Level → Nat
  | .error =>
      1
  | .warn =>
      2
  | .info =>
      3
  | .debug =>
      4

end Level

/-- How much of a part of a program is shown. -/
structure Directive where
  target : List Char
  /-- The rank of the last level that is shown. -/
  threshold : Nat
  deriving Repr, DecidableEq

namespace Directive

/-- The names of the thresholds in order. -/
def thresholdNames : List (List Char) :=
  ["off".toList, "error".toList, "warn".toList, "info".toList,
    "debug".toList, "trace".toList]

/-- The threshold that shows everything. -/
def greatest : Nat :=
  5

/-- Reads a threshold: a name in any case, or its rank. -/
def threshold? (text : List Char) : Option Nat :=
  match Text.decimal? text with
  | some rank =>
      if rank ≤ greatest then
        some rank
      else
        none
  | none =>
      if text.isEmpty then
        some 1
      else
        thresholdNames.findIdx? (· == text.map Char.toLower)

/-- Whether a character may occur in the name of a target. -/
def isTargetCharacter (character : Char) : Bool :=
  character.isAlphanum || ['_', ':', '-'].contains character

/-- Reads one directive. -/
def ofText? (text : List Char) : Option Directive :=
  match Text.splitOnce? (· == '=') text with
  | none =>
      match threshold? text with
      | some threshold =>
          some ⟨[], threshold⟩
      | none =>
          if text.all isTargetCharacter then
            some ⟨text, greatest⟩
          else
            none
  | some (target, threshold) =>
      if target.isEmpty ∨ !target.all isTargetCharacter then
        none
      else
        (threshold? threshold).map (⟨target, ·⟩)

/-- Whether a directive decides about a target. -/
def covers (directive : Directive) (target : List Char) : Bool :=
  directive.target.isPrefixOf target

end Directive

/-- What is shown of each part of a program. -/
structure Filter where
  directives : List Directive
  deriving Repr, DecidableEq

namespace Filter

/-- The texts of the directives. -/
def parts (text : String) : List (List Char) :=
  (Text.splitWhere (· == ',') text.toList).filter (!·.isEmpty)

/-- Reads a filter in which every directive is right. -/
def ofText? (text : String) : Option Filter :=
  ((parts text).mapM Directive.ofText?).map (⟨·⟩)

/--
Reads a filter, leaving out what is wrong; without any directive, errors are
shown.
-/
def ofTextLossy (text : String) : Filter :=
  match (parts text).filterMap Directive.ofText? with
  | [] =>
      ⟨[⟨[], 1⟩]⟩
  | directives =>
      ⟨directives⟩

/--
The more specific of two directives; of equally specific ones, the later.
-/
def moreSpecific (best : Option Directive) (next : Directive) :
    Option Directive :=
  match best with
  | none =>
      some next
  | some best =>
      if best.target.length ≤ next.target.length then
        some next
      else
        some best

/-- The threshold for a target. -/
def threshold (filter : Filter) (target : String) : Nat :=
  let covering := filter.directives.filter (·.covers target.toList)
  ((covering.foldl moreSpecific none).map (·.threshold)).getD 0

/-- Whether an entry of a target is shown. -/
def shows (filter : Filter) (target : String) (entry : Entry) : Bool :=
  entry.level.rank ≤ filter.threshold target

end Filter

end EventRelay.Observe
