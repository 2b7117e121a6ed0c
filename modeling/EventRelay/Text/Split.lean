namespace EventRelay.Text

/-!
# Splitting at separators

Splitting keeps empty pieces: a list with `n` separators has `n + 1` pieces.
-/

/-- Adds an item to the first piece. -/
def consFirst (item : α) : List (List α) → List (List α)
  | [] =>
      [[item]]
  | piece :: pieces =>
      (item :: piece) :: pieces

/-- The pieces between the items that satisfy a test. -/
def splitWhere (separates : α → Bool) (items : List α) : List (List α) :=
  items.foldr
    (fun item pieces =>
      if separates item then
        [] :: pieces
      else
        consFirst item pieces)
    [[]]

/-- The part before the first item that satisfies a test, and what follows it. -/
def splitOnce? (separates : α → Bool) (items : List α) :
    Option (List α × List α) :=
  match items.dropWhile (fun item => !separates item) with
  | [] =>
      none
  | _ :: after =>
      some (items.takeWhile (fun item => !separates item), after)

/-- Removes items that satisfy a test from both ends. -/
def trimWhere (drops : α → Bool) (items : List α) : List α :=
  ((items.dropWhile drops).reverse.dropWhile drops).reverse

/-- Removes items that satisfy a test from the end. -/
def trimEndWhere (drops : α → Bool) (items : List α) : List α :=
  (items.reverse.dropWhile drops).reverse

end EventRelay.Text
