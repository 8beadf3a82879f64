/-!
# Search and replacement in text

Positions are counted in characters from the start of the list that is searched.
-/

namespace TableLineage.Text

/-- The first position at which `pattern` stands in the text. -/
def findPattern? (pattern : List Char) : List Char → Option Nat
  | [] => if pattern.isEmpty then some 0 else none
  | c :: cs =>
    if pattern.isPrefixOf (c :: cs) then some 0 else (findPattern? pattern cs).map (· + 1)

/-- The text with every occurrence of a non-empty `pattern` replaced, found from left to right; the
first `skip` characters belong to an occurrence that is already replaced. -/
def replaceFrom (pattern replacement : List Char) : Nat → List Char → List Char
  | _, [] => []
  | skip + 1, _ :: cs => replaceFrom pattern replacement skip cs
  | 0, c :: cs =>
    if pattern.isPrefixOf (c :: cs) then
      replacement ++ replaceFrom pattern replacement (pattern.length - 1) cs
    else
      c :: replaceFrom pattern replacement 0 cs

/-- The text with every occurrence of a non-empty `pattern` replaced, from left to right. -/
def replaceAll (pattern replacement text : String) : String :=
  String.ofList (replaceFrom pattern.toList replacement.toList 0 text.toList)

/-- The maximal pieces of a list between elements that satisfy `p`, one more than there are such
elements. -/
def splitOnP {α : Type} (p : α → Bool) : List α → List (List α)
  | [] => [[]]
  | a :: as =>
    if p a then
      [] :: splitOnP p as
    else
      match splitOnP p as with
      | [] => [[a]]
      | piece :: pieces => (a :: piece) :: pieces

/-- The pieces of a text between occurrences of a character. -/
def splitAtChar (separator : Char) (text : String) : List String :=
  (splitOnP (· == separator) text.toList).map String.ofList

/-- The lines of a text: each ends at a line feed or at the end of the text, and a carriage return
before its line feed does not belong to it.  A line feed at the end starts no further line. -/
def lines (text : List Char) : List (List Char) :=
  let pieces := splitOnP (· == '\n') text
  let ended := pieces.dropLast.map fun line =>
    if line.getLast? = some '\r' then line.dropLast else line
  match pieces.getLast? with
  | none | some [] => ended
  | some last => ended ++ [last]

end TableLineage.Text
