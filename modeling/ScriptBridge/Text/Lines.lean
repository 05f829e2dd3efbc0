import ScriptBridge.Text.CharClass

/-! Lines, pieces and margins of texts. A line ends at a line feed, or at the end of the text when
something stands after the last line feed; a carriage return before a line feed belongs to the break. -/

namespace ScriptBridge.Text

/-- The pieces between the occurrences of a separator; there is always one more than separators. -/
def pieces (separator : Char) : List Char → List (List Char)
  | [] => [[]]
  | c :: rest =>
    if c = separator then [] :: pieces separator rest
    else match pieces separator rest with
      | [] => [[c]]
      | piece :: more => (c :: piece) :: more

/-- Splits a text at every occurrence of a separator. -/
def splitAt (separator : Char) (text : String) : List String :=
  (pieces separator text.toList).map String.ofList

/-- Drops one carriage return at the end of a broken line. -/
def dropReturn (line : List Char) : List Char :=
  if line.getLast? = some '\r' then line.dropLast else line

def lines (text : String) : List String :=
  let all := pieces '\n' text.toList
  let broken := all.dropLast.map dropReturn
  let last := all.getLast?.toList.filter (!·.isEmpty)
  (broken ++ last).map String.ofList

/-- Drops white space at both ends. -/
def trim (text : List Char) : List Char :=
  ((text.dropWhile CharClass.isBlank).reverse.dropWhile CharClass.isBlank).reverse

/-- What is left of a text after a given beginning. -/
def dropStart? (start text : List Char) : Option (List Char) :=
  if text.take start.length = start then some (text.drop start.length) else none

end ScriptBridge.Text
