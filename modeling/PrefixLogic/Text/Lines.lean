import PrefixLogic.Text.CodeRanges

/-!
# Lines of a text

A text is cut into lines at its line ends. The end of the text also ends a last line that is not
empty, so a line end at the very end opens no further line.

Typed input has one line end, the newline. A stored text has ten: carriage returns and the pair
of a carriage return and a newline are read as newlines first (`unifyNewlines`), then the text is
cut at every line end of Unicode (`storedLines`).
-/

namespace PrefixLogic.Text

/-- The line ends of a stored text. -/
def lineEndRanges : CodeRanges :=
  [(0x0A, 0x0D), (0x1C, 0x1E), (0x85, 0x85), (0x2028, 0x2029)]

/-- Whether a character ends a line of a stored text. -/
def isLineEnd (c : Char) : Bool := lineEndRanges.contains c

/-- Puts a character in front of lines: a line end opens an empty line, any other character
joins the first line. -/
def consLine (isEnd : Char → Bool) (c : Char) (lines : List (List Char)) : List (List Char) :=
  if isEnd c then [] :: lines
  else
    match lines with
    | [] => [[c]]
    | line :: rest => (c :: line) :: rest

/-- The lines of a text whose line ends satisfy `isEnd`. -/
def cutLines (isEnd : Char → Bool) (text : List Char) : List (List Char) :=
  text.foldr (consLine isEnd) []

/-- Reads a carriage return, with the newline that may follow it, as a newline. -/
def unifyNewlines : List Char → List Char
  | [] => []
  | '\r' :: '\n' :: rest => '\n' :: unifyNewlines rest
  | c :: rest => (if c = '\r' then '\n' else c) :: unifyNewlines rest

/-- The lines of typed input. -/
def typedLines (input : String) : List String :=
  (cutLines (· = '\n') input.toList).map String.ofList

/-- The lines of a stored text. -/
def storedLines (text : String) : List String :=
  (cutLines isLineEnd (unifyNewlines text.toList)).map String.ofList

end PrefixLogic.Text
