import PrefixLogic.Text.Blank

/-!
# Lines of the shell

A line of the shell holds an expression, unless it starts with a colon or is one of the words that
end the shell. Of such a line the leading word is the command and the rest its argument. A leading
question mark stands for the word `help`, and what follows an exclamation mark is no command.
-/

namespace PrefixLogic.Shell

/-- A line taken apart: the command and its argument, if it may have any, and the whole text. An
empty command is that of a line without a leading word. -/
structure Line where
  command : Option String
  argument : Option String
  text : String
  deriving DecidableEq, Repr

namespace Line

/-- Whether a character may stand in a command. -/
def isCommandChar (c : Char) : Bool := c.isAlphanum || c = '_'

/-- A line whose leading word is the command. -/
def ofWords (text : List Char) : Line :=
  ⟨some (String.ofList (text.takeWhile isCommandChar)),
    some (Text.trim (String.ofList (text.dropWhile isCommandChar))), String.ofList text⟩

/-- Takes a line with a command apart. -/
def ofCommand (line : String) : Line :=
  match (Text.trim line).toList with
  | [] => ⟨none, none, ""⟩
  -- the question mark may touch the word after it
  | '?' :: rest => ofWords ("help ".toList ++ rest)
  | '!' :: rest => ⟨none, none, String.ofList ('!' :: rest)⟩
  | text => ofWords text

/-- The word that stands for the end of the input. -/
def endWord : String := "EOF"

/-- The word that leaves the shell. -/
def exitWord : String := "exit"

/-- Takes a line apart. The command of a line that holds an expression is empty. -/
def ofString (line : String) : Line :=
  let text := Text.trim line
  match text.toList with
  | ':' :: rest => ofCommand (String.ofList rest)
  | _ => if text = endWord || text = exitWord then ofCommand text else ⟨some "", some text, text⟩

end Line

end PrefixLogic.Shell
