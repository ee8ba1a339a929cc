import PrefixLogic.Text.Printable

/-!
# Quoted texts

A text is shown between quotation marks on one line, with every character that is not printable
written as an escape. So a quoted text holds printable characters only, whatever it quotes. Names
and pieces of source stand between backquotes in messages, as they are.
-/

namespace PrefixLogic.Text

/-- The last `width` digits of a number in base sixteen, in lower case. -/
def hexDigits (width n : Nat) : List Char :=
  (List.range width).reverse.map fun place => Nat.digitChar (n / Nat.pow 16 place % 16)

/-- The mark around a text: the apostrophe, unless the text holds apostrophes and no double
quotation mark. -/
def quotationMark (text : List Char) : Char :=
  if text.contains '\'' && !text.contains '"' then '"' else '\''

/-- How one character is written between marks: the mark and the backslash after a backslash, the
three common controls by a letter, any other unprintable character by its code point. -/
def quoteChar (mark c : Char) : List Char :=
  if c = mark || c = '\\' then ['\\', c]
  else if c = '\n' then ['\\', 'n']
  else if c = '\r' then ['\\', 'r']
  else if c = '\t' then ['\\', 't']
  else if isPrintable c then [c]
  else if c.toNat < 0x100 then '\\' :: 'x' :: hexDigits 2 c.toNat
  else if c.toNat < 0x10000 then '\\' :: 'u' :: hexDigits 4 c.toNat
  else '\\' :: 'U' :: hexDigits 8 c.toNat

/-- A text between quotation marks. -/
def quoted (text : String) : String :=
  let mark := quotationMark text.toList
  String.ofList (mark :: text.toList.flatMap (quoteChar mark) ++ [mark])

/-- A text between backquotes, as it is. -/
def backquoted (text : String) : String := "`" ++ text ++ "`"

end PrefixLogic.Text
