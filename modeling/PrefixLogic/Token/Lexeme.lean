import PrefixLogic.Text.Blank
import PrefixLogic.Token

/-!
# Cutting a source into tokens

Each parenthesis is a lexeme of its own. Between parentheses, the lexemes are the longest runs of
characters that are not blank. `Token.tokenize` classifies them from left to right and stops at
the first one that is not a token.

The cut runs over the source from its end: what has been cut so far is a word that the next
character may still extend, and the lexemes after it.
-/

namespace PrefixLogic.Token

/-- Whether a character is a parenthesis. -/
def isParen (c : Char) : Bool := c = '(' || c = ')'

/-- A source cut into lexemes: the word at its front, empty if it begins with a blank, a
parenthesis or nothing, and the lexemes after that word. -/
structure Cut where
  word : List Char
  later : List (List Char)
  deriving DecidableEq, Repr

namespace Cut

/-- The cut of the empty source. -/
def empty : Cut := ⟨[], []⟩

/-- All lexemes of a cut. -/
def lexemes (cut : Cut) : List (List Char) :=
  match cut.word with
  | [] => cut.later
  | c :: rest => (c :: rest) :: cut.later

/-- Puts one more character in front of a source. -/
def cons (c : Char) (cut : Cut) : Cut :=
  if Text.isBlank c then ⟨[], cut.lexemes⟩
  else if isParen c then ⟨[], [c] :: cut.lexemes⟩
  else ⟨c :: cut.word, cut.later⟩

/-- The cut of a source. -/
def ofChars (source : List Char) : Cut := source.foldr cons empty

end Cut

/-- The lexemes of a source, from left to right. -/
def lexemes (source : String) : List String :=
  (Cut.ofChars source.toList).lexemes.map String.ofList

/-- The tokens of a source, or the first lexeme that is not a token. -/
def tokenize (source : String) : Except TokenizeError (List Token) :=
  (lexemes source).mapM classify

end PrefixLogic.Token
