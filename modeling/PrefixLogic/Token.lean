import PrefixLogic.Operator
import PrefixLogic.Text.Quoted

/-!
# Tokens

A token is a lexeme together with its kind. Ten lexemes are fixed signs and words; every other
lexeme that is a token is an identifier: a lower-case letter of the basic alphabet, then such
letters and underscores. A token made by hand may carry any text beside its kind.
-/

namespace PrefixLogic

/-- The words that open a form of their own. -/
inductive Keyword where
  | condition
  | definition
  | lambda
  deriving DecidableEq, Repr

/-- How a keyword is written. -/
def Keyword.text : Keyword → String
  | condition => "if"
  | definition => "def"
  | lambda => "lambda"

/-- The kinds of tokens. -/
inductive TokenKind where
  | openParen
  | closeParen
  | bool (value : Bool)
  | op (op : Operator)
  | keyword (word : Keyword)
  | ident
  deriving DecidableEq, Repr

/-- A token: its kind and the lexeme it was read from. -/
structure Token where
  kind : TokenKind
  text : String
  deriving DecidableEq, Repr

/-- A lexeme that is not a token. -/
structure TokenizeError where
  lexeme : String
  deriving DecidableEq, Repr

/-- What is said about a lexeme that is not a token. -/
def TokenizeError.message (error : TokenizeError) : String :=
  "invalid token " ++ Text.backquoted error.lexeme

namespace Token

/-- The tokens with a fixed text. -/
def symbols : List Token :=
  [⟨.openParen, "("⟩, ⟨.closeParen, ")"⟩, ⟨.op .and, Operator.and.sign⟩,
    ⟨.op .or, Operator.or.sign⟩, ⟨.op .not, Operator.not.sign⟩, ⟨.bool true, "T"⟩,
    ⟨.bool false, "F"⟩, ⟨.keyword .condition, Keyword.condition.text⟩,
    ⟨.keyword .definition, Keyword.definition.text⟩, ⟨.keyword .lambda, Keyword.lambda.text⟩]

/-- Whether a character may begin an identifier. -/
def isIdentStart (c : Char) : Bool := 'a' ≤ c && c ≤ 'z'

/-- Whether a character may stand in an identifier. -/
def isIdentChar (c : Char) : Bool := isIdentStart c || c = '_'

/-- Whether a lexeme has the form of an identifier. The words among the symbols have it too. -/
def isIdentText (lexeme : String) : Bool :=
  match lexeme.toList with
  | [] => false
  | c :: rest => isIdentStart c && rest.all isIdentChar

/-- The token that a lexeme is: a symbol, or else an identifier. -/
def classify (lexeme : String) : Except TokenizeError Token :=
  match symbols.find? fun token => token.text = lexeme with
  | some token => .ok token
  | none => if isIdentText lexeme then .ok ⟨.ident, lexeme⟩ else .error ⟨lexeme⟩

end Token

end PrefixLogic
