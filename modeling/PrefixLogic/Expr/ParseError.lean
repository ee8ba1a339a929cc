import PrefixLogic.Token

/-!
# Why tokens are no expression

A reading stops at the first token that does not fit, or at the end of the tokens, and either way
the report says what was expected there (`Expected`). One more report is about nesting.
-/

namespace PrefixLogic

/-- What must come next at a point inside an expression. -/
inductive Expected where
  | expression
  | afterParen
  | operand
  | closing (word : Keyword)
  | definedName
  | openParams
  | param
  deriving DecidableEq, Repr

/-- The reports on tokens that are no expression. -/
inductive ParseError where
  | noTokens
  | ended (expected : Expected)
  | found (expected : Expected) (token : Token)
  | tooDeep
  deriving DecidableEq, Repr

namespace Expected

/-- What is said when the tokens end where something is expected. -/
def atEnd : Expected → String
  | expression => "unexpected end of input, expected an expression"
  | afterParen => "unexpected end of input after `(`"
  | operand => "unexpected end of input in call, expected `)`"
  | closing word => "unexpected end of input in " ++ word.text ++ " expression, expected `)`"
  | definedName => "unexpected end of input, def expects an identifier"
  | openParams => "unexpected end of input in lambda parameter list, expected `(`"
  | param => "unexpected end of input in lambda parameter list, expected `)`"

/-- What is said about a token that is not the expected one, before the token itself. -/
def otherwise : Expected → String
  | expression | afterParen | operand => "invalid token"
  | closing word => "expected `)` in " ++ word.text ++ " expression, found"
  | definedName => "def expects an identifier, found"
  | openParams => "expected `(` in lambda parameter list, found"
  | param => "lambda parameter must be an identifier, found"

end Expected

/-- The wording of a report. -/
def ParseError.message : ParseError → String
  | noTokens => "no token"
  | ended expected => expected.atEnd
  | found expected token => expected.otherwise ++ " " ++ Text.backquoted token.text
  | tooDeep => "expression nested too deeply"

end PrefixLogic
