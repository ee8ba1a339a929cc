import PrefixLogic.Expr
import PrefixLogic.Expr.ParseError
import PrefixLogic.Room

/-!
# Reading expressions from tokens

The grammar, over the kinds of tokens:

* a truth value, an operator or an identifier is an expression;
* `(` expression expression* `)` is a call;
* `(` `if` expression expression expression `)` is a condition;
* `(` `def` identifier expression `)` is a definition;
* `(` `lambda` `(` identifier* `)` expression `)` is a lambda.

The reader is a machine that takes one token per step. Its stack holds the forms that wait for an
expression inside them, innermost first; its phase is what it expects next. A complete expression
goes to the innermost waiting form (`supply`). Only identifiers contribute their texts.

The reading of an expression may begin only while the stack is shorter than a limit, if there is
one. So nesting is limited, and length is not.
-/

namespace PrefixLogic.Reader

/-- A form that waits for an expression, with the parts already read. The operands of a call are
kept newest first. -/
inductive Frame where
  | operator
  | operand (operator : Expr) (operands : List Expr)
  | test
  | yes (test : Expr)
  | no (test yes : Expr)
  | definition (name : String)
  | lambda (params : List String)
  deriving DecidableEq

/-- What the machine expects next, with the parts read of the form it is in. Operands and
parameters are kept newest first. -/
inductive Phase where
  | expression
  | afterParen
  | operand (operator : Expr) (operands : List Expr)
  | closing (word : Keyword) (form : Expr)
  | definedName
  | openParams
  | param (params : List String)
  deriving DecidableEq

/-- A machine that is reading, or that has read a whole expression. -/
inductive State where
  | reading (phase : Phase) (stack : List Frame)
  | done (expr : Expr)
  deriving DecidableEq

/-- The expectation of a phase, without what has been read. -/
def Phase.expected : Phase → Expected
  | expression => .expression
  | afterParen => .afterParen
  | operand _ _ => .operand
  | closing word _ => .closing word
  | definedName => .definedName
  | openParams => .openParams
  | param _ => .param

/-- Hands a complete expression to the innermost form that waits for one. -/
def supply (expr : Expr) : List Frame → State
  | [] => .done expr
  | .operator :: stack => .reading (.operand expr []) stack
  | .operand operator operands :: stack => .reading (.operand operator (expr :: operands)) stack
  | .test :: stack => .reading .expression (.yes expr :: stack)
  | .yes test :: stack => .reading .expression (.no test expr :: stack)
  | .no test yes :: stack => .reading (.closing .condition (.cond test yes expr)) stack
  | .definition name :: stack => .reading (.closing .definition (.define name expr)) stack
  | .lambda params :: stack => .reading (.closing .lambda (.lambda params expr)) stack

/-- Whether the reading of one more expression may begin inside the waiting forms. -/
def fits (limit : Option Nat) (stack : List Frame) : Bool :=
  limit.all fun most => stack.length < most

/-- The step on the first token of an expression. -/
def begin (limit : Option Nat) (stack : List Frame) (token : Token) : Except ParseError State :=
  if fits limit stack then
    match token.kind with
    | .openParen => .ok (.reading .afterParen stack)
    | .bool value => .ok (supply (.bool value) stack)
    | .op op => .ok (supply (.op op) stack)
    | .ident => .ok (supply (.ident token.text) stack)
    | .closeParen | .keyword _ => .error (.found .expression token)
  else .error .tooDeep

/-- The step on one token. -/
def step (limit : Option Nat) : Phase → List Frame → Token → Except ParseError State
  | .expression, stack, token => begin limit stack token
  | .afterParen, stack, token =>
    match token.kind with
    | .keyword .condition => .ok (.reading .expression (.test :: stack))
    | .keyword .definition => .ok (.reading .definedName stack)
    | .keyword .lambda => .ok (.reading .openParams stack)
    -- any other token opens the operator of a call
    | _ => begin limit (.operator :: stack) token
  | .operand operator operands, stack, token =>
    match token.kind with
    | .closeParen => .ok (supply (.call operator operands.reverse) stack)
    | _ => begin limit (.operand operator operands :: stack) token
  | .closing word form, stack, token =>
    match token.kind with
    | .closeParen => .ok (supply form stack)
    | _ => .error (.found (.closing word) token)
  | .definedName, stack, token =>
    match token.kind with
    | .ident => .ok (.reading .expression (.definition token.text :: stack))
    | _ => .error (.found .definedName token)
  | .openParams, stack, token =>
    match token.kind with
    | .openParen => .ok (.reading (.param []) stack)
    | _ => .error (.found .openParams token)
  | .param params, stack, token =>
    match token.kind with
    | .ident => .ok (.reading (.param (token.text :: params)) stack)
    | .closeParen => .ok (.reading .expression (.lambda params.reverse :: stack))
    | _ => .error (.found .param token)

/-- The report on tokens that end before the expression does. -/
def atEnd (limit : Option Nat) (phase : Phase) (stack : List Frame) : ParseError :=
  if phase = .expression && !fits limit stack then .tooDeep else .ended phase.expected

/-- Runs the machine until it has read an expression, and gives back the tokens it left. -/
def run (limit : Option Nat) : State → List Token → Except ParseError (Expr × List Token)
  | .done expr, tokens => .ok (expr, tokens)
  | .reading phase stack, [] => .error (atEnd limit phase stack)
  | .reading phase stack, token :: tokens =>
    match step limit phase stack token with
    | .ok state => run limit state tokens
    | .error error => .error error

/-- Reads one expression from the front of the tokens. -/
def read (limit : Option Nat) (tokens : List Token) : Except ParseError (Expr × List Token) :=
  run limit (.reading .expression []) tokens

end PrefixLogic.Reader

namespace PrefixLogic.Expr

/-- How many expressions may be read inside one another, in the room that a run has by default. -/
def nestingLimit : Option Nat := Room.readings (some roomCells)

/-- Reads one expression from position `start` of the tokens on, and counts its tokens. -/
def readAt (tokens : List Token) (start : Nat) (limit : Option Nat := nestingLimit) :
    Except ParseError (Expr × Nat) :=
  match Reader.read limit (tokens.drop start) with
  | .ok (expr, rest) => .ok (expr, (tokens.drop start).length - rest.length)
  | .error error => .error error

/-- The expression at the front of the tokens; what follows it is left alone. -/
def ofTokens (tokens : List Token) (limit : Option Nat := nestingLimit) :
    Except ParseError Expr :=
  match tokens with
  | [] => .error .noTokens
  | _ :: _ => (Reader.read limit tokens).map Prod.fst

end PrefixLogic.Expr
