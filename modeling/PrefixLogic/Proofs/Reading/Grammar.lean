import PrefixLogic.Expr.Reader

/-!
# The grammar of expressions

The grammar over the kinds of tokens, as a relation between a tree and the tokens that spell it
(`Derives`). Identifiers contribute their texts; the text of any other token is free.

The height of a tree (`Expr.height`) is the number of expressions that stand inside one another on
its longest branch, the tree itself included. It is what a limit on nesting is compared with.
-/

namespace PrefixLogic

namespace Expr

mutual

/-- The number of expressions inside one another on the longest branch of a tree. -/
def height : Expr → Nat
  | bool _ | op _ | ident _ | hole => 1
  | call operator operands => max operator.height (heightAll operands) + 1
  | cond test yes no => max test.height (max yes.height no.height) + 1
  | define _ body | lambda _ body => body.height + 1

/-- The greatest height in a list of trees. -/
def heightAll : List Expr → Nat
  | [] => 0
  | expr :: rest => max expr.height (heightAll rest)

end

end Expr

mutual

/-- The tokens are a derivation of the tree. -/
inductive Derives : Expr → List Token → Prop
  | bool (value : Bool) (text : String) : Derives (.bool value) [⟨.bool value, text⟩]
  | op (op : Operator) (text : String) : Derives (.op op) [⟨.op op, text⟩]
  | ident (name : String) : Derives (.ident name) [⟨.ident, name⟩]
  | call {operator : Expr} {operands : List Expr} {front rest : List Token}
      (left right : String) :
      Derives operator front → DerivesAll operands rest →
      Derives (.call operator operands)
        (⟨.openParen, left⟩ :: (front ++ rest ++ [⟨.closeParen, right⟩]))
  | cond {test yes no : Expr} {first second third : List Token} (left word right : String) :
      Derives test first → Derives yes second → Derives no third →
      Derives (.cond test yes no)
        (⟨.openParen, left⟩ :: ⟨.keyword .condition, word⟩ ::
          (first ++ second ++ third ++ [⟨.closeParen, right⟩]))
  | define {body : Expr} {tokens : List Token} (left word name right : String) :
      Derives body tokens →
      Derives (.define name body)
        (⟨.openParen, left⟩ :: ⟨.keyword .definition, word⟩ :: ⟨.ident, name⟩ ::
          (tokens ++ [⟨.closeParen, right⟩]))
  | lambda {body : Expr} {tokens : List Token} (left word left' : String)
      (params : List String) (right' right : String) :
      Derives body tokens →
      Derives (.lambda params body)
        (⟨.openParen, left⟩ :: ⟨.keyword .lambda, word⟩ :: ⟨.openParen, left'⟩ ::
          (params.map (Token.mk .ident) ++ ⟨.closeParen, right'⟩ ::
            (tokens ++ [⟨.closeParen, right⟩])))

/-- The tokens are derivations of the trees, one after the other. -/
inductive DerivesAll : List Expr → List Token → Prop
  | nil : DerivesAll [] []
  | cons {expr : Expr} {exprs : List Expr} {tokens rest : List Token} :
      Derives expr tokens → DerivesAll exprs rest → DerivesAll (expr :: exprs) (tokens ++ rest)

end

theorem DerivesAll.concat {exprs : List Expr} {expr : Expr} {tokens last : List Token}
    (hs : DerivesAll exprs tokens) (h : Derives expr last) :
    DerivesAll (exprs ++ [expr]) (tokens ++ last) := by
  induction exprs generalizing tokens with
  | nil =>
      cases hs
      simpa using DerivesAll.cons h .nil
  | cons head exprs ih =>
      cases hs with
      | cons hhead hs =>
          rw [List.append_assoc]
          exact .cons hhead (ih hs)

/-- Whether an expression may begin with a token of this kind. -/
def TokenKind.opensExpr : TokenKind → Bool
  | .openParen | .bool _ | .op _ | .ident => true
  | .closeParen | .keyword _ => false

/-- A derivation has a first token, of a kind that opens an expression. -/
theorem Derives.exists_first {expr : Expr} {tokens : List Token} (h : Derives expr tokens) :
    ∃ first rest, tokens = first :: rest ∧ first.kind.opensExpr = true := by
  cases h <;> exact ⟨_, _, rfl, rfl⟩

/-- The `count` tokens from position `start` on are a derivation of the tree. -/
def Spans (tokens : List Token) (start : Nat) (expr : Expr) (count : Nat) : Prop :=
  start + count ≤ tokens.length ∧ Derives expr ((tokens.drop start).take count)

end PrefixLogic
