import Mathlib.Data.List.Infix
import PrefixLogic.Proofs.Reading.Descent
import PrefixLogic.Proofs.Reading.Viability

/-!
# What exhausts the reader

Only nesting exhausts the reader, never the number of tokens. There are as many waiting forms as
open parentheses before the form at hand (`Reader.StackCovers.excess_eq`), and each of them adds one
to the excess of opening over closing parentheses in what has been read. So a limit that this excess
never reaches is never met (`Expr.readAt_of_excess_lt`). The parenthesis of a list of parameters
counts as well, but no expression begins behind it.

The invariants are those of `Reader.State.Covers`: what a state covers consists of derivations, in
which the parentheses are balanced, and of the beginnings of forms.
-/

namespace PrefixLogic

/-! ## Open parentheses -/

/-- How many opening parentheses there are in excess of the closing ones. -/
def Token.excess (tokens : List Token) : Int :=
  tokens.countP (·.kind = .openParen) - tokens.countP (·.kind = .closeParen)

/-- What a token adds to the excess. -/
@[simp] def TokenKind.weight : TokenKind → Int
  | .openParen => 1
  | .closeParen => -1
  | .bool _ | .op _ | .keyword _ | .ident => 0

namespace Token

@[simp] theorem excess_nil : excess [] = 0 := rfl

@[simp] theorem excess_cons (token : Token) (tokens : List Token) :
    excess (token :: tokens) = token.kind.weight + excess tokens := by
  obtain ⟨kind, text⟩ := token
  cases kind <;> simp [excess] <;> omega

@[simp] theorem excess_append (tokens tokens' : List Token) :
    excess (tokens ++ tokens') = excess tokens + excess tokens' := by
  simp only [excess, List.countP_append, Int.natCast_add]
  omega

@[simp] theorem excess_idents (names : List String) :
    excess (names.map (Token.mk .ident)) = 0 := by
  induction names with
  | nil => rfl
  | cons name names ih => simp [ih]

end Token

open Token (excess)

mutual

/-- In a derivation, the parentheses are balanced. -/
theorem Derives.excess_eq : {expr : Expr} → {tokens : List Token} → Derives expr tokens →
    excess tokens = 0
  | _, _, .bool value text => rfl
  | _, _, .op op text => rfl
  | _, _, .ident name => rfl
  | _, _, .call left right hop hargs => by
      simp [hop.excess_eq, hargs.excess_eq]
  | _, _, .cond left word right htest hyes hno => by
      simp [htest.excess_eq, hyes.excess_eq, hno.excess_eq]
  | _, _, .define left word name right hbody => by
      simp [hbody.excess_eq]
  | _, _, .lambda left word left' params right' right hbody => by
      -- the parentheses of the parameters cancel out before the body begins
      simp [hbody.excess_eq]

theorem DerivesAll.excess_eq : {exprs : List Expr} → {tokens : List Token} →
    DerivesAll exprs tokens → excess tokens = 0
  | _, _, .nil => rfl
  | _, _, .cons hexpr hexprs => by
      simp [hexpr.excess_eq, hexprs.excess_eq]

end

theorem DerivesAll.length_le {exprs : List Expr} {tokens : List Token}
    (h : DerivesAll exprs tokens) : exprs.length ≤ tokens.length := by
  induction exprs generalizing tokens with
  | nil => exact Nat.zero_le _
  | cons expr exprs ih =>
      cases h with
      | cons hexpr hexprs =>
          obtain ⟨first, rest, rfl, -⟩ := hexpr.exists_first
          have hle := ih hexprs
          simp only [List.length_cons, List.length_append]
          omega

theorem Spans.count_le {tokens : List Token} {start count : Nat} {expr : Expr}
    (h : Spans tokens start expr count) :
    1 ≤ count ∧ count ≤ tokens.length - start := by
  obtain ⟨hle, hd⟩ := h
  obtain ⟨first, rest, hfirst, -⟩ := hd.exists_first
  have hpos := congrArg List.length hfirst
  simp only [List.length_take, List.length_drop, List.length_cons] at hpos
  omega

namespace Reader

/-- The parentheses that are open in the form that a phase is in. -/
def Phase.opened : Phase → Nat
  | expression => 0
  | afterParen | operand _ _ | closing _ _ | definedName | openParams => 1
  | param _ => 2

theorem Frame.Covers.excess_eq {frame : Frame} {tokens : List Token} (h : frame.Covers tokens) :
    excess tokens = 1 := by
  cases h with
  | operator left => rfl
  | operand left hop hargs => simp [hop.excess_eq, hargs.excess_eq]
  | test left word => rfl
  | yes left word htest => simp [htest.excess_eq]
  | no left word htest hyes => simp [htest.excess_eq, hyes.excess_eq]
  | definition left word name => rfl
  | lambda left word left' params right' => simp

theorem Phase.Covers.excess_eq {phase : Phase} {tokens : List Token} (h : phase.Covers tokens) :
    excess tokens = phase.opened := by
  cases h with
  | expression => rfl
  | afterParen left => rfl
  | operand hframe => exact hframe.excess_eq
  | closing word hform =>
      -- with the token that is missing, the form is balanced
      have hbalanced := (hform ")").excess_eq
      simp only [Token.excess_append, Token.excess_cons, Token.excess_nil, TokenKind.weight]
        at hbalanced
      rw [opened]
      omega
  | definedName left word => rfl
  | openParams left word => rfl
  | param left word left' params =>
      simp [opened, -List.map_reverse]

/-- There are as many waiting forms as open parentheses before the form at hand. -/
theorem StackCovers.excess_eq {stack : List Frame} {tokens : List Token}
    (h : StackCovers stack tokens) : excess tokens = stack.length := by
  induction h with
  | nil => rfl
  | cons hframe _ ih =>
      rw [Token.excess_append, ih, hframe.excess_eq, List.length_cons]
      rfl

/-! ## A limit that is not met -/

variable {limit : Option Nat} {phase : Phase} {stack : List Frame} {state : State}
  {used tokens : List Token}

theorem begin_of_fits (h : fits limit stack = true) (token : Token) :
    begin limit stack token = begin none stack token := by
  rw [begin, begin, if_pos h, if_pos (fits_none stack)]

/-- A step begins at most one expression, inside no more forms than there are open parentheses. -/
theorem step_of_fits
    (h : ∀ waiting, waiting.length ≤ stack.length + phase.opened → fits limit waiting = true)
    (token : Token) : step limit phase stack token = step none phase stack token := by
  obtain ⟨kind, text⟩ := token
  -- only these three phases look at the limit, and none of them is the one with two parentheses
  cases phase with
  | expression => exact begin_of_fits (h stack (Nat.le_refl _)) _
  | afterParen =>
      cases kind with
      | keyword word => cases word <;> rfl
      | _ =>
          rw [step, step]
          exact begin_of_fits (h (.operator :: stack) (Nat.le_refl _)) _
  | operand operator operands =>
      cases kind with
      | closeParen => rfl
      | _ =>
          rw [step, step]
          exact begin_of_fits (h (.operand operator operands :: stack) (Nat.le_refl _)) _
  | _ => rfl

/-- Where the excess is below the limit, one more expression may begin. -/
theorem fits_of_excess_lt {most : Nat} {outer inner : List Token} (hs : StackCovers stack outer)
    (hp : phase.Covers inner) (h : excess (outer ++ inner) < most) (waiting : List Frame)
    (hle : waiting.length ≤ stack.length + phase.opened) : fits (some most) waiting = true := by
  rw [Token.excess_append, hs.excess_eq, hp.excess_eq] at h
  simp only [fits, Option.all_some, decide_eq_true_eq]
  omega

/-- A limit above the excess of every front of the tokens does not change a run. -/
theorem run_of_excess_lt {most : Nat} (hc : state.Covers used)
    (h : ∀ front, front <+: tokens → excess (used ++ front) < most) :
    run (some most) state tokens = run none state tokens := by
  -- on the tokens ahead; by what the state covers, its open parentheses are those behind
  induction tokens generalizing state used with
  | nil =>
      cases hc with
      | done hd => rfl
      | @reading phase stack outer inner hs hp =>
          have hlt := h [] List.nil_prefix
          rw [List.append_nil] at hlt
          have hfits := fits_of_excess_lt hs hp hlt
          -- where the tokens end, the limit is looked at as if there were one more
          rw [run, run, atEnd, atEnd, hfits stack (Nat.le_add_right _ _), fits_none]
  | cons token tokens ih =>
      cases hc with
      | done hd => rfl
      | @reading phase stack outer inner hs hp =>
          have hlt := h [] List.nil_prefix
          rw [List.append_nil] at hlt
          have hfits := fits_of_excess_lt hs hp hlt
          rw [run, run, step_of_fits hfits]
          cases hstep : step none phase stack token with
          | error error => rfl
          | ok next =>
              apply ih (covers_step hs hp hstep)
              intro front hfront
              have hnext := h (token :: front) (List.cons_prefix_cons.2 ⟨rfl, hfront⟩)
              rwa [List.append_cons] at hnext

theorem read_of_excess_lt {most : Nat} (h : ∀ front, front <+: tokens → excess front < most) :
    read (some most) tokens = read none tokens :=
  run_of_excess_lt (covers_expression .nil) h

/-- Without a limit, nothing is nested too deeply. -/
theorem read_none_ne_tooDeep (tokens : List Token) : read none tokens ≠ .error .tooDeep := by
  intro h
  obtain ⟨used, -, hfails⟩ := exists_of_run_eq_error h
  rcases hfails with ⟨-, expected, hended⟩ | ⟨token, rest, -, ⟨expected, hfound⟩, -⟩
  · cases hended
  · cases hfound

/-! ## Operands -/

theorem Takes.covers {limit : Option Nat} {state after : State} {before used : List Token}
    (h : Takes limit state used after) (hc : state.Covers before) :
    after.Covers (before ++ used) := by
  induction h generalizing before with
  | nil state => rwa [List.append_nil]
  | cons hstep _ ih =>
      cases hc with
      | reading hs hp =>
          rw [List.append_cons]
          exact ih (covers_step hs hp hstep)

/-- A call that waits for an operand has taken up a token for each one before it, and two more. -/
theorem State.Covers.operands_length_le {operator : Expr} {operands : List Expr}
    (h : State.Covers (.reading (.operand operator operands) stack) used) :
    operands.length + 2 ≤ used.length := by
  cases h with
  | reading hs hp =>
      cases hp with
      | operand hframe =>
          cases hframe with
          | operand left hop hargs =>
              have hle := hargs.length_le
              obtain ⟨first, later, rfl, -⟩ := hop.exists_first
              simp only [List.length_reverse] at hle
              simp only [List.length_append, List.length_cons]
              omega

end Reader

namespace Expr

open Reader (read_eq_descent read_of_excess_lt read_none_ne_tooDeep)

variable {tokens : List Token}

theorem ofTokens_of_read_eq {limit : Option Nat}
    (h : Reader.read limit tokens = Reader.read none tokens) :
    ofTokens tokens limit = ofTokens tokens none := by
  cases tokens with
  | nil => rfl
  | cons token tokens => rw [ofTokens, ofTokens, h]

theorem ofTokens_none_ne_tooDeep (tokens : List Token) :
    ofTokens tokens none ≠ .error .tooDeep := by
  cases tokens with
  | nil => nofun
  | cons token tokens =>
      rw [Ne, ofTokens_eq_error_iff_read (List.cons_ne_nil token tokens)]
      exact read_none_ne_tooDeep (token :: tokens)

/-- Only nesting exhausts the reader, never the number of tokens. A limit is one on the readings of
expressions that are inside one another, as the descent shows them. If it is above the excess of
opening over closing parentheses in every front of the tokens, it changes neither the expression nor
the report; it is the same with a reading from a position on. An expression that is read takes up at
least one token and no more than there are. A call takes one up for each of its operands, whether or
not it is read to its end, so the loop over them ends. -/
theorem readAt_of_excess_lt (tokens : List Token) :
    (∀ most, Reader.read (some most) tokens = Descent.read most tokens) ∧
    (∀ most : Nat, (∀ front, front <+: tokens → excess front < most) →
      ofTokens tokens (some most) = ofTokens tokens none ∧
        ofTokens tokens (some most) ≠ .error .tooDeep) ∧
    (∀ start most : Nat, (∀ front, front <+: tokens.drop start → excess front < most) →
      readAt tokens start (some most) = readAt tokens start none) ∧
    (∀ start limit expr count, readAt tokens start limit = .ok (expr, count) →
      1 ≤ count ∧ count ≤ tokens.length - start) ∧
    ∀ limit place operator operands stack,
      Reader.Takes limit (.reading .expression []) (tokens.take place)
        (.reading (.operand operator operands) stack) →
      operands.length + 2 ≤ min place tokens.length := by
  refine ⟨?_, ?_, ?_, ?_, ?_⟩
  · intro most
    exact read_eq_descent most tokens
  · intro most h
    have heq := ofTokens_of_read_eq (read_of_excess_lt h)
    rw [heq]
    exact ⟨rfl, ofTokens_none_ne_tooDeep tokens⟩
  · intro start most h
    rw [readAt, readAt, read_of_excess_lt h]
  · intro start limit expr count h
    exact (readAt_eq_ok_iff.1 h).1.count_le
  · intro limit place operator operands stack htakes
    have hcovers := htakes.covers (Reader.covers_expression .nil)
    rw [← List.length_take]
    exact hcovers.operands_length_le

/-- A list of parameters needs a higher limit, though no expression is read in it. Here the keyword
at the end is the third operand. -/
theorem readAt_of_excess_lt_params :
    let tokens : List Token := [⟨.openParen, "("⟩, ⟨.openParen, ")"⟩, ⟨.keyword .lambda, "if"⟩,
      ⟨.openParen, "("⟩, ⟨.ident, "a"⟩, ⟨.ident, "b"⟩, ⟨.closeParen, ")"⟩, ⟨.ident, "a"⟩,
      ⟨.closeParen, "("⟩, ⟨.bool true, "T"⟩, ⟨.op .not, "^"⟩, ⟨.keyword .condition, "if"⟩]
    (∀ front, front <+: tokens → excess front < (4 : Nat)) ∧
      ofTokens tokens (some 4) = ofTokens tokens none ∧
      ofTokens tokens none = .error (.found .expression ⟨.keyword .condition, "if"⟩) ∧
      (∀ front, front <+: tokens.drop 1 → excess front < (3 : Nat)) ∧
      readAt tokens 1 (some 3) = readAt tokens 1 none ∧
      readAt tokens 1 none = .ok (.lambda ["a", "b"] (.ident "a"), 8) ∧
      8 ≤ tokens.length - 1 ∧
      Reader.Takes (some 4) (.reading .expression []) (tokens.take 11) (.reading (.operand
        (.lambda ["a", "b"] (.ident "a")) [.op .not, .bool true]) []) ∧
      [Expr.op .not, Expr.bool true].length + 2 ≤ min 11 tokens.length := by
  intro tokens
  obtain ⟨-, hwhole, hfrom, hcount, hoperands⟩ := readAt_of_excess_lt tokens
  have hfronts : ∀ front, front <+: tokens → excess front < (4 : Nat) := by
    intro front hfront
    have hall : ∀ front ∈ tokens.inits, excess front < (4 : Nat) := by decide
    exact hall front ((List.mem_inits front tokens).2 hfront)
  have hfronts' : ∀ front, front <+: tokens.drop 1 → excess front < (3 : Nat) := by
    intro front hfront
    have hall : ∀ front ∈ (tokens.drop 1).inits, excess front < (3 : Nat) := by decide
    exact hall front ((List.mem_inits front (tokens.drop 1)).2 hfront)
  have hread : readAt tokens 1 none = .ok (.lambda ["a", "b"] (.ident "a"), 8) := rfl
  have htakes : Reader.Takes (some 4) (.reading .expression []) (tokens.take 11) (.reading
      (.operand (.lambda ["a", "b"] (.ident "a")) [.op .not, .bool true]) []) := by
    repeat refine .cons rfl ?_
    exact .nil _
  exact ⟨hfronts, (hwhole 4 hfronts).1, rfl, hfronts', hfrom 1 3 hfronts', hread,
    (hcount 1 none _ 8 hread).2, htakes, hoperands _ 11 _ _ _ htakes⟩

/-- A limit that a front of the tokens reaches may be met. -/
example : ofTokens [⟨.openParen, "("⟩, ⟨.bool true, "T"⟩] (some 1) = .error .tooDeep := rfl

end Expr

end PrefixLogic
