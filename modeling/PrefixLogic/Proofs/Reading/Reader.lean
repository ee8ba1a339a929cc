import PrefixLogic.Proofs.Reading.Grammar

/-!
# The reader and the grammar

The reader accepts exactly the grammar (`Expr.readAt_iff_spans`). Every state of the machine stands
for the tokens read so far (`Reader.State.Covers`): the waiting forms on the stack, each with the
parts of it that are complete, and the form that the phase is in. A step adds its token to them
(`Reader.covers_step`), so a finished run has read a derivation. Conversely, reading runs through a
derivation and hands its tree to the innermost waiting form (`Reader.run_of_derives`), whatever
follows; it gives up exactly if the tree is too high for the limit at that depth.
-/

namespace PrefixLogic

namespace Reader

/-! ## What has been read -/

/-- The tokens of a waiting form, up to the expression that it waits for. -/
inductive Frame.Covers : Frame → List Token → Prop
  | operator (left : String) : Covers .operator [⟨.openParen, left⟩]
  | operand {operator : Expr} {operands : List Expr} {front rest : List Token} (left : String) :
      Derives operator front → DerivesAll operands.reverse rest →
      Covers (.operand operator operands) (⟨.openParen, left⟩ :: (front ++ rest))
  | test (left word : String) :
      Covers .test [⟨.openParen, left⟩, ⟨.keyword .condition, word⟩]
  | yes {test : Expr} {first : List Token} (left word : String) : Derives test first →
      Covers (.yes test) (⟨.openParen, left⟩ :: ⟨.keyword .condition, word⟩ :: first)
  | no {test yes : Expr} {first second : List Token} (left word : String) :
      Derives test first → Derives yes second →
      Covers (.no test yes)
        (⟨.openParen, left⟩ :: ⟨.keyword .condition, word⟩ :: (first ++ second))
  | definition (left word name : String) :
      Covers (.definition name)
        [⟨.openParen, left⟩, ⟨.keyword .definition, word⟩, ⟨.ident, name⟩]
  | lambda (left word left' : String) (params : List String) (right' : String) :
      Covers (.lambda params)
        (⟨.openParen, left⟩ :: ⟨.keyword .lambda, word⟩ :: ⟨.openParen, left'⟩ ::
          (params.map (Token.mk .ident) ++ [⟨.closeParen, right'⟩]))

/-- The tokens of the form that a phase is in, as far as they have been read. -/
inductive Phase.Covers : Phase → List Token → Prop
  | expression : Covers .expression []
  | afterParen (left : String) : Covers .afterParen [⟨.openParen, left⟩]
  | operand {operator : Expr} {operands : List Expr} {tokens : List Token} :
      Frame.Covers (.operand operator operands) tokens → Covers (.operand operator operands) tokens
  | closing {form : Expr} {tokens : List Token} (word : Keyword) :
      (∀ right, Derives form (tokens ++ [⟨.closeParen, right⟩])) →
      Covers (.closing word form) tokens
  | definedName (left word : String) :
      Covers .definedName [⟨.openParen, left⟩, ⟨.keyword .definition, word⟩]
  | openParams (left word : String) :
      Covers .openParams [⟨.openParen, left⟩, ⟨.keyword .lambda, word⟩]
  | param (left word left' : String) (params : List String) :
      Covers (.param params)
        (⟨.openParen, left⟩ :: ⟨.keyword .lambda, word⟩ :: ⟨.openParen, left'⟩ ::
          params.reverse.map (Token.mk .ident))

/-- The tokens of all waiting forms, the outermost first. -/
inductive StackCovers : List Frame → List Token → Prop
  | nil : StackCovers [] []
  | cons {frame : Frame} {stack : List Frame} {inner outer : List Token} :
      frame.Covers inner → StackCovers stack outer → StackCovers (frame :: stack) (outer ++ inner)

/-- The tokens that have been read in a state. -/
inductive State.Covers : State → List Token → Prop
  | reading {phase : Phase} {stack : List Frame} {outer inner : List Token} :
      StackCovers stack outer → phase.Covers inner →
      Covers (.reading phase stack) (outer ++ inner)
  | done {expr : Expr} {tokens : List Token} : Derives expr tokens → Covers (.done expr) tokens

variable {limit : Option Nat} {stack : List Frame} {outer inner : List Token}

theorem covers_expression (h : StackCovers stack outer) :
    State.Covers (.reading .expression stack) outer := by
  simpa using State.Covers.reading h .expression

theorem covers_supply {expr : Expr} {tokens : List Token} (hs : StackCovers stack outer)
    (h : Derives expr tokens) : (supply expr stack).Covers (outer ++ tokens) := by
  cases hs with
  | nil => exact .done h
  | cons hframe hs =>
      rw [List.append_assoc]
      cases hframe with
      | operator left =>
          -- the call goes on with its operands, of which there is none so far
          refine .reading hs (.operand ?_)
          have hnone : DerivesAll ([] : List Expr).reverse [] := .nil
          simpa using Frame.Covers.operand left h hnone
      | @operand operator operands front rest left hop hargs =>
          refine .reading hs (.operand ?_)
          have hargs' : DerivesAll (expr :: operands).reverse (rest ++ tokens) := by
            simpa using hargs.concat h
          simpa using Frame.Covers.operand left hop hargs'
      | test left word => exact covers_expression (.cons (.yes left word h) hs)
      | yes left word htest => exact covers_expression (.cons (.no left word htest h) hs)
      | no left word htest hyes =>
          -- only the closing parenthesis is missing
          apply State.Covers.reading hs
          apply Phase.Covers.closing
          intro right
          simpa using Derives.cond left word right htest hyes h
      | definition left word name =>
          apply State.Covers.reading hs
          apply Phase.Covers.closing
          intro right
          simpa using Derives.define left word name right h
      | lambda left word left' params right' =>
          apply State.Covers.reading hs
          apply Phase.Covers.closing
          intro right
          simpa using Derives.lambda left word left' params right' right h

theorem covers_begin {token : Token} {state : State} (hs : StackCovers stack outer)
    (h : begin limit stack token = .ok state) : state.Covers (outer ++ [token]) := by
  obtain ⟨kind, text⟩ := token
  rw [begin] at h
  split at h
  · cases kind with
    | openParen =>
        cases h
        exact .reading hs (.afterParen text)
    | closeParen => cases h
    | bool value =>
        cases h
        exact covers_supply hs (.bool value text)
    | op op =>
        cases h
        exact covers_supply hs (.op op text)
    | keyword word => cases h
    | ident =>
        cases h
        exact covers_supply hs (.ident text)
  · cases h

/-- One step keeps what the state covers, and adds the token. -/
theorem covers_step {phase : Phase} {token : Token} {state : State}
    (hs : StackCovers stack outer) (hp : phase.Covers inner)
    (h : step limit phase stack token = .ok state) :
    state.Covers (outer ++ inner ++ [token]) := by
  obtain ⟨kind, text⟩ := token
  rw [List.append_assoc]
  cases hp with
  | expression => exact covers_begin hs h
  | afterParen left =>
      cases kind with
      | keyword word =>
          cases word with
          | condition =>
              cases h
              exact covers_expression (.cons (.test left text) hs)
          | definition =>
              cases h
              exact .reading hs (.definedName left text)
          | lambda =>
              cases h
              exact .reading hs (.openParams left text)
      | _ =>
          -- the parenthesis begins a call, and the token its operator
          rw [← List.append_assoc]
          exact covers_begin (.cons (.operator left) hs) h
  | @operand operator operands _ hframe =>
      cases kind with
      | closeParen =>
          cases h
          cases hframe with
          | operand left hop hargs =>
              have hcall := Derives.call left text hop hargs
              exact covers_supply hs (by simpa using hcall)
      | _ =>
          -- the call waits for the operand that the token begins
          rw [← List.append_assoc]
          exact covers_begin (.cons hframe hs) h
  | closing word hform =>
      cases kind with
      | closeParen =>
          cases h
          exact covers_supply hs (hform text)
      | _ => cases h
  | definedName left word =>
      cases kind with
      | ident =>
          cases h
          exact covers_expression (.cons (.definition left word text) hs)
      | _ => cases h
  | openParams left word =>
      cases kind with
      | openParen =>
          cases h
          exact .reading hs (.param left word text [])
      | _ => cases h
  | param left word left' params =>
      cases kind with
      | ident =>
          cases h
          refine .reading hs ?_
          simpa using Phase.Covers.param left word left' (text :: params)
      | closeParen =>
          cases h
          refine covers_expression (.cons ?_ hs)
          simpa using Frame.Covers.lambda left word left' params.reverse text
      | _ => cases h

/-- A run that ends with an expression has read a derivation of it. -/
theorem derives_of_run {state : State} {used tokens rest : List Token} {expr : Expr}
    (hc : state.Covers used) (h : run limit state tokens = .ok (expr, rest)) :
    ∃ taken, tokens = taken ++ rest ∧ Derives expr (used ++ taken) := by
  -- on the tokens ahead; those behind are what the state covers
  induction tokens generalizing state used with
  | nil =>
      cases hc with
      | reading hs hp => cases h
      | done hd =>
          cases h
          exact ⟨[], rfl, by simpa using hd⟩
  | cons token tokens ih =>
      cases hc with
      | done hd =>
          cases h
          exact ⟨[], rfl, by simpa using hd⟩
      | @reading phase stack outer inner hs hp =>
          rw [run] at h
          cases hstep : step limit phase stack token with
          | error error => simp [hstep] at h
          | ok next =>
              simp only [hstep] at h
              obtain ⟨taken, rfl, hd⟩ := ih (covers_step hs hp hstep) h
              exact ⟨token :: taken, rfl, by simpa using hd⟩

/-! ## What is read -/

/-- Whether a limit admits expressions of this height. -/
def admits (limit : Option Nat) (height : Nat) : Bool := limit.all (height ≤ ·)

/-- An outcome that stands only if the limit admits this height. -/
def upTo (limit : Option Nat) (height : Nat) (outcome : Except ParseError (Expr × List Token)) :
    Except ParseError (Expr × List Token) :=
  if admits limit height then outcome else .error .tooDeep

theorem fits_eq_admits (limit : Option Nat) (stack : List Frame) :
    fits limit stack = admits limit (stack.length + 1) := rfl

theorem upTo_upTo (limit : Option Nat) (m n : Nat)
    (outcome : Except ParseError (Expr × List Token)) :
    upTo limit m (upTo limit n outcome) = upTo limit (max m n) outcome := by
  cases limit with
  | none => rfl
  | some most =>
      simp only [upTo, admits, Option.all_some, decide_eq_true_eq, Nat.max_le]
      by_cases hm : m ≤ most <;> by_cases hn : n ≤ most <;> simp [hm, hn]

theorem upTo_comm (limit : Option Nat) (m n : Nat)
    (outcome : Except ParseError (Expr × List Token)) :
    upTo limit m (upTo limit n outcome) = upTo limit n (upTo limit m outcome) := by
  rw [upTo_upTo, upTo_upTo, Nat.max_comm]

/-- A token that is an expression by itself is handed over. -/
theorem run_leaf (limit : Option Nat) (stack : List Frame) {token : Token} {expr : Expr}
    (h : begin limit stack token =
      if fits limit stack then .ok (supply expr stack) else .error .tooDeep)
    (rest : List Token) :
    run limit (.reading .expression stack) (token :: rest) =
      upTo limit (stack.length + 1) (run limit (supply expr stack) rest) := by
  rw [upTo, ← fits_eq_admits, run, step, h]
  by_cases hfits : fits limit stack <;> simp [hfits]

theorem run_openParen (limit : Option Nat) (stack : List Frame) (text : String)
    (rest : List Token) :
    run limit (.reading .expression stack) (⟨.openParen, text⟩ :: rest) =
      upTo limit (stack.length + 1) (run limit (.reading .afterParen stack) rest) := by
  rw [upTo, ← fits_eq_admits]
  by_cases h : fits limit stack <;> simp [run, step, begin, h]

theorem run_condition (limit : Option Nat) (stack : List Frame) (word : String)
    (rest : List Token) :
    run limit (.reading .afterParen stack) (⟨.keyword .condition, word⟩ :: rest) =
      run limit (.reading .expression (.test :: stack)) rest := rfl

theorem run_definition (limit : Option Nat) (stack : List Frame) (word name : String)
    (rest : List Token) :
    run limit (.reading .afterParen stack)
        (⟨.keyword .definition, word⟩ :: ⟨.ident, name⟩ :: rest) =
      run limit (.reading .expression (.definition name :: stack)) rest := rfl

theorem run_lambda (limit : Option Nat) (stack : List Frame) (word left : String)
    (rest : List Token) :
    run limit (.reading .afterParen stack)
        (⟨.keyword .lambda, word⟩ :: ⟨.openParen, left⟩ :: rest) =
      run limit (.reading (.param []) stack) rest := rfl

theorem run_closing (limit : Option Nat) (stack : List Frame) (word : Keyword) (form : Expr)
    (right : String) (rest : List Token) :
    run limit (.reading (.closing word form) stack) (⟨.closeParen, right⟩ :: rest) =
      run limit (supply form stack) rest := rfl

/-- In an open form, a token that opens an expression opens its operator. -/
theorem run_afterParen (limit : Option Nat) (stack : List Frame) {expr : Expr}
    {tokens : List Token} (h : Derives expr tokens) (rest : List Token) :
    run limit (.reading .afterParen stack) (tokens ++ rest) =
      run limit (.reading .expression (.operator :: stack)) (tokens ++ rest) := by
  obtain ⟨⟨kind, text⟩, later, rfl, hkind⟩ := h.exists_first
  cases kind with
  | keyword word => cases hkind
  | _ => rfl

/-- In a call, a token that opens an expression opens an operand. -/
theorem run_operand (limit : Option Nat) (stack : List Frame) (operator : Expr)
    (operands : List Expr) {expr : Expr} {tokens : List Token} (h : Derives expr tokens)
    (rest : List Token) :
    run limit (.reading (.operand operator operands) stack) (tokens ++ rest) =
      run limit (.reading .expression (.operand operator operands :: stack)) (tokens ++ rest) := by
  obtain ⟨⟨kind, text⟩, later, rfl, hkind⟩ := h.exists_first
  cases kind with
  | closeParen => cases hkind
  | _ => rfl

theorem run_params (limit : Option Nat) (stack : List Frame) (params done : List String)
    (right : String) (rest : List Token) :
    run limit (.reading (.param done) stack)
        (params.map (Token.mk .ident) ++ ⟨.closeParen, right⟩ :: rest) =
      run limit (.reading .expression (.lambda (done.reverse ++ params) :: stack)) rest := by
  induction params generalizing done with
  | nil => simp [run, step]
  | cons param params ih => simpa [run, step] using ih (param :: done)

mutual

/-- Reading runs through a derivation and hands its expression over, if the limit admits the
expression at this depth. -/
theorem run_of_derives (limit : Option Nat) : {expr : Expr} → {tokens : List Token} →
    Derives expr tokens → ∀ (stack : List Frame) (rest : List Token),
      run limit (.reading .expression stack) (tokens ++ rest) =
        upTo limit (stack.length + expr.height) (run limit (supply expr stack) rest)
  | _, _, .bool value text, stack, rest => run_leaf limit stack rfl rest
  | _, _, .op op text, stack, rest => run_leaf limit stack rfl rest
  | _, _, .ident name, stack, rest => run_leaf limit stack rfl rest
  | _, _, @Derives.call operator operands front later left right hop hargs, stack, rest => by
      have hopen :=
        run_openParen limit stack left (front ++ (later ++ ⟨.closeParen, right⟩ :: rest))
      -- the limit is checked for the call, for its operator and for each operand
      rw [run_afterParen limit stack hop, run_of_derives limit hop, supply, upTo_comm,
        run_of_derivesAll limit hargs, upTo_upTo] at hopen
      have hheight : stack.length + (Expr.call operator operands).height =
          max ((Frame.operator :: stack).length + operator.height)
            (stack.length + 1 + Expr.heightAll operands) := by
        simp only [Expr.height, List.length_cons]
        omega
      rw [hheight]
      simpa using hopen
  | _, _, @Derives.cond test yes no first second third left word right htest hyes hno,
      stack, rest => by
      have hopen := run_openParen limit stack left (⟨.keyword .condition, word⟩ ::
        (first ++ (second ++ (third ++ ⟨.closeParen, right⟩ :: rest))))
      rw [run_condition, run_of_derives limit htest, supply, run_of_derives limit hyes, supply,
        run_of_derives limit hno, supply, run_closing, upTo_upTo, upTo_upTo, upTo_upTo] at hopen
      have hheight : stack.length + (Expr.cond test yes no).height =
          max (max (max (stack.length + 1) ((Frame.test :: stack).length + test.height))
            ((Frame.yes test :: stack).length + yes.height))
            ((Frame.no test yes :: stack).length + no.height) := by
        simp only [Expr.height, List.length_cons]
        omega
      rw [hheight]
      simpa using hopen
  | _, _, @Derives.define body tokens left word name right hbody, stack, rest => by
      have hopen := run_openParen limit stack left (⟨.keyword .definition, word⟩ ::
        ⟨.ident, name⟩ :: (tokens ++ ⟨.closeParen, right⟩ :: rest))
      rw [run_definition, run_of_derives limit hbody, supply, run_closing, upTo_upTo] at hopen
      have hheight : stack.length + (Expr.define name body).height =
          max (stack.length + 1) ((Frame.definition name :: stack).length + body.height) := by
        simp only [Expr.height, List.length_cons]
        omega
      rw [hheight]
      simpa using hopen
  | _, _, @Derives.lambda body tokens left word left' params right' right hbody, stack, rest => by
      have hopen := run_openParen limit stack left (⟨.keyword .lambda, word⟩ ::
        ⟨.openParen, left'⟩ :: (params.map (Token.mk .ident) ++ ⟨.closeParen, right'⟩ ::
          (tokens ++ ⟨.closeParen, right⟩ :: rest)))
      rw [run_lambda, run_params, run_of_derives limit hbody, supply, run_closing,
        upTo_upTo] at hopen
      have hheight : stack.length + (Expr.lambda params body).height =
          max (stack.length + 1) ((Frame.lambda params :: stack).length + body.height) := by
        simp only [Expr.height, List.length_cons]
        omega
      rw [hheight]
      simpa using hopen

/-- Reading runs through the operands of a call, up to the end of the call. The call itself has
been admitted. -/
theorem run_of_derivesAll (limit : Option Nat) : {exprs : List Expr} → {tokens : List Token} →
    DerivesAll exprs tokens →
    ∀ (stack : List Frame) (operator : Expr) (operands : List Expr) (right : String)
      (rest : List Token),
      upTo limit (stack.length + 1) (run limit (.reading (.operand operator operands) stack)
          (tokens ++ ⟨.closeParen, right⟩ :: rest)) =
        upTo limit (stack.length + 1 + Expr.heightAll exprs)
          (run limit (supply (.call operator (operands.reverse ++ exprs)) stack) rest)
  | _, _, .nil, stack, operator, operands, right, rest => by
      simp [run, step, Expr.heightAll]
  | _, _, @DerivesAll.cons expr exprs tokens more hexpr hexprs, stack, operator, operands, right,
      rest => by
      rw [List.append_assoc, run_operand limit stack operator operands hexpr,
        run_of_derives limit hexpr, supply, upTo_comm, run_of_derivesAll limit hexprs, upTo_upTo]
      have hheight : stack.length + 1 + Expr.heightAll (expr :: exprs) =
          max ((Frame.operand operator operands :: stack).length + expr.height)
            (stack.length + 1 + Expr.heightAll exprs) := by
        simp only [Expr.heightAll, List.length_cons]
        omega
      rw [hheight, List.reverse_cons, List.append_assoc]
      rfl

end

/-- Reading gives an expression exactly if the tokens begin with a derivation of it that the limit
admits, and it leaves the tokens after the derivation. -/
theorem read_eq_ok_iff {limit : Option Nat} {tokens rest : List Token} {expr : Expr} :
    read limit tokens = .ok (expr, rest) ↔
      ∃ taken, tokens = taken ++ rest ∧ Derives expr taken ∧ admits limit expr.height = true := by
  have hread : ∀ taken, Derives expr taken →
      read limit (taken ++ rest) = upTo limit expr.height (.ok (expr, rest)) := by
    intro taken hd
    have hrun := run_of_derives limit hd [] rest
    simpa [read, supply, run] using hrun
  constructor
  · intro h
    obtain ⟨taken, rfl, hd⟩ := derives_of_run (covers_expression .nil) h
    rw [List.nil_append] at hd
    refine ⟨taken, rfl, hd, ?_⟩
    rw [hread taken hd, upTo] at h
    split at h
    · assumption
    · cases h
  · rintro ⟨taken, rfl, hd, hlimit⟩
    rw [hread taken hd, upTo, if_pos hlimit]

end Reader

namespace Expr

variable {tokens : List Token} {start count : Nat} {limit : Option Nat} {expr : Expr}

/-- Reading from a position gives the tree and the length of a derivation there. -/
theorem readAt_eq_ok_iff :
    readAt tokens start limit = .ok (expr, count) ↔
      Spans tokens start expr count ∧ Reader.admits limit expr.height = true := by
  constructor
  · intro h
    rw [readAt] at h
    cases hread : Reader.read limit (tokens.drop start) with
    | error error => simp [hread] at h
    | ok result =>
        obtain ⟨expr', rest⟩ := result
        simp only [hread, Except.ok.injEq, Prod.mk.injEq] at h
        obtain ⟨rfl, rfl⟩ := h
        obtain ⟨taken, htokens, hd, hlimit⟩ := Reader.read_eq_ok_iff.1 hread
        -- something has been read, so the position is not behind the end
        obtain ⟨first, later, hfirst, -⟩ := hd.exists_first
        have hlength : tokens.length - start = taken.length + rest.length := by
          rw [← List.length_drop, htokens, List.length_append]
        have hpos : 0 < taken.length := by simp [hfirst]
        have hcount : (tokens.drop start).length - rest.length = taken.length := by
          rw [List.length_drop]
          omega
        refine ⟨⟨by omega, ?_⟩, hlimit⟩
        rw [hcount, htokens, List.take_left]
        exact hd
  · rintro ⟨⟨hle, hd⟩, hlimit⟩
    have hread : Reader.read limit (tokens.drop start) =
        .ok (expr, (tokens.drop start).drop count) :=
      Reader.read_eq_ok_iff.2 ⟨_, (List.take_append_drop count _).symm, hd, hlimit⟩
    have hcount : (tokens.drop start).length - ((tokens.drop start).drop count).length = count := by
      simp only [List.length_drop]
      omega
    simp only [readAt, hread, hcount]

theorem ofTokens_eq_ok_iff :
    ofTokens tokens limit = .ok expr ↔ ∃ count, readAt tokens 0 limit = .ok (expr, count) := by
  cases tokens with
  | nil =>
      have hread : readAt [] 0 limit = .error (Reader.atEnd limit .expression []) := rfl
      simp [ofTokens, hread]
  | cons token tokens =>
      cases hread : Reader.read limit (token :: tokens) with
      | error error => simp [ofTokens, readAt, hread, Except.map]
      | ok result => simp [ofTokens, readAt, hread, Except.map]

end Expr

/-- At most one tree has a derivation at a position, and only one such derivation is there. -/
theorem Spans.unique {tokens : List Token} {start count count' : Nat} {expr expr' : Expr}
    (h : Spans tokens start expr count) (h' : Spans tokens start expr' count') :
    expr = expr' ∧ count = count' := by
  -- a reading without a limit finds both of them
  have hread : Expr.readAt tokens start none = .ok (expr, count) :=
    Expr.readAt_eq_ok_iff.2 ⟨h, rfl⟩
  have hread' : Expr.readAt tokens start none = .ok (expr', count') :=
    Expr.readAt_eq_ok_iff.2 ⟨h', rfl⟩
  rw [hread] at hread'
  simpa using hread'

/-- Only the tokens of a derivation matter to it. -/
theorem Spans.congr {tokens tokens' : List Token} {start start' count : Nat} {expr : Expr}
    (h : Spans tokens start expr count)
    (hslice : (tokens'.drop start').take count = (tokens.drop start).take count) :
    Spans tokens' start' expr count := by
  obtain ⟨hle, hd⟩ := h
  obtain ⟨first, later, hfirst, -⟩ := hd.exists_first
  have hlength := congrArg List.length hslice
  have hpos := congrArg List.length hfirst
  simp only [List.length_take, List.length_drop, List.length_cons] at hlength hpos
  exact ⟨by omega, hslice ▸ hd⟩

namespace Expr

/-- Reading accepts exactly the grammar, up to the limit on nesting: from every position it gives
the one tree, and the one length, of which there is a derivation. The tokens around the derivation
do not matter, neither to a reading from a position nor to the reading of a whole list. -/
theorem readAt_iff_spans (tokens : List Token) (start : Nat) (limit : Option Nat) :
    (∀ expr count, readAt tokens start limit = .ok (expr, count) ↔
      Spans tokens start expr count ∧ Reader.admits limit expr.height = true) ∧
    (∀ expr expr' count count', Spans tokens start expr count →
      Spans tokens start expr' count' → expr = expr' ∧ count = count') ∧
    (∀ before, readAt (before ++ tokens) (before.length + start) limit =
      readAt tokens start limit) ∧
    (∀ expr count tokens' start', readAt tokens start limit = .ok (expr, count) →
      (tokens'.drop start').take count = (tokens.drop start).take count →
      readAt tokens' start' limit = .ok (expr, count)) ∧
    (∀ expr, ofTokens tokens limit = .ok expr ↔
      ∃ count, readAt tokens 0 limit = .ok (expr, count)) ∧
    (∀ expr count trailing, readAt tokens 0 limit = .ok (expr, count) →
      ofTokens (tokens.take count ++ trailing) limit = .ok expr) := by
  refine ⟨?_, ?_, ?_, ?_, ?_, ?_⟩
  · intro expr count
    exact readAt_eq_ok_iff
  · intro expr expr' count count' h h'
    exact h.unique h'
  · intro before
    have hdrop : (before ++ tokens).drop (before.length + start) = tokens.drop start := by simp
    simp only [readAt, hdrop]
  · intro expr count tokens' start' h hslice
    obtain ⟨hspans, hlimit⟩ := readAt_eq_ok_iff.1 h
    exact readAt_eq_ok_iff.2 ⟨hspans.congr hslice, hlimit⟩
  · intro expr
    exact ofTokens_eq_ok_iff
  · intro expr count trailing h
    obtain ⟨hspans, hlimit⟩ := readAt_eq_ok_iff.1 h
    have hle : count ≤ tokens.length := by
      have := hspans.1
      omega
    refine ofTokens_eq_ok_iff.2 ⟨count, readAt_eq_ok_iff.2 ⟨hspans.congr ?_, hlimit⟩⟩
    simp [hle]

/-- A call with a call and a name as operands, its texts chosen to mislead, is read alike between
other tokens. -/
theorem readAt_iff_spans_nested :
    readAt [⟨.ident, "y"⟩, ⟨.openParen, ")"⟩, ⟨.op .and, "if"⟩, ⟨.openParen, "x"⟩,
        ⟨.op .not, "&"⟩, ⟨.bool false, "T"⟩, ⟨.closeParen, ""⟩, ⟨.ident, "z"⟩,
        ⟨.closeParen, "("⟩] 1 (some 3) =
      .ok (.call (.op .and) [.call (.op .not) [.bool false], .ident "z"], 8) ∧
    readAt [⟨.openParen, ")"⟩, ⟨.op .and, "if"⟩, ⟨.openParen, "x"⟩, ⟨.op .not, "&"⟩,
        ⟨.bool false, "T"⟩, ⟨.closeParen, ""⟩, ⟨.ident, "z"⟩, ⟨.closeParen, "("⟩,
        ⟨.closeParen, ")"⟩] 0 (some 3) =
      .ok (.call (.op .and) [.call (.op .not) [.bool false], .ident "z"], 8) := by
  have h : readAt [⟨.ident, "y"⟩, ⟨.openParen, ")"⟩, ⟨.op .and, "if"⟩, ⟨.openParen, "x"⟩,
      ⟨.op .not, "&"⟩, ⟨.bool false, "T"⟩, ⟨.closeParen, ""⟩, ⟨.ident, "z"⟩,
      ⟨.closeParen, "("⟩] 1 (some 3) =
    .ok (.call (.op .and) [.call (.op .not) [.bool false], .ident "z"], 8) := rfl
  exact ⟨h, (readAt_iff_spans _ 1 (some 3)).2.2.2.1 _ _ _ 0 h rfl⟩

end Expr

end PrefixLogic
