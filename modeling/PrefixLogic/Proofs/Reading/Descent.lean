import PrefixLogic.Expr.Reader

/-!
# Reading by descent

The reader again, as routines that call one another: to read an expression is to read the
expressions inside it (`Descent.expression`). The number of readings of an expression that may be
under way inside one another is a parameter, and where it does not suffice, the reading gives up.
Every routine leaves fewer tokens than it is given (`Descent.Reading`), and for this reason the loop
over the operands of a call ends.

The machine's stack is the recursion of these routines: with a limit, the machine reads what the
routines read with that many readings inside one another (`Reader.read_eq_descent`).
-/

namespace PrefixLogic

namespace Descent

/-- What has been read from the front of the tokens, and the tokens after it. There are fewer of
them, since something has been read. -/
structure Reading (α : Type) (tokens : List Token) where
  value : α
  rest : List Token
  shorter : rest.length < tokens.length

variable {α β : Type} {tokens : List Token}

/-- The first token has been read, and stands for a value. -/
def Reading.first (token : Token) (rest : List Token) (value : α) : Reading α (token :: rest) :=
  ⟨value, rest, Nat.lt_succ_self rest.length⟩

/-- What has been read behind the first token. -/
def Reading.behind (token : Token) (reading : Reading α tokens) : Reading α (token :: tokens) :=
  ⟨reading.value, reading.rest, Nat.lt_succ_of_lt reading.shorter⟩

/-- What has been read after another reading. -/
def Reading.after (front : Reading α tokens) (back : Reading β front.rest) : Reading β tokens :=
  ⟨back.value, back.rest, Nat.lt_trans back.shorter front.shorter⟩

/-- The same reading, with its value put into another one. -/
def Reading.map (f : α → β) (reading : Reading α tokens) : Reading β tokens :=
  ⟨f reading.value, reading.rest, reading.shorter⟩

/-- A routine reads something from the front of any tokens, or it says why it does not. -/
abbrev Routine (α : Type) := (tokens : List Token) → Except ParseError (Reading α tokens)

/-- One routine after another one. -/
def Routine.andThen (first : Routine α) (second : α → Routine β) : Routine β := fun tokens =>
  first tokens >>= fun front => (second front.value front.rest).map front.after

/-- Reads one token, if it stands for something here. -/
def one (expected : Expected) (accept : Token → Option α) : Routine α
  | [] => .error (.ended expected)
  | token :: rest =>
    match accept token with
    | some value => .ok (.first token rest value)
    | none => .error (.found expected token)

/-- Reads the token that closes a form. -/
def closing (word : Keyword) (form : Expr) : Routine Expr :=
  one (.closing word) fun token => if token.kind = .closeParen then some form else none

/-- Reads the name in a definition. -/
def definedName : Routine String :=
  one .definedName fun token => if token.kind = .ident then some token.text else none

/-- Reads the token that opens a list of parameters. -/
def openParams : Routine Unit :=
  one .openParams fun token => if token.kind = .openParen then some () else none

/-- Reads parameters, and the token that closes their list. -/
def params : Routine (List String)
  | [] => .error (.ended .param)
  | token :: rest =>
    match token.kind with
    | .ident => ((params rest).map (·.map (token.text :: ·))).map (·.behind token)
    | .closeParen => .ok (.first token rest [])
    | _ => .error (.found .param token)

/-- Reads operands, and the token that closes their call. An operand leaves fewer tokens to those
after it. -/
def operands (inner : Routine Expr) : Routine (List Expr)
  | [] => .error (.ended .operand)
  | token :: rest =>
    match token.kind with
    | .closeParen => .ok (.first token rest [])
    | _ => inner (token :: rest) >>= fun operand =>
      ((operands inner operand.rest).map (·.map (operand.value :: ·))).map operand.after
  termination_by tokens => tokens.length
  decreasing_by exact operand.shorter

theorem operands_cons {inner : Routine Expr} {token : Token} (h : token.kind ≠ .closeParen)
    (rest : List Token) :
    operands inner (token :: rest) = inner.andThen (fun operand tokens =>
      (operands inner tokens).map (·.map (operand :: ·))) (token :: rest) := by
  obtain ⟨kind, text⟩ := token
  rw [operands]
  cases kind with
  | closeParen => exact absurd rfl h
  | _ => rfl

/-- Reads a call, behind the token that opens it. -/
def call (inner : Routine Expr) : Routine Expr :=
  inner.andThen fun operator tokens => (operands inner tokens).map (·.map (.call operator))

/-- Reads a condition, behind its keyword. -/
def condition (inner : Routine Expr) : Routine Expr :=
  inner.andThen fun test => inner.andThen fun yes => inner.andThen fun no =>
    closing .condition (.cond test yes no)

/-- Reads a definition, behind its keyword. -/
def definition (inner : Routine Expr) : Routine Expr :=
  definedName.andThen fun name => inner.andThen fun body =>
    closing .definition (.define name body)

/-- Reads a lambda, behind its keyword. -/
def lambda (inner : Routine Expr) : Routine Expr :=
  openParams.andThen fun _ => params.andThen fun names => inner.andThen fun body =>
    closing .lambda (.lambda names body)

/-- Reads a form, behind the token that opens it. -/
def form (inner : Routine Expr) : Routine Expr
  | [] => .error (.ended .afterParen)
  | token :: rest =>
    match token.kind with
    | .keyword .condition => (condition inner rest).map (·.behind token)
    | .keyword .definition => (definition inner rest).map (·.behind token)
    | .keyword .lambda => (lambda inner rest).map (·.behind token)
    | _ => call inner (token :: rest)

/-- Reads an expression. No more than this many readings of an expression may be inside one another,
this one among them. -/
def expression : Nat → Routine Expr
  | 0, _ => .error .tooDeep
  | _ + 1, [] => .error (.ended .expression)
  | levels + 1, token :: rest =>
    match token.kind with
    | .openParen => (form (expression levels) rest).map (·.behind token)
    | .bool value => .ok (.first token rest (.bool value))
    | .op op => .ok (.first token rest (.op op))
    | .ident => .ok (.first token rest (.ident token.text))
    | .closeParen | .keyword _ => .error (.found .expression token)

/-! ## Going on behind a reading -/

/-- Goes on with what has been read, on the tokens after it. -/
def resume (outcome : Except ParseError (Reading α tokens))
    (go : α → List Token → Except ParseError β) : Except ParseError β :=
  outcome >>= fun reading => go reading.value reading.rest

/-- Reads one expression from the front of the tokens, with at most this many readings of
expressions inside one another. -/
def read (most : Nat) (tokens : List Token) : Except ParseError (Expr × List Token) :=
  resume (expression most tokens) fun expr rest => .ok (expr, rest)

variable {γ : Type} (go : β → List Token → Except ParseError γ)

theorem resume_ok (reading : Reading β tokens) :
    resume (.ok reading) go = go reading.value reading.rest := rfl

theorem resume_error (error : ParseError) :
    resume (.error error : Except ParseError (Reading β tokens)) go = .error error := rfl

theorem resume_after (front : Reading α tokens)
    (outcome : Except ParseError (Reading β front.rest)) :
    resume (outcome.map front.after) go = resume outcome go := by
  cases outcome <;> rfl

theorem resume_behind (token : Token) (outcome : Except ParseError (Reading β tokens)) :
    resume (outcome.map (·.behind token)) go = resume outcome go := by
  cases outcome <;> rfl

theorem resume_map (f : α → β) (outcome : Except ParseError (Reading α tokens)) :
    resume (outcome.map (·.map f)) go = resume outcome fun value => go (f value) := by
  cases outcome <;> rfl

theorem resume_andThen (first : Routine α) (second : α → Routine β) (tokens : List Token) :
    resume (first.andThen second tokens) go =
      resume (first tokens) fun value rest => resume (second value rest) go := by
  rw [Routine.andThen]
  cases first tokens with
  | error error => rfl
  | ok front => exact resume_after go front (second front.value front.rest)

/-- What goes on behind one routine, and from there behind another one, goes on behind the two. -/
theorem eq_resume_andThen {first : Routine α} {second : α → Routine β} {tokens : List Token}
    {outcome : Except ParseError γ} {go : β → List Token → Except ParseError γ}
    {middle : α → List Token → Except ParseError γ}
    (hfirst : outcome = resume (first tokens) middle)
    (hsecond : ∀ value rest, middle value rest = resume (second value rest) go) :
    outcome = resume (first.andThen second tokens) go := by
  rw [hfirst, resume_andThen]
  congr 1
  funext value rest
  exact hsecond value rest

end Descent

namespace Reader

open Descent (Routine resume resume_ok resume_error resume_behind resume_map resume_andThen
  eq_resume_andThen)

variable {limit : Option Nat} {stack : List Frame} {inner : Routine Expr}

/-! ## The machine follows the routines -/

/-- Inside these waiting forms, the machine reads an expression as the routine does. -/
def Follows (limit : Option Nat) (inner : Routine Expr) (stack : List Frame) : Prop :=
  ∀ tokens, run limit (.reading .expression stack) tokens =
    resume (inner tokens) fun expr rest => run limit (supply expr stack) rest

/-- A phase that expects one token takes or reports it as the routine for one token does. -/
theorem run_one_resume {α : Type} {phase : Phase} {accept : Token → Option α} {after : α → State}
    (hend : atEnd limit phase stack = .ended phase.expected)
    (hstep : ∀ token, step limit phase stack token =
      (accept token).elim (.error (.found phase.expected token)) fun value => .ok (after value))
    (tokens : List Token) :
    run limit (.reading phase stack) tokens =
      resume (Descent.one phase.expected accept tokens) fun value rest =>
        run limit (after value) rest := by
  cases tokens with
  | nil =>
      rw [run, hend]
      rfl
  | cons token rest =>
      rw [run, hstep, Descent.one]
      cases accept token <;> rfl

theorem run_closing_resume (word : Keyword) (form : Expr) (tokens : List Token) :
    run limit (.reading (.closing word form) stack) tokens =
      resume (Descent.closing word form tokens) fun form rest =>
        run limit (supply form stack) rest :=
  run_one_resume rfl (fun ⟨kind, _⟩ => by cases kind <;> rfl) tokens

theorem run_definedName_resume (tokens : List Token) :
    run limit (.reading .definedName stack) tokens =
      resume (Descent.definedName tokens) fun name rest =>
        run limit (.reading .expression (.definition name :: stack)) rest :=
  run_one_resume rfl (fun ⟨kind, _⟩ => by cases kind <;> rfl) tokens

theorem run_openParams_resume (tokens : List Token) :
    run limit (.reading .openParams stack) tokens =
      resume (Descent.openParams tokens) fun _ rest =>
        run limit (.reading (.param []) stack) rest :=
  run_one_resume rfl (fun ⟨kind, _⟩ => by cases kind <;> rfl) tokens

theorem run_param_resume (done : List String) (tokens : List Token) :
    run limit (.reading (.param done) stack) tokens =
      resume (Descent.params tokens) fun names rest =>
        run limit (.reading .expression (.lambda (done.reverse ++ names) :: stack)) rest := by
  induction tokens generalizing done with
  | nil => rfl
  | cons token rest ih =>
      obtain ⟨kind, text⟩ := token
      cases kind with
      | ident =>
          have hrest := ih (text :: done)
          simp only [List.reverse_cons, List.append_assoc, List.singleton_append] at hrest
          rw [Descent.params, resume_behind, resume_map]
          exact hrest
      | closeParen =>
          change run limit (.reading .expression (.lambda done.reverse :: stack)) rest =
            run limit (.reading .expression (.lambda (done.reverse ++ []) :: stack)) rest
          rw [List.append_nil]
      | _ => rfl

/-- In a call, a token that does not close it begins an operand. -/
theorem run_operand_cons (operator : Expr) (done : List Expr) {token : Token}
    (h : token.kind ≠ .closeParen) (rest : List Token) :
    run limit (.reading (.operand operator done) stack) (token :: rest) =
      run limit (.reading .expression (.operand operator done :: stack)) (token :: rest) := by
  obtain ⟨kind, text⟩ := token
  cases kind with
  | closeParen => exact absurd rfl h
  | _ => rfl

/-- The operands of a call are read in a loop, which hands over the call. -/
theorem run_operand_resume (hinner : ∀ frame, Follows limit inner (frame :: stack))
    (operator : Expr) (done : List Expr) (tokens : List Token) :
    run limit (.reading (.operand operator done) stack) tokens =
      resume (Descent.operands inner tokens) fun more rest =>
        run limit (supply (.call operator (done.reverse ++ more)) stack) rest := by
  -- on the loop: an operand that has been read leaves fewer tokens
  induction tokens using Descent.operands.induct generalizing done with
  | case1 =>
      rw [Descent.operands]
      rfl
  | case2 token rest hkind =>
      obtain ⟨kind, text⟩ := token
      cases hkind
      rw [Descent.operands]
      change run limit (supply (.call operator done.reverse) stack) rest =
        run limit (supply (.call operator (done.reverse ++ [])) stack) rest
      rw [List.append_nil]
  | case3 token rest hkind ih =>
      rw [run_operand_cons operator done hkind, hinner, Descent.operands_cons hkind,
        resume_andThen]
      cases inner (token :: rest) with
      | error error => rfl
      | ok operand =>
          have hmore := ih operand (operand.value :: done)
          simp only [List.reverse_cons, List.append_assoc, List.singleton_append] at hmore
          rw [resume_ok, resume_ok, resume_map, supply, hmore]

/-! ## Forms -/

theorem run_call_resume (hinner : ∀ frame, Follows limit inner (frame :: stack))
    (tokens : List Token) :
    run limit (.reading .expression (.operator :: stack)) tokens =
      resume (Descent.call inner tokens) fun expr rest => run limit (supply expr stack) rest := by
  apply eq_resume_andThen (hinner .operator tokens)
  intro operator rest
  rw [resume_map]
  exact run_operand_resume hinner operator [] rest

theorem run_condition_resume (hinner : ∀ frame, Follows limit inner (frame :: stack))
    (tokens : List Token) :
    run limit (.reading .expression (.test :: stack)) tokens =
      resume (Descent.condition inner tokens) fun expr rest =>
        run limit (supply expr stack) rest := by
  apply eq_resume_andThen (hinner .test tokens)
  intro test rest
  apply eq_resume_andThen (hinner (.yes test) rest)
  intro yes rest
  apply eq_resume_andThen (hinner (.no test yes) rest)
  intro no rest
  exact run_closing_resume .condition (.cond test yes no) rest

theorem run_definition_resume (hinner : ∀ frame, Follows limit inner (frame :: stack))
    (tokens : List Token) :
    run limit (.reading .definedName stack) tokens =
      resume (Descent.definition inner tokens) fun expr rest =>
        run limit (supply expr stack) rest := by
  apply eq_resume_andThen (run_definedName_resume tokens)
  intro name rest
  apply eq_resume_andThen (hinner (.definition name) rest)
  intro body rest
  exact run_closing_resume .definition (.define name body) rest

theorem run_lambda_resume (hinner : ∀ frame, Follows limit inner (frame :: stack))
    (tokens : List Token) :
    run limit (.reading .openParams stack) tokens =
      resume (Descent.lambda inner tokens) fun expr rest =>
        run limit (supply expr stack) rest := by
  apply eq_resume_andThen (run_openParams_resume tokens)
  intro _ rest
  apply eq_resume_andThen (run_param_resume [] rest)
  intro names rest
  apply eq_resume_andThen (hinner (.lambda names) rest)
  intro body rest
  exact run_closing_resume .lambda (.lambda names body) rest

theorem run_form_resume (hinner : ∀ frame, Follows limit inner (frame :: stack))
    (tokens : List Token) :
    run limit (.reading .afterParen stack) tokens =
      resume (Descent.form inner tokens) fun expr rest => run limit (supply expr stack) rest := by
  cases tokens with
  | nil => rfl
  | cons token rest =>
      obtain ⟨kind, text⟩ := token
      cases kind with
      | keyword word =>
          cases word with
          | condition =>
              rw [Descent.form, resume_behind]
              exact run_condition_resume hinner rest
          | definition =>
              rw [Descent.form, resume_behind]
              exact run_definition_resume hinner rest
          | lambda =>
              rw [Descent.form, resume_behind]
              exact run_lambda_resume hinner rest
      -- the token is not taken up: the operator of a call begins with it
      | _ => exact run_call_resume hinner (_ :: rest)

/-! ## Expressions -/

/-- Where the stack leaves this many levels up to the limit, the machine reads an expression as the
routine with that many levels does. -/
theorem follows_expression (levels : Nat) (stack : List Frame) :
    Follows (some (stack.length + levels)) (Descent.expression levels) stack := by
  -- a form that waits is one frame more on the stack and one level less, so the limit is the same
  induction levels generalizing stack with
  | zero =>
      intro tokens
      have hfull : ¬fits (some stack.length) stack = true := by
        simp [fits]
      rw [Nat.add_zero, Descent.expression, resume_error]
      cases tokens with
      | nil => simp [run, atEnd, hfull]
      | cons token rest => rw [run, step, begin, if_neg hfull]
  | succ levels ih =>
      have hinner : ∀ frame, Follows (some (stack.length + (levels + 1)))
          (Descent.expression levels) (frame :: stack) := by
        intro frame
        have hframe := ih (frame :: stack)
        rwa [List.length_cons, Nat.add_assoc, Nat.add_comm 1 levels] at hframe
      have hfits : fits (some (stack.length + (levels + 1))) stack = true := by
        simp [fits]
      intro tokens
      cases tokens with
      | nil => simp [run, atEnd, hfits, Phase.expected, Descent.expression, resume_error]
      | cons token rest =>
          obtain ⟨kind, text⟩ := token
          rw [run, step, begin, if_pos hfits]
          cases kind with
          | openParen =>
              rw [Descent.expression, resume_behind]
              exact run_form_resume hinner rest
          -- any other token is an expression by itself, or it is reported
          | _ => rfl

/-- With a limit, the machine reads what the routines read with that many readings of expressions
inside one another. -/
theorem read_eq_descent (most : Nat) (tokens : List Token) :
    read (some most) tokens = Descent.read most tokens := by
  have hfollows := follows_expression most [] tokens
  rw [List.length_nil, Nat.zero_add] at hfollows
  rw [read, hfollows, Descent.read]
  congr 1
  funext expr rest
  rw [supply, run]

end Reader

end PrefixLogic
