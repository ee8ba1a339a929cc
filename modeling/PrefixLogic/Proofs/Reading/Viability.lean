import Mathlib.Order.Bounds.Basic
import PrefixLogic.Proofs.Reading.Reader

/-!
# Where reading fails

Tokens are viable (`Expr.Viable`) if an expression is read from them or from some tokens that
continue them. The reader takes tokens as long as they are viable: there are tokens that complete
the form that a phase is in, and tokens that complete each waiting form, so every state can be led
to an expression (`Reader.exists_run_ok`). A step that fails, fails whatever follows.

So the two kinds of report are exact (`Expr.ofTokens_eq_error_iff`): that the tokens end too soon is
said of viable tokens, and any other report is about the first token that makes them not viable.
-/

namespace PrefixLogic

/-! ## The wording of reports -/

namespace ParseError

/-- A report that begins by saying that the tokens end too soon. -/
def ReportsEnd (error : ParseError) : Prop :=
  "unexpected end of input".toList <+: error.message.toList

/-- A report that ends by giving the text of a token, as invalid or as found. -/
def ReportsToken (error : ParseError) (token : Token) : Prop :=
  ∃ lead ∈ ["invalid token ", "found "],
    (lead ++ Text.backquoted token.text).toList <:+ error.message.toList

theorem exists_atEnd_eq (expected : Expected) :
    ∃ rest, expected.atEnd = "unexpected end of input" ++ rest := by
  cases expected with
  | expression => exact ⟨", expected an expression", rfl⟩
  | afterParen => exact ⟨" after `(`", rfl⟩
  | operand => exact ⟨" in call, expected `)`", rfl⟩
  | closing word =>
      refine ⟨" in " ++ word.text ++ " expression, expected `)`", ?_⟩
      rw [← String.append_assoc, ← String.append_assoc]
      rfl
  | definedName => exact ⟨", def expects an identifier", rfl⟩
  | openParams => exact ⟨" in lambda parameter list, expected `(`", rfl⟩
  | param => exact ⟨" in lambda parameter list, expected `)`", rfl⟩

theorem reportsEnd_ended (expected : Expected) : (ended expected).ReportsEnd := by
  obtain ⟨rest, hrest⟩ := exists_atEnd_eq expected
  rw [ReportsEnd, message, hrest, String.toList_append]
  exact List.prefix_append _ _

theorem exists_otherwise_eq (expected : Expected) :
    ∃ first rest, expected.otherwise.toList = first :: rest ∧ first ≠ 'u' := by
  cases expected with
  | closing word =>
      refine ⟨'e', ("xpected `)` in " ++ word.text ++ " expression, found").toList, ?_, by decide⟩
      change ("expected `)` in " ++ word.text ++ " expression, found").toList = _
      simp
  | definedName => exact ⟨'d', _, rfl, by decide⟩
  | openParams => exact ⟨'e', _, rfl, by decide⟩
  | param => exact ⟨'l', _, rfl, by decide⟩
  | _ => exact ⟨'i', _, rfl, by decide⟩

/-- No other report begins in this way: the first letters differ. -/
theorem not_reportsEnd_found (expected : Expected) (token : Token) :
    ¬(found expected token).ReportsEnd := by
  obtain ⟨first, rest, hfirst, hne⟩ := exists_otherwise_eq expected
  rintro ⟨after, hafter⟩
  rw [message, String.toList_append, String.toList_append, hfirst] at hafter
  exact hne (List.cons.inj hafter).1.symm

theorem exists_lead_otherwise (expected : Expected) :
    ∃ front, ∃ lead ∈ ["invalid token ", "found "], expected.otherwise ++ " " = front ++ lead := by
  cases expected with
  | expression => exact ⟨"", "invalid token ", by simp, rfl⟩
  | afterParen => exact ⟨"", "invalid token ", by simp, rfl⟩
  | operand => exact ⟨"", "invalid token ", by simp, rfl⟩
  | closing word =>
      refine ⟨"expected `)` in " ++ word.text ++ " expression, ", "found ", by simp, ?_⟩
      change "expected `)` in " ++ word.text ++ " expression, found" ++ " " = _
      simp only [String.append_assoc]
      rfl
  | definedName => exact ⟨"def expects an identifier, ", "found ", by simp, rfl⟩
  | openParams => exact ⟨"expected `(` in lambda parameter list, ", "found ", by simp, rfl⟩
  | param => exact ⟨"lambda parameter must be an identifier, ", "found ", by simp, rfl⟩

theorem reportsToken_found (expected : Expected) (token : Token) :
    (found expected token).ReportsToken token := by
  obtain ⟨front, lead, hlead, hotherwise⟩ := exists_lead_otherwise expected
  refine ⟨lead, hlead, front.toList, ?_⟩
  rw [message, hotherwise]
  simp

end ParseError

/-! ## Completing a reading -/

namespace Reader

/-- A token that is an expression by itself. -/
def leaf : Token := ⟨.bool true, "T"⟩

/-- The token that closes a form. -/
def closeParen : Token := ⟨.closeParen, ")"⟩

/-- Tokens that complete a waiting form after the expression that it waits for. -/
def Frame.completion : Frame → List Token
  | operator | operand _ _ | no _ _ | definition _ | lambda _ => [closeParen]
  | test => [leaf, leaf, closeParen]
  | yes _ => [leaf, closeParen]

/-- Tokens that complete the form that a phase is in. -/
def Phase.completion : Phase → List Token
  | expression => [leaf]
  | afterParen => [leaf, closeParen]
  | operand _ _ | closing _ _ => [closeParen]
  | definedName => [⟨.ident, "x"⟩, leaf, closeParen]
  | openParams => [⟨.openParen, "("⟩, closeParen, leaf, closeParen]
  | param _ => [closeParen, leaf, closeParen]

/-- A completed form is an expression, and goes to the form that waits for it. -/
theorem exists_run_frame (expr : Expr) (frame : Frame) (stack : List Frame) (rest : List Token) :
    ∃ form, run none (supply expr (frame :: stack)) (frame.completion ++ rest) =
      run none (supply form stack) rest := by
  cases frame <;> exact ⟨_, rfl⟩

theorem exists_run_phase (phase : Phase) (stack : List Frame) (rest : List Token) :
    ∃ form, run none (.reading phase stack) (phase.completion ++ rest) =
      run none (supply form stack) rest := by
  cases phase <;> exact ⟨_, rfl⟩

/-- Completing the waiting forms, the innermost first, leads to an expression. -/
theorem exists_run_stack (expr : Expr) (stack : List Frame) :
    ∃ result, run none (supply expr stack) (stack.flatMap Frame.completion) = .ok result := by
  induction stack generalizing expr with
  | nil => exact ⟨(expr, []), rfl⟩
  | cons frame stack ih =>
      obtain ⟨form, hframe⟩ := exists_run_frame expr frame stack (stack.flatMap Frame.completion)
      rw [List.flatMap_cons, hframe]
      exact ih form

/-- Every state can be led to an expression. -/
theorem exists_run_ok (phase : Phase) (stack : List Frame) :
    ∃ more result, run none (.reading phase stack) more = .ok result := by
  obtain ⟨form, hphase⟩ := exists_run_phase phase stack (stack.flatMap Frame.completion)
  obtain ⟨result, hstack⟩ := exists_run_stack form stack
  exact ⟨_, result, hphase.trans hstack⟩

/-! ## Where a run fails -/

/-- The machine takes all of these tokens and is then in the second state. -/
inductive Takes (limit : Option Nat) : State → List Token → State → Prop
  | nil (state : State) : Takes limit state [] state
  | cons {phase : Phase} {stack : List Frame} {token : Token} {tokens : List Token}
      {next after : State} : step limit phase stack token = .ok next →
      Takes limit next tokens after → Takes limit (.reading phase stack) (token :: tokens) after

variable {limit : Option Nat} {phase : Phase} {stack : List Frame} {state after : State}
  {token : Token} {tokens used : List Token} {error : ParseError}

theorem Takes.run_append (h : Takes limit state used after) (rest : List Token) :
    run limit state (used ++ rest) = run limit after rest := by
  induction h with
  | nil state => rfl
  | cons hstep _ ih =>
      rw [List.cons_append, run, hstep]
      exact ih

/-- A run that fails has taken some tokens, and either there are no more or the next step fails. -/
theorem exists_takes_of_run_eq_error (h : run limit state tokens = .error error) :
    ∃ used phase stack, Takes limit state used (.reading phase stack) ∧
      (tokens = used ∧ error = atEnd limit phase stack ∨
        ∃ token rest, tokens = used ++ token :: rest ∧
          step limit phase stack token = .error error) := by
  induction tokens generalizing state with
  | nil =>
      cases state with
      | done expr => cases h
      | reading phase stack =>
          cases h
          exact ⟨[], phase, stack, .nil _, .inl ⟨rfl, rfl⟩⟩
  | cons token tokens ih =>
      cases state with
      | done expr => cases h
      | reading phase stack =>
          rw [run] at h
          cases hstep : step limit phase stack token with
          | error reason =>
              rw [hstep] at h
              cases h
              exact ⟨[], phase, stack, .nil _, .inr ⟨token, tokens, rfl, hstep⟩⟩
          | ok next =>
              rw [hstep] at h
              obtain ⟨used, phase', stack', htakes, hfails⟩ := ih h
              refine ⟨token :: used, phase', stack', .cons hstep htakes, ?_⟩
              rcases hfails with ⟨rfl, herror⟩ | ⟨token', rest, rfl, hstep'⟩
              · exact .inl ⟨rfl, herror⟩
              · exact .inr ⟨token', rest, rfl, hstep'⟩

/-- A step begins an expression, or it succeeds or fails, whatever the limit. -/
theorem step_cases (phase : Phase) (stack : List Frame) (token : Token) :
    (∃ waiting, ∀ limit, step limit phase stack token = begin limit waiting token) ∨
      (∃ next, ∀ limit, step limit phase stack token = .ok next) ∨
      ∃ expected, ∀ limit, step limit phase stack token = .error (.found expected token) := by
  obtain ⟨kind, text⟩ := token
  cases phase with
  | expression => exact .inl ⟨stack, fun _ => rfl⟩
  | afterParen =>
      cases kind with
      | keyword word => cases word <;> exact .inr (.inl ⟨_, fun _ => rfl⟩)
      | _ => exact .inl ⟨.operator :: stack, fun _ => rfl⟩
  | operand operator operands =>
      cases kind with
      | closeParen => exact .inr (.inl ⟨_, fun _ => rfl⟩)
      | _ => exact .inl ⟨.operand operator operands :: stack, fun _ => rfl⟩
  | closing word form =>
      cases kind with
      | closeParen => exact .inr (.inl ⟨_, fun _ => rfl⟩)
      | _ => exact .inr (.inr ⟨.closing word, fun _ => rfl⟩)
  | definedName =>
      cases kind with
      | ident => exact .inr (.inl ⟨_, fun _ => rfl⟩)
      | _ => exact .inr (.inr ⟨.definedName, fun _ => rfl⟩)
  | openParams =>
      cases kind with
      | openParen => exact .inr (.inl ⟨_, fun _ => rfl⟩)
      | _ => exact .inr (.inr ⟨.openParams, fun _ => rfl⟩)
  | param params =>
      cases kind with
      | ident => exact .inr (.inl ⟨_, fun _ => rfl⟩)
      | closeParen => exact .inr (.inl ⟨_, fun _ => rfl⟩)
      | _ => exact .inr (.inr ⟨.param, fun _ => rfl⟩)

theorem fits_none (stack : List Frame) : fits none stack = true := rfl

theorem begin_eq_found (h : begin none stack token = .error error) :
    error = .found .expression token := by
  rw [begin, if_pos (fits_none stack)] at h
  cases hkind : token.kind with
  | closeParen => simpa [hkind] using h.symm
  | keyword word => simpa [hkind] using h.symm
  | _ => simp [hkind] at h

/-- Without a limit, a step fails only because of its token. -/
theorem step_eq_found (h : step none phase stack token = .error error) :
    ∃ expected, error = .found expected token := by
  rcases step_cases phase stack token with ⟨waiting, hstep⟩ | ⟨next, hstep⟩ | ⟨expected, hstep⟩
  · rw [hstep] at h
    exact ⟨_, begin_eq_found h⟩
  · rw [hstep] at h
    cases h
  · rw [hstep] at h
    exact ⟨expected, (Except.error.inj h).symm⟩

/-- A run without a limit fails at the end of tokens that more tokens would have completed, or at a
token that nothing completes any more. -/
theorem exists_of_run_eq_error (h : run none state tokens = .error error) :
    ∃ used, (∃ more result, run none state (used ++ more) = .ok result) ∧
      (tokens = used ∧ (∃ expected, error = .ended expected) ∨
        ∃ token rest, tokens = used ++ token :: rest ∧ (∃ expected, error = .found expected token) ∧
          ∀ more, run none state (used ++ token :: more) = .error error) := by
  obtain ⟨used, phase, stack, htakes, hfails⟩ := exists_takes_of_run_eq_error h
  obtain ⟨more, result, hok⟩ := exists_run_ok phase stack
  refine ⟨used, ⟨more, result, (htakes.run_append more).trans hok⟩, ?_⟩
  rcases hfails with ⟨rfl, rfl⟩ | ⟨token, rest, rfl, hstep⟩
  · refine .inl ⟨rfl, phase.expected, ?_⟩
    simp [atEnd, fits]
  · refine .inr ⟨token, rest, rfl, step_eq_found hstep, ?_⟩
    intro more
    rw [htakes.run_append, run, hstep]

/-! ## A limit on nesting -/

section

variable {limit' : Option Nat}
  (hwider : ∀ stack, fits limit stack = true → fits limit' stack = true)

include hwider

theorem step_wider (phase : Phase) (stack : List Frame) (token : Token) :
    step limit phase stack token = .error .tooDeep ∨
      step limit' phase stack token = step limit phase stack token := by
  rcases step_cases phase stack token with ⟨waiting, hstep⟩ | ⟨next, hstep⟩ | ⟨expected, hstep⟩
  · rw [hstep, hstep, begin, begin]
    by_cases hfits : fits limit waiting = true
    · rw [if_pos hfits, if_pos (hwider waiting hfits)]
      exact .inr rfl
    · exact .inl (if_neg hfits)
  · exact .inr ((hstep limit').trans (hstep limit).symm)
  · exact .inr ((hstep limit').trans (hstep limit).symm)

/-- A limit that is not reported makes no difference, and neither does a wider one. -/
theorem run_wider (h : run limit state tokens ≠ .error .tooDeep) :
    run limit' state tokens = run limit state tokens := by
  induction tokens generalizing state with
  | nil =>
      cases state with
      | done expr => rfl
      | reading phase stack =>
          by_cases hdeep : (phase = .expression && !fits limit stack) = true
          · exact absurd (congrArg Except.error (if_pos hdeep)) h
          -- what the one limit admits is admitted by the other as well
          · have hdeep' : ¬(phase = .expression && !fits limit' stack) = true := by
              intro hdeep'
              rw [Bool.and_eq_true, Bool.not_eq_true'] at hdeep hdeep'
              have hfits : ¬fits limit stack = true := by
                intro hfits
                rw [hwider stack hfits] at hdeep'
                cases hdeep'.2
              exact hdeep ⟨hdeep'.1, Bool.not_eq_true _ ▸ hfits⟩
            rw [run, run, atEnd, atEnd, if_neg hdeep, if_neg hdeep']
  | cons token tokens ih =>
      cases state with
      | done expr => rfl
      | reading phase stack =>
          rw [run] at h
          rcases step_wider hwider phase stack token with hdeep | hstep
          · simp [hdeep] at h
          · rw [run, run, hstep]
            cases hnext : step limit phase stack token with
            | error reason => rfl
            | ok next =>
                rw [hnext] at h
                exact ih h

end

end Reader

namespace Expr

open Reader (exists_of_run_eq_error fits_none run_wider)

/-- An expression is read from the tokens, with no limit on nesting. -/
def Parses (tokens : List Token) : Prop := ∃ expr, ofTokens tokens none = .ok expr

/-- An expression is read from the tokens, or from some tokens that continue them. -/
def Viable (tokens : List Token) : Prop := ∃ more, Parses (tokens ++ more)

variable {tokens used : List Token} {token : Token} {limit : Option Nat} {error : ParseError}

theorem ofTokens_of_ne_nil (h : tokens ≠ []) (limit : Option Nat) :
    ofTokens tokens limit = (Reader.read limit tokens).map Prod.fst := by
  cases tokens with
  | nil => exact absurd rfl h
  | cons token tokens => rfl

theorem ofTokens_eq_error_iff_read (h : tokens ≠ []) :
    ofTokens tokens limit = .error error ↔ Reader.read limit tokens = .error error := by
  rw [ofTokens_of_ne_nil h]
  cases Reader.read limit tokens <;> simp [Except.map]

theorem parses_iff : Parses tokens ↔ ∃ result, Reader.read none tokens = .ok result := by
  cases tokens with
  | nil => exact ⟨nofun, nofun⟩
  | cons token tokens =>
      rw [Parses]
      cases hread : Reader.read none (token :: tokens) with
      | ok result => simp [ofTokens, hread, Except.map]
      | error error => simp [ofTokens, hread, Except.map]

/-- What begins viable tokens is viable. -/
theorem Viable.of_append {rest : List Token} (h : Viable (tokens ++ rest)) : Viable tokens := by
  obtain ⟨more, hparses⟩ := h
  exact ⟨rest ++ more, by rwa [List.append_assoc] at hparses⟩

theorem Viable.take (h : Viable tokens) (count : Nat) : Viable (tokens.take count) := by
  rw [← List.take_append_drop count tokens] at h
  exact h.of_append

theorem Parses.viable (h : Parses tokens) : Viable tokens := ⟨[], by rwa [List.append_nil]⟩

theorem not_parses_iff : ¬Parses tokens ↔ ∃ error, ofTokens tokens none = .error error := by
  cases hread : ofTokens tokens none with
  | ok expr => simp [Parses, hread]
  | error error => simp [Parses, hread]

/-- Reading fails at the end of viable tokens, or at the token that makes them not viable. -/
theorem viable_or_of_ofTokens_eq_error (hne : tokens ≠ [])
    (h : ofTokens tokens none = .error error) :
    Viable tokens ∧ error.ReportsEnd ∨
      ¬Viable tokens ∧ ¬error.ReportsEnd ∧ ∃ used token rest, tokens = used ++ token :: rest ∧
        error.ReportsToken token ∧ Viable used ∧ ¬Viable (used ++ [token]) := by
  rw [ofTokens_eq_error_iff_read hne] at h
  obtain ⟨used, ⟨more, result, hok⟩, hfails⟩ := exists_of_run_eq_error h
  have hviable : Viable used := ⟨more, parses_iff.2 ⟨result, hok⟩⟩
  rcases hfails with ⟨rfl, expected, rfl⟩ | ⟨token, rest, rfl, ⟨expected, rfl⟩, herror⟩
  · exact .inl ⟨hviable, ParseError.reportsEnd_ended expected⟩
  · have hnot : ¬Viable (used ++ [token]) := by
      rintro ⟨more, hparses⟩
      rw [List.append_assoc, parses_iff] at hparses
      obtain ⟨result, hok⟩ := hparses
      cases (herror more).symm.trans hok
    refine .inr ⟨?_, ParseError.not_reportsEnd_found expected token, used, token, rest, rfl,
      ParseError.reportsToken_found expected token, hviable, hnot⟩
    intro hall
    rw [List.append_cons] at hall
    exact hnot hall.of_append

/-- The first place at which tokens are not viable. -/
theorem isLeast_not_viable {rest : List Token} (hviable : Viable used)
    (hnot : ¬Viable (used ++ [token])) :
    IsLeast {place | ¬Viable ((used ++ token :: rest).take (place + 1))} used.length := by
  constructor
  · have htake : (used ++ token :: rest).take (used.length + 1) = used ++ [token] := by
      rw [List.take_length_add_append, List.take_one]
      rfl
    change ¬Viable ((used ++ token :: rest).take (used.length + 1))
    rwa [htake]
  · intro place hplace
    by_contra hlt
    have htake : (used ++ token :: rest).take (place + 1) = used.take (place + 1) :=
      List.take_append_of_le_length (by omega)
    apply hplace
    rw [htake]
    exact hviable.take _

/-- A limit that is not reported makes no difference, and neither does a wider one. -/
theorem ofTokens_wider {limit' : Option Nat}
    (hwider : ∀ stack, Reader.fits limit stack = true → Reader.fits limit' stack = true)
    (h : ofTokens tokens limit ≠ .error .tooDeep) :
    ofTokens tokens limit' = ofTokens tokens limit := by
  cases tokens with
  | nil => rfl
  | cons token tokens =>
      have hne : token :: tokens ≠ [] := List.cons_ne_nil token tokens
      rw [ofTokens_of_ne_nil hne] at h
      rw [ofTokens_of_ne_nil hne, ofTokens_of_ne_nil hne, Reader.read, Reader.read,
        run_wider hwider]
      intro hread
      rw [Reader.read, hread] at h
      exact h rfl

/-- Reading tokens reports exactly where they fail, the limit on nesting aside. That they end too
soon is reported if no expression is read from them and yet they are viable. Any other report is
made if they are not viable, and it gives the text of the first token that makes them so. A limit
adds a report of its own, and where it is not reported, it makes no difference. -/
theorem ofTokens_eq_error_iff (hne : tokens ≠ []) :
    ((∃ error, ofTokens tokens none = .error error ∧ error.ReportsEnd) ↔
      ¬Parses tokens ∧ Viable tokens) ∧
    ((∃ error, ofTokens tokens none = .error error ∧ ¬error.ReportsEnd) ↔ ¬Viable tokens) ∧
    (¬Viable tokens → ∃ position token error,
      IsLeast {place | ¬Viable (tokens.take (place + 1))} position ∧
      tokens[position]? = some token ∧ ofTokens tokens none = .error error ∧
      error.ReportsToken token) ∧
    ∀ limit, ofTokens tokens limit ≠ .error .tooDeep →
      ofTokens tokens limit = ofTokens tokens none := by
  have hcases := fun error => @viable_or_of_ofTokens_eq_error tokens error hne
  -- a report of an end and another one exclude each other, so each tells what the tokens are
  refine ⟨⟨?_, ?_⟩, ⟨?_, ?_⟩, ?_, ?_⟩
  · rintro ⟨error, herror, hend⟩
    rcases hcases error herror with ⟨hviable, -⟩ | ⟨-, hother, -⟩
    · exact ⟨not_parses_iff.2 ⟨error, herror⟩, hviable⟩
    · exact absurd hend hother
  · rintro ⟨hparses, hviable⟩
    obtain ⟨error, herror⟩ := not_parses_iff.1 hparses
    rcases hcases error herror with ⟨-, hend⟩ | ⟨hnot, -⟩
    · exact ⟨error, herror, hend⟩
    · exact absurd hviable hnot
  · rintro ⟨error, herror, hother⟩
    rcases hcases error herror with ⟨-, hend⟩ | ⟨hnot, -⟩
    · exact absurd hend hother
    · exact hnot
  · intro hnot
    obtain ⟨error, herror⟩ := not_parses_iff.1 fun hparses => hnot hparses.viable
    rcases hcases error herror with ⟨hviable, -⟩ | ⟨-, hother, -⟩
    · exact absurd hviable hnot
    · exact ⟨error, herror, hother⟩
  · intro hnot
    obtain ⟨error, herror⟩ := not_parses_iff.1 fun hparses => hnot hparses.viable
    rcases hcases error herror with ⟨hviable, -⟩ | ⟨-, -, used, token, rest, htokens, htoken, hpart⟩
    · exact absurd hviable hnot
    · subst htokens
      obtain ⟨hused, hlast⟩ := hpart
      exact ⟨used.length, token, error, isLeast_not_viable hused hlast, by simp, herror, htoken⟩
  · intro limit hdeep
    exact (ofTokens_wider (fun stack _ => fits_none stack) hdeep).symm

/-- A keyword in a list of parameters is reported, whatever the texts say; up to it the tokens only
end too soon. -/
theorem ofTokens_eq_error_iff_params :
    let tokens : List Token := [⟨.openParen, "T"⟩, ⟨.keyword .lambda, "if"⟩, ⟨.openParen, ")"⟩,
      ⟨.ident, "("⟩, ⟨.keyword .condition, "x"⟩, ⟨.closeParen, ")"⟩]
    tokens ≠ [] ∧ tokens.take 4 ≠ [] ∧ ¬Viable tokens ∧ Viable (tokens.take 4) ∧
      (∃ position token error, IsLeast {place | ¬Viable (tokens.take (place + 1))} position ∧
        tokens[position]? = some token ∧ ofTokens tokens none = .error error ∧
        error.ReportsToken token) ∧
      ofTokens tokens (some 1) = .error (.found .param ⟨.keyword .condition, "x"⟩) := by
  intro tokens
  have hne : tokens ≠ [] := nofun
  have hne' : tokens.take 4 ≠ [] := nofun
  obtain ⟨-, hother, hfirst, hlimit⟩ := ofTokens_eq_error_iff hne
  obtain ⟨hend, -⟩ := ofTokens_eq_error_iff hne'
  have hnot : ¬Viable tokens := hother.1 ⟨_, rfl, ParseError.not_reportsEnd_found _ _⟩
  have hviable : Viable (tokens.take 4) := (hend.1 ⟨_, rfl, ParseError.reportsEnd_ended _⟩).2
  exact ⟨hne, hne', hnot, hviable, hfirst hnot, hlimit (some 1) nofun⟩

end Expr

end PrefixLogic
