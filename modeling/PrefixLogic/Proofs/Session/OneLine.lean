import PrefixLogic.Proofs.Reading.Viability
import PrefixLogic.Proofs.Session.ReadBack
import PrefixLogic.Proofs.Text.Lines
import PrefixLogic.Proofs.Token.Concatenation

/-!
# Texts on one line

Every line end is blank, and no lexeme holds a blank. So the text of a tree that was read is on one
line (`Expr.WellFormed.isLine_text`), and so are the messages about a source that is not read.

A session that begins with values from sources has no others. So whatever it is given to run, a
value or the report of a failure is on one line (`Session.isLine_run`).
-/

namespace PrefixLogic

open Text (IsLine)

namespace Text

theorem isBlank_of_isLineEnd {c : Char} (h : isLineEnd c = true) : isBlank c = true := by
  have hwithin : ∀ range ∈ lineEndRanges,
      ∃ blanks ∈ blankRanges, blanks.1 ≤ range.1 ∧ range.2 ≤ blanks.2 := by
    decide
  obtain ⟨range, hrange, hfrom, hto⟩ := (CodeRanges.contains_iff _ c).1 h
  obtain ⟨blanks, hblanks, hfirst, hlast⟩ := hwithin range hrange
  exact (CodeRanges.contains_iff _ c).2 ⟨blanks, hblanks, hfirst.trans hfrom, hto.trans hlast⟩

theorem isLine_of_not_blank {text : String} (h : ∀ c ∈ text.toList, isBlank c = false) :
    IsLine text := by
  intro c hmem
  rw [← Bool.not_eq_true]
  exact mt isBlank_of_isLineEnd (by simp [h c hmem])

theorem isLine_append {front back : String} (hfront : IsLine front) (hback : IsLine back) :
    IsLine (front ++ back) := by
  rw [IsLine, String.toList_append]
  exact List.forall_mem_append.2 ⟨hfront, hback⟩

theorem isLine_of_append_right {front back : String} (h : IsLine (front ++ back)) :
    IsLine back := by
  rw [IsLine, String.toList_append] at h
  exact (List.forall_mem_append.1 h).2

theorem isLine_intercalate {separator : String} (hseparator : IsLine separator)
    {words : List String} (h : ∀ word ∈ words, IsLine word) :
    IsLine (separator.intercalate words) := by
  induction words with
  | nil => exact List.forall_mem_nil _
  | cons word words ih =>
      rw [List.forall_mem_cons] at h
      cases words with
      | nil => simpa using h.1
      | cons next words =>
          rw [String.intercalate_cons_cons]
          exact isLine_append (isLine_append h.1 hseparator) (ih h.2)

theorem isLine_backquoted {text : String} (h : IsLine text) : IsLine (backquoted text) :=
  isLine_append (isLine_append (by decide) h) (by decide)

theorem isLine_repr_nat (n : Nat) : IsLine n.repr := by
  apply isLine_of_not_blank
  intro c hmem
  rw [Nat.toList_repr] at hmem
  have hdigit := Nat.isDigit_of_mem_toDigits (by decide) (by decide) hmem
  simp only [Char.isDigit, Bool.and_eq_true, decide_eq_true_eq] at hdigit
  exact isBlank_eq_false_of_ascii (Nat.lt_of_lt_of_le (by decide) hdigit.1)
    (Nat.lt_of_le_of_lt hdigit.2 (by decide))

theorem isLine_repr_int (n : Int) : IsLine n.repr := by
  cases n with
  | ofNat n => exact isLine_repr_nat n
  | negSucc n => exact isLine_append (by decide) (isLine_repr_nat n.succ)

end Text

open Text (isLine_append isLine_backquoted isLine_intercalate isLine_of_not_blank)

/-! ## Lexemes and trees -/

theorem Token.isLine_of_isWord {text : String} (h : isWord text.toList = true) : IsLine text := by
  apply isLine_of_not_blank
  intro c hmem
  simp only [isWord, isWordChar, Bool.and_eq_true, List.all_eq_true, Bool.not_eq_true'] at h
  exact (h.2 c hmem).1

theorem Token.Canonical.isLine_text {token : Token} (h : token.Canonical) : IsLine token.text := by
  rcases h with hsymbol | ⟨-, hident, -⟩
  · have hsymbols : ∀ symbol ∈ symbols, IsLine symbol.text := by decide
    exact hsymbols token hsymbol
  · exact isLine_of_isWord (isWord_of_isIdentText hident)

theorem Token.IsName.isLine {name : String} (h : Token.IsName name) : IsLine name :=
  Token.isLine_of_isWord (Token.isWord_of_isIdentText h.1)

theorem Keyword.isLine_text (word : Keyword) : IsLine word.text := by
  cases word <;> decide

theorem Operator.isLine_sign (op : Operator) : IsLine op.sign := by
  cases op <;> decide

theorem Expr.isLine_operandsText {operands : List Expr}
    (h : ∀ operand ∈ operands, IsLine operand.text) : IsLine (operandsText operands) := by
  induction operands with
  | nil => exact List.forall_mem_nil _
  | cons operand operands ih =>
      rw [List.forall_mem_cons] at h
      rw [operandsText]
      exact isLine_append (isLine_append (by decide) h.1) (ih h.2)

theorem Expr.WellFormed.isLine_text {expr : Expr} (h : expr.WellFormed) : IsLine expr.text := by
  have hspace : IsLine " " := by decide
  have hclose : IsLine ")" := by decide
  induction h with
  | bool value =>
      rw [text]
      cases value <;> decide
  | op op =>
      rw [text]
      exact op.isLine_sign
  | call _ _ ihoperator ihoperands =>
      rw [text]
      exact isLine_append (isLine_append (isLine_append (by decide) ihoperator)
        (isLine_operandsText ihoperands)) hclose
  | cond _ _ _ ihtest ihyes ihno =>
      rw [text]
      have htest := isLine_append (isLine_append (by decide : IsLine "(if ") ihtest) hspace
      have hyes := isLine_append (isLine_append htest ihyes) hspace
      exact isLine_append (isLine_append hyes ihno) hclose
  | define hname _ ih =>
      rw [text]
      have hhead := isLine_append (isLine_append (by decide : IsLine "(def ") hname.isLine) hspace
      exact isLine_append (isLine_append hhead ih) hclose
  | lambda hparams _ ih =>
      rw [text]
      have hlist := isLine_intercalate hspace fun param hmem => (hparams param hmem).isLine
      have hhead := isLine_append (isLine_append (by decide : IsLine "(lambda (") hlist)
        (by decide : IsLine ") ")
      exact isLine_append (isLine_append hhead ih) hclose
  | ident hname =>
      rw [text]
      exact hname.isLine

theorem Value.Readable.isLine_text {limit : Option Nat} {value : Value} (h : value.Readable limit) :
    IsLine value.text :=
  h.wellFormed.isLine_text

/-! ## Messages -/

/-- A lexeme that is no token is a word of the source. -/
theorem TokenizeError.isLine_message {source : String} {error : TokenizeError}
    (h : Token.tokenize source = .error error) : IsLine error.message := by
  obtain ⟨front, back, hword, -, -⟩ := Token.tokenize_eq_error_iff.1 h
  exact isLine_append (by decide) (isLine_backquoted (Token.isLine_of_isWord hword.isWord))

/-- A token that does not fit is one of those that are read. -/
theorem Reader.mem_of_run_eq_found {limit : Option Nat} {state : State} {tokens : List Token}
    {expected : Expected} {token : Token}
    (h : run limit state tokens = .error (.found expected token)) : token ∈ tokens := by
  obtain ⟨used, phase, stack, -, hends⟩ := exists_takes_of_run_eq_error h
  rcases hends with ⟨-, hatEnd⟩ | ⟨last, rest, rfl, hstep⟩
  · rw [atEnd] at hatEnd
    split at hatEnd <;> cases hatEnd
  · -- a step that is not too deep fails as it does without a limit, at its own token
    rcases step_wider (fun stack _ => fits_none stack) phase stack last with hdeep | hsame
    · cases hdeep.symm.trans hstep
    · obtain ⟨_, hfound⟩ := step_eq_found (hsame.trans hstep)
      cases hfound
      simp

theorem ParseError.isLine_message {tokens : List Token} {limit : Option Nat} {error : ParseError}
    (htokens : ∀ token ∈ tokens, token.Canonical) (h : Expr.ofTokens tokens limit = .error error) :
    IsLine error.message := by
  cases error with
  | noTokens => exact (by decide : IsLine "no token")
  | tooDeep => exact (by decide : IsLine "expression nested too deeply")
  | ended expected =>
      change IsLine expected.atEnd
      cases expected with
      | closing word =>
          exact isLine_append (isLine_append (by decide) word.isLine_text) (by decide)
      | _ => decide
  | found expected token =>
      have hmem : token ∈ tokens := by
        cases tokens with
        | nil => cases h
        | cons first tokens =>
            rw [Expr.ofTokens_eq_error_iff_read (by simp)] at h
            exact Reader.mem_of_run_eq_found h
      have hwords : IsLine expected.otherwise := by
        cases expected with
        | closing word =>
            exact isLine_append (isLine_append (by decide) word.isLine_text) (by decide)
        | _ => decide
      exact isLine_append (isLine_append hwords (by decide))
        (isLine_backquoted (htokens token hmem).isLine_text)

/-- What goes wrong with readable code and readable values is told on one line. -/
theorem EvalError.isLine_message {limit : Option Nat} {calls : Option Int} {error : EvalError}
    (h : error.ArisesFrom (Expr.Readable limit) (Value.Readable limit) calls) :
    IsLine error.message := by
  cases error with
  | notDefined name =>
      obtain ⟨hident, -⟩ := h
      exact isLine_append (isLine_backquoted hident.isLine_text) (by decide)
  | notOperator value =>
      exact isLine_append (isLine_backquoted (Value.Readable.isLine_text h)) (by decide)
  | conditionNotBool value =>
      exact isLine_append (by decide) (isLine_backquoted (Value.Readable.isLine_text h))
  | operandNotBool op value =>
      have hhead := isLine_append (by decide : IsLine "operand of ")
        (isLine_backquoted op.isLine_sign)
      exact isLine_append (isLine_append hhead (by decide))
        (isLine_backquoted (Value.Readable.isLine_text h))
  | negationCount given =>
      exact isLine_append (by decide) (Text.isLine_repr_nat given)
  | argumentCount expected given =>
      have hgiven := isLine_append (by decide : IsLine "the number of arguments (")
        (Text.isLine_repr_nat given)
      have hexpected := isLine_append (isLine_append hgiven
        (by decide : IsLine ") does not match the number of parameters ("))
        (Text.isLine_repr_nat expected)
      exact isLine_append hexpected (by decide)
  | callDepth most =>
      exact isLine_append (isLine_append (by decide) (Text.isLine_repr_int most)) (by decide)
  | nesting => exact h.elim
  | noRule => exact (by decide : IsLine EvalError.noRule.message)

/-! ## Sessions -/

namespace Session

theorem isLine_message_of_read {room : Room} {source : String} {failure : Failure}
    (h : read room source = .error failure) : IsLine failure.message := by
  rw [read] at h
  cases htokens : Token.tokenize source with
  | error error =>
      rw [htokens] at h
      cases h
      exact TokenizeError.isLine_message htokens
  | ok tokens =>
      rw [htokens] at h
      dsimp only at h
      cases hexpr : Expr.ofTokens tokens room.readings with
      | ok expr =>
          rw [hexpr] at h
          cases h
      | error error =>
          rw [hexpr] at h
          cases h
          exact ParseError.isLine_message (Token.tokenize_eq_ok_iff.1 htokens).2 hexpr

theorem isLine_message_of_evaluate {limit : Option Nat} {expr : Expr} (hexpr : expr.Readable limit)
    {config : Config} {env : Env} (henv : env.Holds (Value.Readable limit)) {error : EvalError}
    (h : (expr.evaluate config env).result = .error error) : IsLine error.message := by
  have hcarried := Expr.carried_readable (Expr.admits_of_le hexpr.admits expr.height_pos)
  have hnesting : IsLine EvalError.nesting.message := by decide
  have hreasons : ∀ reason, (expr.evaluate config env).result = .error reason →
      IsLine reason.message :=
    (Evaluation.evaluate_of_carried hcarried EvalError.isLine_message hnesting hexpr
      (henv.shows _)).1
  exact hreasons error h

theorem isLine_message_of_runQuietly {config : Config} {source : String} {env : Env}
    (henv : env.Holds (Value.Readable none)) {failure : Failure}
    (h : (runQuietly config source env).result = .error failure) : IsLine failure.message := by
  rw [runQuietly] at h
  cases hread : read config.room source with
  | error reason =>
      rw [hread] at h
      cases h
      exact isLine_message_of_read hread
  | ok expr =>
      rw [hread] at h
      dsimp only at h
      cases hresult : (expr.evaluate config env).result with
      | ok value =>
          rw [hresult] at h
          cases h
      | error error =>
          rw [hresult] at h
          cases h
          exact isLine_message_of_evaluate ⟨(readable_of_read hread).wellFormed, rfl⟩ henv hresult

/-- A session of values from sources writes each of its values on one line, and each report of a
failure. -/
theorem isLine_run (config : Config) (source : String) {env : Env}
    (henv : env.Holds (Value.Readable none)) :
    let outcome := run config source env
    (∀ value, outcome.result = .ok value → IsLine value.text) ∧
      ∀ failure, outcome.result = .error failure → IsLine failure.report := by
  intro outcome
  obtain ⟨-, hvalue, -, -⟩ := run_readable config source (fun _ _ => rfl) henv
  refine ⟨fun value hok => (hvalue value hok).1.isLine_text, ?_⟩
  intro failure hfails
  have hmessage : IsLine failure.message := by
    rcases comesOut_eq_error.1 hfails with hquiet | ⟨value, -, -, rfl⟩
    · exact isLine_message_of_runQuietly henv hquiet
    · exact (by decide : IsLine EvalError.nesting.message)
  have hstage : IsLine failure.stage := by
    cases failure with
    | tokenize error => exact (by decide : IsLine "tokenize")
    | parse error => exact (by decide : IsLine "parse")
    | evaluate error => exact (by decide : IsLine "evaluate")
    | write value => exact (by decide : IsLine "write")
  exact isLine_append (isLine_append (isLine_append (by decide) hstage) (by decide)) hmessage

end Session

end PrefixLogic
