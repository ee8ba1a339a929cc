import PrefixLogic.Proofs.Session.OneLine
import PrefixLogic.Proofs.Session.Verbosity
import PrefixLogic.Proofs.Shell.Course

/-!
# One line for each message

Every event of a session of values from sources has a message without line ends. What goes into a
run is shown between quotation marks, with every line end escaped (`Text.isLine_quoted`), and all
other messages are put together from trees that were read, in which no line end stands. So the text
of a trace is cut into the messages of the trace and no others, whatever was run, and the shell
answers a line that holds an expression with one line, unless it finds a value there is no room to
write (`Shell.one_line_each`).
-/

namespace PrefixLogic

open Text (IsLine isLine_append isLine_intercalate)

namespace Text

/-! ## Quoted texts -/

/-- No line end is printable. -/
theorem isLineEnd_eq_false_of_isPrintable {c : Char} (h : isPrintable c = true) :
    isLineEnd c = false := by
  have hwithin : ∀ range ∈ lineEndRanges,
      ∃ hidden ∈ unprintableRanges, hidden.1 ≤ range.1 ∧ range.2 ≤ hidden.2 := by
    decide +kernel
  rw [← Bool.not_eq_true]
  intro hend
  obtain ⟨range, hrange, hfrom, hto⟩ := (CodeRanges.contains_iff _ c).1 hend
  obtain ⟨hidden, hhidden, hfirst, hlast⟩ := hwithin range hrange
  have hcontains : unprintableRanges.contains c = true :=
    (CodeRanges.contains_iff _ c).2 ⟨hidden, hhidden, hfirst.trans hfrom, hto.trans hlast⟩
  rw [isPrintable, hcontains] at h
  cases h

theorem isLineEnd_hexDigits {width n : Nat} : ∀ c ∈ hexDigits width n, isLineEnd c = false := by
  have hdigit : ∀ digit < 16, isLineEnd (Nat.digitChar digit) = false := by decide
  intro c hmem
  obtain ⟨place, -, rfl⟩ := List.mem_map.1 hmem
  exact hdigit _ (Nat.mod_lt _ (by decide))

/-- Every character is written between marks without a line end, the line ends by escapes. -/
theorem isLineEnd_quoteChar {mark : Char} (hmark : isLineEnd mark = false) (c : Char) :
    ∀ written ∈ quoteChar mark c, isLineEnd written = false := by
  have hescape {code : List Char} (hcode : ∀ written ∈ code, isLineEnd written = false) :
      ∀ written ∈ '\\' :: code, isLineEnd written = false :=
    List.forall_mem_cons.2 ⟨by decide, hcode⟩
  rw [quoteChar]
  split
  case isTrue hkept =>
    have hc : isLineEnd c = false := by
      rw [Bool.or_eq_true, decide_eq_true_eq, decide_eq_true_eq] at hkept
      rcases hkept with rfl | rfl
      · exact hmark
      · decide
    exact hescape (List.forall_mem_singleton.2 hc)
  case isFalse =>
    split_ifs with hnewline hreturn htab hprintable hsmall hmiddle
    · exact hescape (List.forall_mem_singleton.2 (by decide))
    · exact hescape (List.forall_mem_singleton.2 (by decide))
    · exact hescape (List.forall_mem_singleton.2 (by decide))
    · exact List.forall_mem_singleton.2 (isLineEnd_eq_false_of_isPrintable hprintable)
    -- the code point is written after a letter that tells how many digits there are
    · exact hescape (List.forall_mem_cons.2 ⟨by decide, isLineEnd_hexDigits⟩)
    · exact hescape (List.forall_mem_cons.2 ⟨by decide, isLineEnd_hexDigits⟩)
    · exact hescape (List.forall_mem_cons.2 ⟨by decide, isLineEnd_hexDigits⟩)

/-- Whatever text is quoted, the quoted text is on one line. -/
theorem isLine_quoted (text : String) : IsLine (quoted text) := by
  have hmark : isLineEnd (quotationMark text.toList) = false := by
    rw [quotationMark]
    split <;> decide
  rw [IsLine, quoted, String.toList_ofList, List.cons_append, List.forall_mem_cons,
    List.forall_mem_append, List.forall_mem_singleton]
  refine ⟨hmark, ?_, hmark⟩
  intro written hwritten
  obtain ⟨c, -, hc⟩ := List.mem_flatMap.1 hwritten
  exact isLineEnd_quoteChar hmark c written hc

end Text

/-! ## What a run records -/

/-- What is recorded of readable code and readable values is told on one line. -/
theorem Event.isLine_text {limit : Option Nat} {event : Event}
    (h : event.ArisesFrom (Expr.Readable limit) (Value.Readable limit)) : IsLine event.text := by
  cases event with
  | input source => exact h.elim
  | result value => exact h.elim
  | failed failure => exact h.elim
  | visited expr => exact isLine_append (by decide) (Expr.WellFormed.isLine_text h.1)
  | decided test value =>
      have htest := isLine_append (by decide : IsLine "if condition ")
        (Expr.WellFormed.isLine_text h.1)
      have hvalue : IsLine (Expr.boolText value) := by cases value <;> decide
      exact isLine_append (isLine_append htest (by decide)) hvalue
  | defined name bound =>
      obtain ⟨⟨body, hdefine, -⟩, hbound⟩ := h
      cases hdefine with
      | define hname _ =>
          have hhead := isLine_append (by decide : IsLine "def ") hname.isLine
          exact isLine_append (isLine_append hhead (by decide)) hbound.isLine_text
  | called params body arguments =>
      obtain ⟨hlambda, harguments⟩ := h
      have hcalled := isLine_append (by decide : IsLine "call ") hlambda.isLine_text
      have hlist : IsLine (" ".intercalate (arguments.map Value.text)) := by
        apply isLine_intercalate (by decide)
        intro text hmem
        obtain ⟨argument, hargument, rfl⟩ := List.mem_map.1 hmem
        exact (harguments argument hargument).isLine_text
      exact isLine_append (isLine_append (isLine_append hcalled (by decide)) hlist) (by decide)

/-! ## Runs of sources -/

theorem Trace.text_eq_typed (trace : Trace) : trace.text = Text.typed trace.messages := by
  rw [text, Text.typed, messages, List.map_map]
  rfl

namespace Session

/-- What is recorded of a run between what goes in and what comes out is told on one line each, and
does not begin like either. -/
theorem isLine_runQuietly (config : Config) (source : String) {env : Env}
    (henv : env.Holds (Value.Readable none)) :
    ∀ event ∈ (runQuietly config source env).trace, IsLine event.text ∧
      beginsWith ["input ", "result ", "error "] event.text = false := by
  rw [runQuietly]
  cases hread : read config.room source with
  | error failure => exact List.forall_mem_nil _
  | ok expr =>
      intro event hmem
      have hexpr : expr.Readable none := ⟨(readable_of_read hread).wellFormed, rfl⟩
      have harises := Evaluation.evaluate_trace_arisesFrom (Expr.carried_readable rfl) config hexpr
        (henv.shows _) event hmem
      refine ⟨Event.isLine_text harises, ?_⟩
      obtain ⟨rest, hrest⟩ := event.exists_text_eq
      rw [hrest, beginsWith]
      cases event with
      | input source => exact harises.elim
      | result value => exact harises.elim
      | failed failure => exact harises.elim
      | _ => simp [Event.opening, List.isPrefixOf_cons_cons]

/-- What comes out is recorded at every positive verbosity. -/
theorem ending_of_pos {level : Int} (h : 0 < level) (result : Except Failure Value) :
    ending level result = ending 1 result := by
  rw [ending, ending]
  cases hlast : lastEvent? result with
  | none => rfl
  | some event =>
      have hevent : event.level = 1 := by
        rcases lastEvent?_eq_some hlast with ⟨value, -, rfl⟩ | ⟨failure, -, -, rfl⟩ <;> rfl
      have hrecorded (most : Int) (hmost : 0 < most) : Trace.ofEvent most event = [event] :=
        if_pos (decide_eq_true (hevent.trans_le hmost))
      rw [Option.elim_some, Option.elim_some, hrecorded level h, hrecorded 1 (by decide)]

/-- A run that is recorded has a message for what goes in, then those of the evaluation, and a last
one for what comes out. -/
theorem messages_run_of_pos {config : Config} (h : 0 < config.verbosity) (source : String)
    (env : Env) :
    (run config source env).trace.messages = ("input " ++ Text.quoted source) ::
      Trace.messages (runQuietly config source env).trace ++
        lastMessages (run config source env).result := by
  have hinput : Trace.ofEvent config.verbosity (.input source) = [.input source] :=
    if_pos (decide_eq_true h)
  rw [← messages_ending, ← ending_of_pos h]
  change Trace.messages (Trace.ofEvent config.verbosity (.input source) ++ _ ++ ending _ _) = _
  rw [hinput, Trace.messages, List.map_append, List.map_append]
  rfl

theorem isLine_text_of_report {failure : Failure} (h : IsLine failure.report) :
    IsLine failure.text := by
  have hkind : IsLine failure.kind := by
    cases failure with
    | tokenize error => exact (by decide : IsLine "TokenizeError")
    | parse error => exact (by decide : IsLine "ParseError")
    | evaluate error => exact (by decide : IsLine "EvalError")
    | write value => exact (by decide : IsLine "RecursionError")
  have hmessage : IsLine failure.message := Text.isLine_of_append_right h
  exact isLine_append (isLine_append hkind (by decide)) hmessage

theorem of_mem_ending {level : Int} {result : Except Failure Value} {event : Event}
    (h : event ∈ ending level result) : lastEvent? result = some event := by
  rw [ending] at h
  cases hlast : lastEvent? result with
  | none =>
      rw [hlast] at h
      cases h
  | some last =>
      rw [hlast] at h
      rw [Trace.eq_of_mem_ofEvent h]

/-- Every message of a run in a session of values from sources is on one line. -/
theorem isLine_messages (config : Config) (source : String) {env : Env}
    (henv : env.Holds (Value.Readable none)) :
    ∀ message ∈ (run config source env).trace.messages, IsLine message := by
  obtain ⟨hvalue, hfailure⟩ := isLine_run config source henv
  intro message hmessage
  obtain ⟨event, hevent, rfl⟩ := List.mem_map.1 hmessage
  change event ∈ Trace.ofEvent config.verbosity (.input source) ++ _ ++
    ending config.verbosity (run config source env).result at hevent
  rw [List.mem_append, List.mem_append] at hevent
  rcases hevent with (hinput | hquiet) | hlast
  · rw [Trace.eq_of_mem_ofEvent hinput]
    exact isLine_append (by decide) (Text.isLine_quoted source)
  · exact (isLine_runQuietly config source henv event hquiet).1
  · rcases lastEvent?_eq_some (of_mem_ending hlast) with
      ⟨value, hresult, rfl⟩ | ⟨failure, hresult, -, rfl⟩
    · exact isLine_append (by decide) (hvalue value hresult)
    · exact isLine_append (by decide) (isLine_text_of_report (hfailure failure hresult))

/-- What is recorded last tells what came out, unless that is not told. -/
theorem lastMessages_error (failure : Failure) :
    lastMessages (.error failure) =
      if failure.isTold then ["error " ++ failure.text] else [] := by
  cases failure with
  | evaluate reason => cases reason <;> rfl
  | _ => rfl

end Session

/-! ## Answers of the shell -/

/-- No value is written like the report of a failure. -/
theorem Value.beginsWith_failed (value : Value) :
    beginsWith ["Failed to "] value.text = false := by
  cases value with
  | bool value => cases value <;> decide
  | op op => cases op <;> decide
  | lambda params body =>
      rw [beginsWith, text, toExpr, Expr.text]
      simp [List.isPrefixOf_cons_cons]

theorem Failure.beginsWith_failed (failure : Failure) :
    beginsWith ["Failed to "] failure.report = true := by
  rw [beginsWith, report]
  simp

namespace Shell

/-- In a session of values from sources, no message of a run has a line end in it, nor has a value
or the text of a failure, whatever the source and the verbosity. So the text of a trace is cut into
its messages. The first line of it quotes what went in and the last one tells what came out, and
none in between begins like these. The shell answers a line that holds a source with one line, which
begins like a failure exactly if there is one. Only a value that there is no room to write is
neither recorded nor answered: there the run and the shell break. -/
theorem one_line_each {room : Room} {env : Env} (henv : env.Holds (Value.FromSource room))
    (config : Config) :
    (∀ source, let outcome := Session.run config source env
      (∀ message ∈ outcome.trace.messages, IsLine message) ∧
      (∀ value, outcome.result = .ok value → IsLine value.text) ∧
      (∀ failure, outcome.result = .error failure →
        IsLine failure.message ∧ IsLine failure.text ∧ IsLine failure.report ∧
          (failure.isTold = false →
            ∃ value : Value, failure = .write value ∧ value.write config.room = none)) ∧
      Text.storedLines outcome.trace.text = outcome.trace.messages ∧
      (0 < config.verbosity → ∃ steps last,
        Text.storedLines outcome.trace.text =
          ("input " ++ Text.quoted source) :: steps ++ last ∧
        (∀ step ∈ steps, beginsWith ["input ", "result ", "error "] step = false) ∧
        (∀ value, outcome.result = .ok value → last = ["result " ++ value.text]) ∧
        ∀ failure, outcome.result = .error failure →
          last = if failure.isTold then ["error " ++ failure.text] else [])) ∧
    ∀ line source, (Line.ofString line).source? = some source →
      let outcome := Session.run config source env
      let reply := reply config env line
      (∀ value, outcome.result = .ok value →
        reply.output = value.text ++ "\n" ∧ Text.storedLines reply.output = [value.text] ∧
          beginsWith ["Failed to "] value.text = false ∧ reply.ends = false) ∧
      ∀ failure, outcome.result = .error failure →
        (failure.isTold = true →
          reply.output = failure.report ++ "\n" ∧ Text.storedLines reply.output = [failure.report] ∧
            beginsWith ["Failed to "] failure.report = true ∧ reply.ends = false) ∧
        (failure.isTold = false → reply.output = "" ∧ reply.fault = some failure) := by
  have hreadable := henv.readable
  refine ⟨?_, ?_⟩
  · intro source outcome
    obtain ⟨hvalue, hfailure⟩ := Session.isLine_run config source hreadable
    have hmessages := Session.isLine_messages config source hreadable
    have hlines : Text.storedLines outcome.trace.text = outcome.trace.messages := by
      rw [Trace.text_eq_typed, Text.storedLines_typed hmessages]
    refine ⟨hmessages, hvalue, ?_, hlines, ?_⟩
    · intro failure hfails
      have hreport := hfailure failure hfails
      exact ⟨Text.isLine_of_append_right hreport, Session.isLine_text_of_report hreport, hreport,
        Session.exists_write_of_untold config source hreadable hfails⟩
    · intro hverbose
      -- the steps are what is recorded between what goes in and what comes out
      refine ⟨Trace.messages (Session.runQuietly config source env).trace,
        Session.lastMessages outcome.result, ?_, ?_, ?_, ?_⟩
      · rw [hlines, Session.messages_run_of_pos hverbose]
      · intro step hstep
        obtain ⟨event, hevent, rfl⟩ := List.mem_map.1 hstep
        exact (Session.isLine_runQuietly config source hreadable event hevent).2
      · intro value hresult
        rw [hresult]
        rfl
      · intro failure hresult
        rw [hresult, Session.lastMessages_error]
  · intro line source hsource outcome reply
    obtain ⟨hvalue, hfailure⟩ := Session.isLine_run config source hreadable
    have hreply : reply = answer outcome := reply_of_source? config env hsource
    rw [hreply, answer]
    refine ⟨?_, ?_⟩
    · intro value hresult
      rw [hresult]
      exact ⟨rfl, Text.storedLines_line (hvalue value hresult), value.beginsWith_failed, rfl⟩
    · intro failure hresult
      rw [hresult]
      refine ⟨?_, ?_⟩
      · intro htold
        dsimp only
        rw [if_pos htold]
        exact ⟨rfl, Text.storedLines_line (hfailure failure hresult), failure.beginsWith_failed,
          rfl⟩
      · intro huntold
        dsimp only
        rw [if_neg (by simp [huntold])]
        exact ⟨rfl, rfl⟩

/-- A source that goes on with a line of its own is quoted on one line, and its own line is not
taken for what came out. -/
theorem one_line_each_forged :
    let env := Env.ofList [("f", Session.negation)]
    let config : Config := { verbosity := 2 }
    let outcome := Session.run config "(f T)\u2028result T" env
    Text.storedLines outcome.trace.text =
        ["input '(f T)\\u2028result T'", "call (lambda (x) (^ x)) with (T)", "result F"] ∧
      (∃ steps, Text.storedLines outcome.trace.text =
          "input '(f T)\\u2028result T'" :: steps ++ ["result F"] ∧
        ∀ step ∈ steps, beginsWith ["input ", "result ", "error "] step = false) ∧
      Text.storedLines (reply config env " (f\u0085T)").output = ["F"] := by
  intro env config outcome
  obtain ⟨hrun, hreply⟩ := one_line_each Session.holds_negation config
  obtain ⟨-, -, -, hlines, hrecorded⟩ := hrun "(f T)\u2028result T"
  obtain ⟨steps, last, hwhole, hsteps, hlast, -⟩ := hrecorded (by decide)
  have hresult : outcome.result = .ok (.bool false) := by decide +kernel
  have hinput : "input " ++ Text.quoted "(f T)\u2028result T" =
      "input '(f T)\\u2028result T'" := by
    decide +kernel
  rw [hinput, hlast _ hresult] at hwhole
  obtain ⟨hvalue, -⟩ := hreply " (f\u0085T)" "(f\u0085T)" (by decide +kernel)
  obtain ⟨-, hline, -⟩ := hvalue (.bool false) (by decide +kernel)
  exact ⟨hlines.trans (by decide +kernel), ⟨steps, hwhole, hsteps⟩, hline⟩

/-- A line with a source in which a lambda with a tall body is found has no answer. -/
theorem one_line_each_tall :
    let line := Session.tall.text
    (Line.ofString line).source? = some (Text.trim line) ∧
      ∀ answer, Text.storedLines (reply {} .empty line).output ≠ [answer] := by
  intro line
  obtain ⟨rest, hrest⟩ := Session.exists_toList_text_tall
  obtain ⟨hholds, hblank⟩ := Line.holdsSource_of_openParen hrest
  have hsource := Line.source?_of_holdsSource hholds hblank
  obtain ⟨hresult, -⟩ := Session.run_tall {} rfl (by decide) (by decide) (by decide) (by decide)
    .empty
  rw [← (Session.run_trim {} line .empty).1] at hresult
  refine ⟨hsource, ?_⟩
  rw [reply_of_source? {} .empty hsource, answer, hresult]
  intro answer hlines
  cases hlines

end Shell

end PrefixLogic
