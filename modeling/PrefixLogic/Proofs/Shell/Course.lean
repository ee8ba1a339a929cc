import PrefixLogic.Proofs.Session.ReadBack
import PrefixLogic.Proofs.Shell.Line

/-!
# The course of the shell

The shell answers one line after the other, up to the first line whose command ends it. The end of
the input is read as such a line, so there always is one, and no answer before it ends the shell.
What a line holds is told by its text alone: it does not matter what has been answered before. What
is written for it is told by what it holds (`Shell.Answer`).

The lines that hold a source are run in the order in which they come, and nothing else changes the
environment. So the shell goes on as a session does, and in a session that begins with values from
sources it goes on to its end, unless it finds a value that there is no room to write
(`Shell.exists_course`).
-/

namespace PrefixLogic.Shell

/-! ## What is written for a line -/

/-- What is written for a line in an environment: the value of the source that it holds, or the
report of its failure, or what its command asks for. -/
inductive Answer (config : Config) (env : Env) (line : Line) : String → Prop
  | value {source : String} {value : Value} : line.source? = some source →
      (Session.run config source env).result = .ok value →
      Answer config env line (value.text ++ "\n")
  | failure {source : String} {failure : Failure} : line.source? = some source →
      (Session.run config source env).result = .error failure → failure.isTold = true →
      Answer config env line (failure.report ++ "\n")
  | nothing : line.command.getD "" = "" → line.text = "" → Answer config env line ""
  | bindings : line.command = some "env" →
      Answer config env line (String.join (env.names.map fun name =>
        name ++ " = " ++ (env.get? name).elim "" Value.text ++ "\n"))
  | help : line.command = some "help" → Answer config env line helpText
  | exit : line.command = some Line.exitWord → Answer config env line ""
  | farewell : line.command = some Line.endWord → Answer config env line "\n"
  | unknown {command : String} : line.command = some command →
      command ∉ ["", "env", "help", Line.exitWord, Line.endWord] →
      Answer config env line ("Unknown command: :" ++ command ++ "\n")

/-- If no value is left out, all names are listed. -/
theorem bindingsText_of_unlisted? {room : Room} {env : Env} (h : unlisted? room env = none) :
    bindingsText room env = String.join (env.names.map fun name =>
      name ++ " = " ++ (env.get? name).elim "" Value.text ++ "\n") := by
  have hlisted : ∀ name ∈ env.names, isListed room env name = true := by
    rw [unlisted?] at h
    cases hfind : env.names.find? fun name => !isListed room env name with
    | none => simpa using List.find?_eq_none.1 hfind
    | some name =>
        -- a name that is left out has a value
        have hleft := List.find?_some hfind
        rw [hfind, Option.bind_some] at h
        simp [isListed, h] at hleft
  rw [bindingsText, List.takeWhile_eq_self_iff.2 hlisted]

section

variable (config : Config)

/-- What is answered to a request is the answer to its line, if nothing breaks the shell. -/
theorem answer_respond (env : Env) (line : Line)
    (hfault : (respond config env line.request).fault = none) :
    Answer config env line (respond config env line.request).output := by
  rcases line.request_cases with ⟨hrequest, hcommand, htext⟩ | ⟨source, hrequest, hsource⟩ |
    ⟨hrequest, hcommand⟩ | ⟨hrequest, hcommand⟩ | ⟨hrequest, hcommand⟩ | ⟨hrequest, hcommand⟩ |
    ⟨command, hrequest, hcommand, hword⟩
  all_goals rw [hrequest] at hfault ⊢
  · exact .nothing hcommand htext
  · change (answer (Session.run config source env)).fault = none at hfault
    change Answer config env line (answer (Session.run config source env)).output
    rw [answer] at hfault ⊢
    cases hresult : (Session.run config source env).result with
    | ok value => exact .value hsource hresult
    | error failure =>
        rw [hresult] at hfault
        dsimp only at hfault ⊢
        cases htold : failure.isTold with
        | true => exact .failure hsource hresult htold
        | false => simp [htold] at hfault
  · have hlisted : unlisted? (config.room.more 1) env = none := Option.map_eq_none_iff.1 hfault
    change Answer config env line (bindingsText (config.room.more 1) env)
    rw [bindingsText_of_unlisted? hlisted]
    exact .bindings hcommand
  · exact .help hcommand
  · exact .exit hcommand
  · exact .farewell hcommand
  · exact .unknown hcommand hword

end

/-! ## One line -/

/-- The sources that lines hold. -/
def sources (lines : List String) : List String :=
  lines.filterMap fun line => (Line.ofString line).source?

/-- The environment after the runs of the sources that lines hold. -/
def envAfter (config : Config) (env : Env) (lines : List String) : Env :=
  Session.after env ((sources lines).map fun source => (config, source))

/-- What is written for lines that are read, line by line: the prompt and the answer to the line,
in the environment that the lines before it leave. -/
def exchanges (config : Config) : Env → List String → List String
  | _, [] => []
  | env, line :: lines =>
    (prompt ++ (reply config env line).output) ::
      exchanges config (envAfter config env [line]) lines

/-- What is written for lines that are read: a prompt for each line, and the answer to it in the
environment that the lines before it leave. -/
inductive Dialogue (config : Config) : Env → List String → String → Prop
  | nil (env : Env) : Dialogue config env [] ""
  | cons {env : Env} {line answer written : String} {lines : List String} :
      Answer config env (Line.ofString line) answer →
      Dialogue config (envAfter config env [line]) lines written →
      Dialogue config env (line :: lines) (prompt ++ answer ++ written)

/-- No line breaks the shell: what there is to write can be written. -/
def Unbroken (config : Config) : Env → List String → Prop
  | _, [] => True
  | env, line :: lines =>
    (reply config env line).fault = none ∧ Unbroken config (envAfter config env [line]) lines

section

variable (config : Config)

/-- An answer to a source is that to a run of it, and ends the shell only if it breaks it. -/
theorem answer_spec (outcome : Outcome Failure) :
    (answer outcome).env = outcome.env ∧
      (answer outcome).ends = (answer outcome).fault.isSome := by
  obtain ⟨result, env, trace⟩ := outcome
  cases result with
  | ok value => exact ⟨rfl, rfl⟩
  | error failure =>
      rw [answer]
      dsimp only
      cases failure.isTold <;> exact ⟨rfl, rfl⟩

theorem respond_env (env : Env) (request : Request) :
    (respond config env request).env =
      Session.after env (request.source?.toList.map fun source => (config, source)) := by
  cases request with
  | expression source => exact (answer_spec (Session.run config source env)).1
  | _ => rfl

theorem respond_ends (env : Env) (request : Request) :
    (respond config env request).ends =
      (request.ends || (respond config env request).fault.isSome) := by
  cases request with
  | expression source =>
      exact (answer_spec (Session.run config source env)).2.trans (Bool.false_or _).symm
  | bindings => exact (Bool.false_or (listBindings config.room env).fault.isSome).symm
  | _ => rfl

/-- The answer to a line runs its source, if it holds one. It ends the shell if the line does, or if
it breaks the shell. -/
theorem reply_spec (env : Env) (line : String) :
    (reply config env line).env = envAfter config env [line] ∧
      ((reply config env line).ends = true ↔
        (Line.ofString line).Ends ∨ (reply config env line).fault ≠ none) := by
  obtain ⟨hsource, hends⟩ := (Line.ofString line).request_spec
  rw [reply, respond_env, respond_ends, hsource, envAfter, sources, Bool.or_eq_true, hends,
    Option.isSome_iff_ne_none]
  refine ⟨?_, Iff.rfl⟩
  cases h : (Line.ofString line).source? <;> simp [h]

/-- A line that holds a source is answered as the run of the source is. -/
theorem reply_of_source? (env : Env) {line source : String}
    (h : (Line.ofString line).source? = some source) :
    reply config env line = answer (Session.run config source env) := by
  have hrequest := (Line.ofString line).request_spec.1
  rw [reply, Request.eq_expression (hrequest.trans h)]
  rfl

/-- A line that ends the shell does not break it. -/
theorem fault_reply_of_ends (env : Env) {line : String} (h : (Line.ofString line).Ends) :
    (reply config env line).fault = none := by
  have hends := (Line.ofString line).request_spec.2.2 h
  rw [reply]
  generalize (Line.ofString line).request = request at hends
  cases request <;> first | rfl | cases hends

/-- In a session of values from sources, the shell breaks at a value only that there is no room to
write. -/
theorem exists_write_of_fault_reply {env : Env} (henv : env.Holds (Value.Readable none))
    {line : String} {failure : Failure} (h : (reply config env line).fault = some failure) :
    ∃ value : Value, failure = .write value ∧ value.write config.room = none := by
  rw [reply] at h
  generalize (Line.ofString line).request = request at h
  cases request with
  | expression source =>
      change (answer (Session.run config source env)).fault = some failure at h
      rw [answer] at h
      cases hresult : (Session.run config source env).result with
      | ok value => simp [hresult] at h
      | error reason =>
          rw [hresult] at h
          cases htold : reason.isTold with
          | true => simp [htold] at h
          | false =>
              obtain rfl : reason = failure := by simpa [htold] using h
              exact Session.exists_write_of_untold config source henv hresult htold
  | bindings =>
      obtain ⟨value, hvalue, rfl⟩ := Option.map_eq_some_iff.1 h
      refine ⟨value, rfl, Value.write_eq_none_iff.2 ?_⟩
      -- there is one cell more than for a run, and that is not enough either
      rw [unlisted?] at hvalue
      obtain ⟨name, hname, hget⟩ := Option.bind_eq_some_iff.1 hvalue
      have hleft := List.find?_some hname
      rw [isListed, hget, Option.all_some, Bool.not_eq_true'] at hleft
      rw [← Bool.not_eq_true] at hleft ⊢
      exact mt (Room.isWithin_more config.room 1 _) hleft
  | _ => cases h

theorem envAfter_cons (env : Env) (line : String) (lines : List String) :
    envAfter config env (line :: lines) = envAfter config (envAfter config env [line]) lines := by
  simp only [envAfter, sources, List.filterMap_cons, List.filterMap_nil]
  cases (Line.ofString line).source? <;> rfl

theorem envAfter_append (env : Env) (lines more : List String) :
    envAfter config env (lines ++ more) = envAfter config (envAfter config env lines) more := by
  induction lines generalizing env with
  | nil => rfl
  | cons line lines ih => rw [List.cons_append, envAfter_cons, ih, ← envAfter_cons]

theorem envAfter_of_ends (env : Env) {line : String} (h : (Line.ofString line).Ends) :
    envAfter config env [line] = env := by
  have hnone : (Line.ofString line).source? = none := by
    rw [Line.source?, if_neg]
    rintro ⟨-, hcommand⟩
    rcases h with h | h <;> rw [h] at hcommand <;> revert hcommand <;> decide
  simp [envAfter, sources, hnone, Session.after]

theorem envAfter_readable {env : Env} (henv : env.Holds (Value.Readable none))
    (lines : List String) : (envAfter config env lines).Holds (Value.Readable none) :=
  Session.after_readable _ (fun _ _ _ _ => rfl) henv

/-- Lines break the shell, if they do, at the first of them that does. -/
theorem unbroken_or_breaks (env : Env) (lines : List String) :
    Unbroken config env lines ∨ ∃ done line rest failure, lines = done ++ line :: rest ∧
      Unbroken config env done ∧
      (reply config (envAfter config env done) line).fault = some failure := by
  induction lines generalizing env with
  | nil => exact .inl trivial
  | cons line lines ih =>
      cases hfault : (reply config env line).fault with
      | some failure => exact .inr ⟨[], line, lines, failure, rfl, trivial, hfault⟩
      | none =>
          rcases ih (envAfter config env [line]) with hlines | hbreaks
          · exact .inl ⟨hfault, hlines⟩
          · obtain ⟨done, next, rest, failure, rfl, hdone, hnext⟩ := hbreaks
            rw [← envAfter_cons] at hnext
            exact .inr ⟨line :: done, next, rest, failure, rfl, ⟨hfault, hdone⟩, hnext⟩

theorem unbroken_append_singleton {env : Env} {lines : List String} {last : String}
    (h : Unbroken config env lines)
    (hlast : (reply config (envAfter config env lines) last).fault = none) :
    Unbroken config env (lines ++ [last]) := by
  induction lines generalizing env with
  | nil => exact ⟨hlast, trivial⟩
  | cons line lines ih =>
      rw [envAfter_cons] at hlast
      exact ⟨h.1, ih h.2 hlast⟩

/-- What is written for lines that do not break the shell is a prompt and an answer for each. -/
theorem dialogue_exchanges {env : Env} {lines : List String} (h : Unbroken config env lines) :
    Dialogue config env lines (String.join (exchanges config env lines)) := by
  induction lines generalizing env with
  | nil => exact .nil env
  | cons line lines ih =>
      rw [exchanges, String.join_cons]
      exact .cons (answer_respond config env _ h.1) (ih h.2)

theorem exchanges_append (env : Env) (lines : List String) (last : String) :
    exchanges config env (lines ++ [last]) = exchanges config env lines ++
      [prompt ++ (reply config (envAfter config env lines) last).output] := by
  induction lines generalizing env with
  | nil => rfl
  | cons line lines ih =>
      rw [List.cons_append, exchanges, ih, exchanges, envAfter_cons config env line lines]
      rfl

end

/-! ## Line by line -/

/-- Nothing is read or written any more after the end. -/
theorem foldl_feed_of_ended (config : Config) {transcript : Transcript}
    (h : transcript.ended = true) (lines : List String) :
    lines.foldl (feed config) transcript = transcript := by
  induction lines with
  | nil => rfl
  | cons line lines ih => rw [List.foldl_cons, feed, if_pos h, ih]

/-- One more line is read: its source is run, if it holds one, and the shell ends if the line asks
for that or breaks it. A prompt and the answer are written. -/
theorem feed_spec (config : Config) {transcript : Transcript} (h : transcript.ended = false)
    (line : String) :
    let next := feed config transcript line
    next.env = envAfter config transcript.env [line] ∧
      (next.ended = true ↔ (Line.ofString line).Ends ∨ next.fault ≠ none) ∧
      next.fault = (reply config transcript.env line).fault ∧
      next.output = transcript.output ++ (prompt ++ (reply config transcript.env line).output) := by
  obtain ⟨henv, hends⟩ := reply_spec config transcript.env line
  intro next
  have hnext : next = ⟨transcript.output ++ prompt ++ (reply config transcript.env line).output,
      (reply config transcript.env line).env,
      transcript.trace ++ (reply config transcript.env line).trace,
      (reply config transcript.env line).ends, (reply config transcript.env line).fault⟩ := by
    change feed config transcript line = _
    rw [feed, h, if_neg Bool.false_ne_true]
  rw [hnext]
  dsimp only
  exact ⟨henv, hends, rfl, String.append_assoc⟩

/-- Lines that do not end the shell and do not break it are answered one after the other. -/
theorem foldl_feed (config : Config) {lines : List String}
    (hlines : ∀ line ∈ lines, ¬(Line.ofString line).Ends) {transcript : Transcript}
    (hunbroken : Unbroken config transcript.env lines) (h : transcript.ended = false)
    (hfault : transcript.fault = none) :
    let after := lines.foldl (feed config) transcript
    after.ended = false ∧ after.fault = none ∧
      after.env = envAfter config transcript.env lines ∧
      after.output = transcript.output ++ String.join (exchanges config transcript.env lines) := by
  induction lines generalizing transcript with
  | nil => exact ⟨h, hfault, rfl, by simp [exchanges]⟩
  | cons line lines ih =>
      obtain ⟨hline, hlines⟩ := List.forall_mem_cons.1 hlines
      obtain ⟨henv, hends, hsame, houtput⟩ := feed_spec config h line
      have hnone : (feed config transcript line).fault = none := hsame.trans hunbroken.1
      have hgoes : (feed config transcript line).ended = false := by
        rw [← Bool.not_eq_true, hends]
        exact not_or.2 ⟨hline, not_not_intro hnone⟩
      -- the lines that are left begin in the environment that this one leaves
      obtain ⟨hended, hquiet, hafter, hwritten⟩ := ih hlines (henv ▸ hunbroken.2) hgoes hnone
      refine ⟨hended, hquiet, ?_, ?_⟩
      · rw [List.foldl_cons, hafter, henv, ← envAfter_cons]
      · rw [List.foldl_cons, hwritten, henv, houtput, exchanges, String.join_cons,
          String.append_assoc]

theorem foldl_feed_start (config : Config) {lines : List String}
    (hlines : ∀ line ∈ lines, ¬(Line.ofString line).Ends) {env : Env}
    (hunbroken : Unbroken config env lines) :
    let after := lines.foldl (feed config) (.start env)
    after.ended = false ∧ after.env = envAfter config env lines ∧
      after.output = String.join (exchanges config env lines) := by
  have hstart : (Transcript.start env).env = env := rfl
  obtain ⟨hended, -, hafter, hwritten⟩ :=
    foldl_feed config hlines (hstart.symm ▸ hunbroken) rfl rfl
  rw [hstart] at hafter hwritten
  exact ⟨hended, hafter, hwritten.trans String.empty_append⟩

/-- The first line that ends the shell, with the lines before and after it. The end of the input
is such a line, so there always is one. -/
theorem exists_first_end (lines : List String) :
    ∃ answered last unread, lines ++ [Line.endWord] = answered ++ last :: unread ∧
      (∀ line ∈ answered, ¬(Line.ofString line).Ends) ∧ (Line.ofString last).Ends := by
  have hend : (Line.ofString Line.endWord).Ends := by decide +kernel
  have hsome : ((lines ++ [Line.endWord]).find? fun line => (Line.ofString line).Ends).isSome := by
    rw [List.find?_isSome]
    exact ⟨Line.endWord, by simp, decide_eq_true hend⟩
  obtain ⟨last, hfind⟩ := Option.isSome_iff_exists.1 hsome
  obtain ⟨hlast, answered, unread, hlines, hanswered⟩ := List.find?_eq_some_iff_append.1 hfind
  refine ⟨answered, last, unread, hlines, ?_, of_decide_eq_true hlast⟩
  intro line hmem
  simpa using hanswered line hmem

/-- A shell that reads an input up to one of its lines: it answers the lines before that one, and
ends at it. -/
structure Course (config : Config) (input : String) (env : Env) (answered : List String)
    (last : String) (unread : List String) : Prop where
  lines_eq : inputLines input = answered ++ last :: unread
  goes_on : ∀ line ∈ answered, ¬(Line.ofString line).Ends
  ends : (Line.ofString last).Ends
  ended : (run config input env).ended = true
  fault_eq : (run config input env).fault = none
  /-- What is written is a prompt for each line that is read, and the answer to this line alone. -/
  writes : Dialogue config env (answered ++ [last]) (run config input env).output
  /-- What the runs that fail have bound before they fail is kept. -/
  env_eq : (run config input env).env = envAfter config env answered

/-- If no line breaks the shell before the first one that ends it, the shell runs its course. -/
theorem course_of_unbroken {config : Config} {input : String} {env : Env} {answered : List String}
    {last : String} {unread : List String} (hlines : inputLines input = answered ++ last :: unread)
    (hanswered : ∀ line ∈ answered, ¬(Line.ofString line).Ends) (hlast : (Line.ofString last).Ends)
    (hunbroken : Unbroken config env answered) :
    Course config input env answered last unread := by
  obtain ⟨hgoes, hafter, hwritten⟩ := foldl_feed_start config hanswered hunbroken
  obtain ⟨hsame, hends, hfault, houtput⟩ := feed_spec config hgoes last
  have hwhole := unbroken_append_singleton config hunbroken
    (fault_reply_of_ends config (envAfter config env answered) hlast)
  have hrun : run config input env =
      feed config (answered.foldl (feed config) (.start env)) last := by
    rw [run, hlines, List.foldl_append, List.foldl_cons,
      foldl_feed_of_ended config (hends.2 (.inl hlast))]
  refine ⟨hlines, hanswered, hlast, ?_, ?_, ?_, ?_⟩
  · rw [hrun]
    exact hends.2 (.inl hlast)
  · rw [hrun, hfault]
    exact fault_reply_of_ends config _ hlast
  · have houtput' : (run config input env).output =
        String.join (exchanges config env (answered ++ [last])) := by
      rw [hrun, houtput, hwritten, hafter, exchanges_append, String.join_append, String.join_cons,
        String.join_nil, String.append_empty]
    rw [houtput']
    exact dialogue_exchanges config hwhole
  · rw [hrun, hsame, hafter]
    exact envAfter_of_ends config _ hlast

/-- If a line breaks the shell, this is how the shell ends. -/
theorem fault_run_of_breaks {config : Config} {input : String} {env : Env}
    {done rest : List String} {line : String} {failure : Failure}
    (hlines : inputLines input = done ++ line :: rest)
    (hdone : ∀ line ∈ done, ¬(Line.ofString line).Ends) (hunbroken : Unbroken config env done)
    (hline : (reply config (envAfter config env done) line).fault = some failure) :
    (run config input env).fault = some failure := by
  obtain ⟨hgoes, hafter, -⟩ := foldl_feed_start config hdone hunbroken
  obtain ⟨-, hends, hfault, -⟩ := feed_spec config hgoes line
  rw [hafter] at hfault
  have hsome := hfault.trans hline
  have hended := hends.2 (.inr (by rw [hsome]; exact Option.some_ne_none failure))
  rw [run, hlines, List.foldl_append, List.foldl_cons, foldl_feed_of_ended config hended, hsome]

/-- In a session that begins with values from sources, every input has its course: the lines are
answered up to the first one that ends the shell, which is told by its text. Only if there is a
value that is to be written and no room for that, the shell breaks. -/
theorem exists_course (config : Config) (input : String) {room : Room} {env : Env}
    (henv : env.Holds (Value.FromSource room)) :
    ((∃ answered last unread, Course config input env answered last unread) ∨
      ∃ value : Value, (run config input env).fault = some (.write value) ∧
        value.write config.room = none) ∧
      ∀ line, (Line.ofString line).Ends ↔ Line.SaysEnd (Text.trim line) := by
  refine ⟨?_, Line.ends_ofString_iff⟩
  obtain ⟨answered, last, unread, hlines, hanswered, hlast⟩ :=
    exists_first_end (Text.typedLines input)
  rcases unbroken_or_breaks config env answered with hunbroken | hbreaks
  · exact .inl ⟨answered, last, unread, course_of_unbroken hlines hanswered hlast hunbroken⟩
  · obtain ⟨done, line, rest, failure, rfl, hdone, hline⟩ := hbreaks
    have hgoes : ∀ line ∈ done, ¬(Line.ofString line).Ends := fun line hmem =>
      hanswered line (List.mem_append_left _ hmem)
    rw [List.append_assoc] at hlines
    have hfault := fault_run_of_breaks hlines hgoes hdone hline
    obtain ⟨value, rfl, hlost⟩ :=
      exists_write_of_fault_reply config (envAfter_readable config henv.readable done) hline
    exact .inr ⟨value, hfault, hlost⟩

/-- The first line fails after it has bound a name, the second holds a source after a colon, and
the last line is not read. -/
theorem exists_course_failing :
    let env := Env.ofList [("f", Session.negation)]
    let input := "(& (def a (f T)) z)\n: (def q a)\n:env\n:who\n exit \n(def r T)\n"
    ∃ answered last unread, Course {} input env answered last unread ∧
      (run {} input env).output =
        "lip> Failed to evaluate: `z` is not defined\n" ++
        "lip> F\n" ++
        "lip> f = (lambda (x) (^ x))\na = F\nq = F\n" ++
        "lip> Unknown command: :who\n" ++
        "lip> " ∧
      (envAfter {} env answered).names = ["f", "a", "q"] := by
  intro env input
  obtain ⟨hcourse | ⟨value, hfault, -⟩, -⟩ := exists_course {} input Session.holds_negation
  · obtain ⟨answered, last, unread, hcourse⟩ := hcourse
    refine ⟨answered, last, unread, hcourse, by decide +kernel, ?_⟩
    rw [← hcourse.env_eq]
    decide +kernel
  · have hnone : (run {} input env).fault = none := by decide +kernel
    cases hnone.symm.trans hfault

end PrefixLogic.Shell
