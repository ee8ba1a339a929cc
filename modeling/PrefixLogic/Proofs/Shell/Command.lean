import PrefixLogic.Proofs.Session.Source
import PrefixLogic.Proofs.Shell.Course

/-!
# Lines that start with a colon

The leading word after a colon is a command. If there is none, and no question mark either, the
text after the colon is answered as an expression (`Shell.reply_of_colon`), although no text was
meant to be evaluated there. It binds names only if it begins with an open parenthesis.
-/

namespace PrefixLogic.Shell

namespace Line

/-- A text with a leading word, or with a question mark that stands for one. The empty text has
nothing else to be answered. -/
def LeadsCommand (text : String) : Prop :=
  ∀ c ∈ text.toList.head?, isCommandChar c = true ∨ c = '?'

/-- A text is the source of the line that is taken apart from it exactly if no word leads it. -/
theorem source?_ofWords (c : Char) (rest : List Char) :
    (ofWords (c :: rest)).source? =
      if isCommandChar c then none else some (String.ofList (c :: rest)) := by
  rw [ofWords, source?]
  by_cases hc : isCommandChar c = true
  · simp [hc]
  · simp [hc]

/-- What comes after a colon is a source exactly if it leads no command. -/
theorem source?_ofCommand (line : String) :
    (LeadsCommand (Text.trim line) → (ofCommand line).source? = none) ∧
      (¬LeadsCommand (Text.trim line) → (ofCommand line).source? = some (Text.trim line)) := by
  rw [ofCommand, LeadsCommand]
  generalize Text.trim line = text
  split
  case h_1 htext => simp [htext, source?]
  case h_2 rest htext =>
    have hword : (ofWords ("help ".toList ++ rest)).source? = none := source?_ofWords 'h' _
    exact ⟨fun _ => hword, fun hnone => absurd (by simp [htext]) hnone⟩
  case h_3 rest htext =>
    have hmark : ¬isCommandChar '!' = true := by decide
    have hne : text ≠ "" := by
      rintro rfl
      cases htext
    rw [← htext, String.ofList_toList]
    simp [htext, hmark, source?, hne]
  case h_4 hnil hquestion _ =>
    obtain ⟨c, rest, htext⟩ := List.exists_cons_of_ne_nil hnil
    have hc : c ≠ '?' := by
      rintro rfl
      exact hquestion rest htext
    rw [htext, source?_ofWords, ← htext, String.ofList_toList]
    simp [htext, hc]

end Line

/-- A request without a source changes nothing. -/
theorem respond_of_source?_eq_none (config : Config) (env : Env) {request : Request}
    (h : request.source? = none) :
    (respond config env request).env = env ∧ (respond config env request).trace = [] := by
  cases request with
  | expression source => cases h
  | _ => exact ⟨rfl, rfl⟩

/-- A line that starts with a colon evaluates nothing if a command, a question mark or nothing is
left of it after the colon. Everything else that may be left is answered as an expression is. The
environment changes only if that begins with an open parenthesis. -/
theorem reply_of_colon (config : Config) (env : Env) {line : String} {rest : List Char}
    (hline : (Text.trim line).toList = ':' :: rest) :
    let left := Text.trim (String.ofList rest)
    (Line.LeadsCommand left →
        (Line.ofString line).source? = none ∧ (reply config env line).env = env ∧
          (reply config env line).trace = []) ∧
      (¬Line.LeadsCommand left →
        reply config env line = respond config env (.expression left)) ∧
      (left.toList.head? ≠ some '(' → (reply config env line).env = env) := by
  intro left
  have hofString : Line.ofString line = Line.ofCommand (String.ofList rest) := by
    rw [Line.ofString]
    split
    case h_1 other htext =>
      obtain rfl : other = rest := (List.cons.inj (htext.symm.trans hline)).2
      rfl
    case h_2 hnone => exact absurd hline (hnone rest)
  have hrequest := (Line.ofString line).request_spec.1
  obtain ⟨hcommand, hsource⟩ := Line.source?_ofCommand (String.ofList rest)
  -- from here on only what is left after the colon counts
  rw [← hofString] at hcommand hsource
  have hanswer (hleft : ¬Line.LeadsCommand left) :
      reply config env line = respond config env (.expression left) := by
    rw [reply, Request.eq_expression (hrequest.trans (hsource hleft))]
  refine ⟨?_, hanswer, ?_⟩
  · intro hleft
    have hnone := hcommand hleft
    exact ⟨hnone, respond_of_source?_eq_none config env (hrequest.trans hnone)⟩
  · intro hparen
    by_cases hleft : Line.LeadsCommand left
    · exact (respond_of_source?_eq_none config env (hrequest.trans (hcommand hleft))).1
    · rw [hanswer hleft, respond_env]
      change (Session.run config (Text.trim (String.ofList rest)) env).env = env
      rw [(Session.run_trim config (String.ofList rest) env).2]
      exact Session.env_run_of_head? config hparen env

/-- Neither the blanks around a colon nor a question mark after the first character matter. -/
theorem reply_of_colon_call :
    let line := " : (? T)"
    (Text.trim line).toList = ':' :: " (? T)".toList ∧
      reply {} .empty line = respond {} .empty (.expression "(? T)") ∧
      (reply {} .empty ":?(def q T)").env = .empty := by
  intro line
  have hline : (Text.trim line).toList = ':' :: " (? T)".toList := by decide +kernel
  have hmark : (Text.trim ":?(def q T)").toList = ':' :: "?(def q T)".toList := by decide +kernel
  obtain ⟨-, hanswer, -⟩ := reply_of_colon {} .empty hline
  obtain ⟨-, -, henv⟩ := reply_of_colon {} .empty hmark
  have hleft : Text.trim (String.ofList " (? T)".toList) = "(? T)" := by decide +kernel
  rw [hleft] at hanswer
  refine ⟨hline, hanswer ?_, henv (by decide +kernel)⟩
  intro hcommand
  exact absurd (hcommand '(' rfl) (by decide)

/-- A definition after a colon is evaluated. -/
theorem reply_of_colon_binds :
    let line := ":(def q T)"
    (Text.trim line).toList.head? = some ':' ∧
      (Line.ofString line).source? = some "(def q T)" ∧
      (reply {} .empty line).env.names = ["q"] := by
  decide +kernel

end PrefixLogic.Shell
