import PrefixLogic.Failure
import PrefixLogic.Text.Quoted

/-!
# Traces

While a source is run, events are recorded in order. Every event has a level, and a trace holds
the events whose level does not exceed the verbosity asked for. Each event is written on a line,
which takes room.
-/

namespace PrefixLogic

/-- An event of a run. -/
inductive Event where
  | input (source : String)
  | result (value : Value)
  | failed (failure : Failure)
  | defined (name : String) (value : Value)
  | called (params : List String) (body : Expr) (arguments : List Value)
  | visited (expr : Expr)
  | decided (test : Expr) (value : Bool)
  deriving DecidableEq, Repr

namespace Event

/-- The least verbosity at which an event is recorded: 1 for what goes in and comes out, 2 for
bindings and calls, 3 for single steps. -/
def level : Event → Int
  | input _ | result _ | failed _ => 1
  | defined _ _ | called _ _ _ => 2
  | visited _ | decided _ _ => 3

theorem level_pos (event : Event) : 0 < event.level := by
  cases event <;> simp [level]

theorem level_le (event : Event) : event.level ≤ 3 := by
  cases event <;> simp [level]

/-- Whether an event is recorded at a verbosity. -/
def isRecorded (verbosity : Int) (event : Event) : Bool := event.level ≤ verbosity

/-- The text of an event. -/
def text : Event → String
  | input source => "input " ++ Text.quoted source
  | result value => "result " ++ value.text
  | failed failure => "error " ++ failure.text
  | defined name value => "def " ++ name ++ " = " ++ value.text
  | called params body arguments =>
    "call " ++ (Value.lambda params body).text ++ " with (" ++
      " ".intercalate (arguments.map Value.text) ++ ")"
  | visited expr => "eval " ++ expr.text
  | decided test value => "if condition " ++ test.text ++ " -> " ++ Expr.boolText value

/-- The cells that the text of an event takes: one more than what is quoted, and one more still for
the list of arguments that is being made. -/
def cells : Event → Nat
  | input _ | failed _ => 0
  | result value | defined _ value => value.cells + 1
  | called params body arguments =>
    max ((Value.lambda params body).cells + 1) ((arguments.map Value.cells).foldr max 0 + 2)
  | visited expr => expr.cells + 1
  | decided test _ => test.cells + 1

end Event

/-- The events of a run that were recorded, oldest first. -/
abbrev Trace := List Event

namespace Trace

/-- The trace of one event at a verbosity. -/
def ofEvent (verbosity : Int) (event : Event) : Trace :=
  if event.isRecorded verbosity then [event] else []

theorem eq_of_mem_ofEvent {verbosity : Int} {event other : Event}
    (h : event ∈ ofEvent verbosity other) : event = other := by
  rw [ofEvent] at h
  split at h
  · exact List.mem_singleton.1 h
  · cases h

/-- The text of a trace, a line for each event. -/
def text (trace : Trace) : String := String.join (trace.map fun event => event.text ++ "\n")

end Trace

end PrefixLogic
