import PrefixLogic.Environment.Scope

/-!
# Environments

An environment is a chain of scopes. A name is looked up from the innermost scope outwards, and
only the innermost scope ever takes a new binding. A call runs its body in a further scope that is
dropped when the call ends (`Env.leave_enter`).
-/

namespace PrefixLogic

/-- A chain of scopes: the innermost one, then the outer ones from the inside out. -/
@[ext]
structure Env where
  inner : Scope
  outer : List Scope
  deriving DecidableEq

namespace Env

/-- All scopes, from the inside out. -/
def scopes (env : Env) : List Scope := env.inner :: env.outer

/-- The environment of one scope with the given bindings. -/
def ofList (bindings : List (String × Value)) : Env := ⟨.ofList bindings, []⟩

/-- The environment that binds nothing. -/
def empty : Env := ⟨.empty, []⟩

/-- The value of a name in the first scope that binds it. -/
def get? (env : Env) (name : String) : Option Value := env.scopes.findSome? (·.get? name)

/-- Binds a name in the innermost scope. -/
def insert (env : Env) (name : String) (value : Value) : Env :=
  { env with inner := env.inner.insert name value }

/-- The names visible through a chain of scopes, each one where it is seen first. -/
def visibleNames : List Scope → List String
  | [] => []
  | scope :: rest => scope.names ++ (visibleNames rest).filter (· ∉ scope.names)

/-- The visible names, innermost scope first. -/
def names (env : Env) : List String := visibleNames env.scopes

/-- The text of a chain of scopes, each outer scope inside the text of the one before it. -/
def chainText : List Scope → String
  | [] => "None"
  | scope :: rest => "Environment(\x7b" ++ scope.text ++ "\x7d, outer=" ++ chainText rest ++ ")"

/-- The text of an environment, whatever room it takes. -/
def text (env : Env) : String := chainText env.scopes

/-- The environment inside a call: a further scope around which everything else stays visible. -/
def enter (env : Env) (frame : Scope) : Env := ⟨frame, env.scopes⟩

/-- The environment outside the innermost scope. -/
def leave (env : Env) : Env :=
  match env.outer with
  | [] => empty
  | scope :: rest => ⟨scope, rest⟩

@[simp] theorem leave_enter (env : Env) (frame : Scope) : (env.enter frame).leave = env := rfl

theorem get?_insert (env : Env) (name : String) (value : Value) (x : String) :
    (env.insert name value).get? x = if x = name then some value else env.get? x := by
  by_cases h : x = name <;> simp [get?, scopes, insert, List.findSome?_cons, h]

end Env

end PrefixLogic
