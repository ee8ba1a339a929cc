import PrefixLogic.Environment

/-!
# Environments that share scopes

Environments made over existing ones share the scopes of those: what is bound in an environment
is seen by all environments over it, unless a scope in between binds the name. A store holds all
of them. An environment is made over an older one, so every chain ends.
-/

namespace PrefixLogic

/-- An environment of a store: its own scope, and the environment that it was made over. -/
structure Cell where
  scope : Scope
  outer : Option Nat
  deriving DecidableEq

/-- Environments that may share scopes, newest first. The handle of an environment is the number
of environments that are older. -/
abbrev Store := List Cell

namespace Store

/-- The scopes of the environment with a given handle, from the inside out. -/
def chain : Store → Nat → List Scope
  | [], _ => []
  | cell :: older, handle =>
    if handle = older.length then
      cell.scope ::
        match cell.outer with
        | none => []
        | some outer => chain older outer
    else chain older handle

/-- Puts scopes in the place of those of an environment, from the inside out. -/
def setChain : Store → Nat → List Scope → Store
  | [], _, _ => []
  | cell :: older, _, [] => cell :: older
  | cell :: older, handle, scope :: scopes =>
    if handle = older.length then
      { cell with scope := scope } ::
        match cell.outer with
        | none => older
        | some outer => setChain older outer scopes
    else cell :: setChain older handle (scope :: scopes)

/-- The environment with a given handle; an unknown handle stands for an empty one. -/
def env (store : Store) (handle : Nat) : Env :=
  match store.chain handle with
  | [] => .empty
  | scope :: rest => ⟨scope, rest⟩

/-- Puts an environment in the place of the one with a given handle. -/
def setEnv (store : Store) (handle : Nat) (env : Env) : Store :=
  store.setChain handle env.scopes

/-- Makes an environment over an existing one, or over none. Its handle is the number of
environments that were there before. -/
def create (store : Store) (outer : Option Nat) (scope : Scope) : Store := ⟨scope, outer⟩ :: store

/-- Binds a name in the scope of an environment. -/
def insert (store : Store) (handle : Nat) (name : String) (value : Value) : Store :=
  store.setEnv handle ((store.env handle).insert name value)

end Store

end PrefixLogic
