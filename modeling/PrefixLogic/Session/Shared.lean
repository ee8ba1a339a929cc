import PrefixLogic.Environment.Store
import PrefixLogic.Session

/-!
# Running in shared environments

An expression or a source can be run in any environment of a store. The run sees the whole chain
of that environment, and the chain as the run left it goes back into the store.
-/

namespace PrefixLogic.Store

variable {ε : Type}

/-- Does a run in one of the environments of a store. -/
def runIn (store : Store) (handle : Nat) (run : Env → Outcome ε) : Outcome ε × Store :=
  let outcome := run (store.env handle)
  (outcome, store.setEnv handle outcome.env)

/-- Evaluates an expression in one of the environments of a store. -/
def evaluate (config : Config) (expr : Expr) (store : Store) (handle : Nat) :
    Outcome EvalError × Store :=
  store.runIn handle (expr.evaluate config)

/-- Runs a source in one of the environments of a store. -/
def run (config : Config) (source : String) (store : Store) (handle : Nat) :
    Outcome Failure × Store :=
  store.runIn handle (Session.run config source)

end PrefixLogic.Store
