import Mathlib.Data.Finmap
import PrefixLogic.Environment

/-!
# Environments as one map

A chain of scopes shows one value for each name, and can be flattened to a finite map that has the
same values (`Env.lookup_flatten`). A further scope of bindings around the chain overrides that map,
and the last one of several bindings of a name counts (`FlatMap.lookup_override_enter`).
-/

namespace PrefixLogic

/-- A finite map from names to values. -/
abbrev FlatMap := Finmap fun _ : String => Value

namespace Scope

variable {name : String}

theorem lookup_cons (binding : String × Value) (rest : List (String × Value)) :
    (binding :: rest).lookup name =
      if name = binding.1 then some binding.2 else rest.lookup name := by
  rw [List.lookup_cons]
  by_cases heq : name = binding.1
  · rw [beq_iff_eq.2 heq, if_pos heq]
  · rw [beq_eq_false_iff_ne.2 heq, if_neg heq]

/-- Of the bindings that a scope is made from, the last one of a name counts. -/
theorem get?_ofList (bindings : List (String × Value)) :
    (ofList bindings).get? name = bindings.reverse.lookup name := by
  rw [ofList, ← List.foldr_reverse]
  induction bindings.reverse with
  | nil => rfl
  | cons binding rest ih => rw [List.foldr_cons, get?_insert, ih, lookup_cons]

theorem findSome?_cons (scope : Scope) (rest : List Scope) :
    (scope :: rest).findSome? (·.get? name) =
      (scope.get? name).or (rest.findSome? (·.get? name)) := by
  rw [List.findSome?_cons]
  cases scope.get? name <;> rfl

end Scope

namespace FlatMap

/-- The map after bindings that are made one after the other; the last one of a name counts. -/
def override (map : FlatMap) (bindings : List (String × Value)) : FlatMap :=
  bindings.foldl (fun map binding => map.insert binding.1 binding.2) map

theorem lookup_insert (map : FlatMap) (name : String) (value : Value) (x : String) :
    (map.insert name value).lookup x = if x = name then some value else map.lookup x := by
  by_cases heq : x = name
  · rw [if_pos heq, heq, Finmap.lookup_insert]
  · rw [if_neg heq, Finmap.lookup_insert_of_ne map heq]

theorem lookup_override (map : FlatMap) (bindings : List (String × Value)) (x : String) :
    (map.override bindings).lookup x = (bindings.reverse.lookup x).or (map.lookup x) := by
  rw [override, ← List.foldr_reverse]
  induction bindings.reverse with
  | nil => rfl
  | cons binding rest ih =>
      rw [List.foldr_cons, lookup_insert, ih, Scope.lookup_cons]
      split <;> rfl

/-- Inside a call, names are looked up first among the bindings of the call. -/
theorem lookup_override_enter {map : FlatMap} {env : Env}
    (h : ∀ name, map.lookup name = env.get? name) (bindings : List (String × Value))
    (name : String) :
    (map.override bindings).lookup name = (env.enter (.ofList bindings)).get? name := by
  rw [lookup_override, h, ← Scope.get?_ofList]
  exact (Scope.findSome?_cons (.ofList bindings) env.scopes).symm

end FlatMap

namespace Env

/-- The map of what an environment shows: the bindings of all scopes, the outermost ones first. -/
def flatten (env : Env) : FlatMap :=
  FlatMap.override ∅ (env.scopes.flatMap Scope.bindings).reverse

theorem lookup_flatten (env : Env) (name : String) : env.flatten.lookup name = env.get? name := by
  rw [flatten, FlatMap.lookup_override, List.reverse_reverse, Finmap.lookup_empty, Option.or_none,
    get?]
  induction env.scopes with
  | nil => rfl
  | cons scope rest ih =>
      rw [List.flatMap_cons, List.lookup_append, Scope.findSome?_cons, ih]
      rfl

end Env

end PrefixLogic
