import PrefixLogic.Value

/-!
# Scopes

A scope binds names to values and keeps the names in the order in which they were first bound. A
name that is bound again keeps its place (`Scope.names_insert`) and takes the new value
(`Scope.get?_insert`).
-/

namespace PrefixLogic

/-- Bindings in order; no name is bound twice. -/
structure Scope where
  bindings : List (String × Value)
  distinct : (bindings.map Prod.fst).Nodup
  deriving DecidableEq

namespace Scope

/-! ## Bindings in order -/

/-- Binds a name in a list of bindings, in its place if it has one and else at the end. -/
def bind (name : String) (value : Value) : List (String × Value) → List (String × Value)
  | [] => [(name, value)]
  | binding :: rest =>
    if binding.1 = name then (name, value) :: rest else binding :: bind name value rest

theorem map_fst_bind (name : String) (value : Value) (bindings : List (String × Value)) :
    (bind name value bindings).map Prod.fst =
      if name ∈ bindings.map Prod.fst then bindings.map Prod.fst
      else bindings.map Prod.fst ++ [name] := by
  induction bindings with
  | nil => simp [bind]
  | cons binding rest ih =>
    by_cases h : binding.1 = name
    · simp [bind, h]
    · have h' : ¬name = binding.1 := fun eq => h eq.symm
      by_cases hm : name ∈ rest.map Prod.fst <;>
        simp only [bind, h, if_false, List.map_cons, List.mem_cons, h', false_or, hm, if_true, ih,
          List.cons_append]

theorem lookup_bind (name : String) (value : Value) (bindings : List (String × Value))
    (x : String) :
    (bind name value bindings).lookup x =
      if x = name then some value else bindings.lookup x := by
  have beq_false {a b : String} (h : ¬a = b) : (a == b) = false := by simp [h]
  induction bindings with
  | nil => by_cases h : x = name <;> simp [bind, List.lookup_cons, h, beq_false]
  | cons binding rest ih =>
    obtain ⟨key, old⟩ := binding
    by_cases h : key = name
    · subst h
      by_cases hx : x = key <;> simp [bind, List.lookup_cons, hx, beq_false]
    · by_cases hk : x = key
      · subst hk
        simp [bind, h]
      · simp [bind, List.lookup_cons, h, beq_false hk, ih]

/-! ## Operations -/

/-- The scope without bindings. -/
def empty : Scope := ⟨[], List.nodup_nil⟩

/-- The names of a scope, in order. -/
def names (scope : Scope) : List String := scope.bindings.map Prod.fst

/-- The value of a name. -/
def get? (scope : Scope) (name : String) : Option Value := scope.bindings.lookup name

/-- Binds a name, in its place if it has one and else after all others. -/
def insert (scope : Scope) (name : String) (value : Value) : Scope where
  bindings := bind name value scope.bindings
  distinct := by
    rw [map_fst_bind]
    split
    · exact scope.distinct
    next h => simpa [List.nodup_append, scope.distinct] using fun a b mem eq => h (by grind)

/-- The scope made by binding names one after the other. -/
def ofList (bindings : List (String × Value)) : Scope :=
  bindings.foldl (fun scope binding => scope.insert binding.1 binding.2) empty

/-- The text of a scope: its bindings in order, as name and value. -/
def text (scope : Scope) : String :=
  ", ".intercalate (scope.bindings.map fun binding => binding.1 ++ ": " ++ binding.2.text)

@[simp] theorem get?_empty (name : String) : empty.get? name = none := rfl

@[simp] theorem get?_insert (scope : Scope) (name : String) (value : Value) (x : String) :
    (scope.insert name value).get? x = if x = name then some value else scope.get? x :=
  lookup_bind name value scope.bindings x

theorem names_insert (scope : Scope) (name : String) (value : Value) :
    (scope.insert name value).names =
      if name ∈ scope.names then scope.names else scope.names ++ [name] :=
  map_fst_bind name value scope.bindings

theorem nodup_names (scope : Scope) : scope.names.Nodup := scope.distinct

end Scope

end PrefixLogic
