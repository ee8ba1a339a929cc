import PrefixLogic.Proofs.Environment.Flattening
import PrefixLogic.Proofs.Environment.Growth

/-!
# What an environment shows

The values that are visible through a chain of scopes, and what becomes of them when a name is bound
and when a call begins. A property of all visible values, or of those under some names
(`Env.Shows`), is kept if the new values have it.
-/

namespace PrefixLogic

theorem Scope.mem_bindings_of_get? {scope : Scope} {name : String} {value : Value}
    (h : scope.get? name = some value) : (name, value) ∈ scope.bindings := by
  obtain ⟨before, after, hbindings, -⟩ := List.lookup_eq_some_iff.1 h
  rw [hbindings]
  exact List.mem_append_right _ List.mem_cons_self

namespace Env

variable {env : Env} {name : String} {value : Value}

theorem get?_eq_inner_or (env : Env) (name : String) :
    env.get? name = (env.inner.get? name).or (env.outer.findSome? (·.get? name)) :=
  Scope.findSome?_cons env.inner env.outer

/-- Inside a call, names are looked up first in the scope of the call. -/
theorem get?_enter (env : Env) (frame : Scope) (name : String) :
    (env.enter frame).get? name = (frame.get? name).or (env.get? name) :=
  Scope.findSome?_cons frame env.scopes

theorem get?_enter_empty (env : Env) (name : String) :
    (env.enter .empty).get? name = env.get? name := by
  rw [get?_enter, Scope.get?_empty, Option.none_or]

/-- A visible name is bound in one of the scopes. -/
theorem exists_mem_bindings_of_get? (h : env.get? name = some value) :
    ∃ scope ∈ env.scopes, (name, value) ∈ scope.bindings := by
  obtain ⟨scope, hscope, hget⟩ := List.exists_of_findSome?_eq_some h
  exact ⟨scope, hscope, Scope.mem_bindings_of_get? hget⟩

/-- The visible names are those under which the environment shows a value. -/
theorem mem_names_iff (env : Env) (name : String) : name ∈ env.names ↔ env.get? name ≠ none := by
  rw [names, get?]
  induction env.scopes with
  | nil => simp [visibleNames]
  | cons scope rest ih =>
      rw [visibleNames, Scope.findSome?_cons, List.mem_append, List.mem_filter, ih]
      by_cases hmem : name ∈ scope.names
      · have hget : scope.get? name ≠ none :=
          fun hnone => (scope.get?_eq_none_iff name).1 hnone hmem
        simp [hmem, hget]
      · simp [hmem, (scope.get?_eq_none_iff name).2 hmem]

/-! ## Properties of the visible values -/

/-- Every value that is visible under one of the names has the property. -/
def Shows (names : String → Prop) (property : Value → Prop) (env : Env) : Prop :=
  ∀ name, names name → ∀ value, env.get? name = some value → property value

namespace Shows

variable {names : String → Prop} {property : Value → Prop}

theorem insert (h : env.Shows names property) (name : String) (hvalue : property value) :
    (env.insert name value).Shows names property := by
  intro other hother shown hshown
  rw [get?_insert] at hshown
  split at hshown
  · cases hshown
    exact hvalue
  · exact h other hother shown hshown

theorem enter (h : env.Shows names property) (params : List String) {arguments : List Value}
    (harguments : ∀ argument ∈ arguments, property argument) :
    (env.enter (.ofList (params.zip arguments))).Shows names property := by
  intro name hname value hvalue
  rw [get?_enter, Option.or_eq_some_iff] at hvalue
  rcases hvalue with hframe | ⟨-, hvalue⟩
  · -- the scope of a call binds nothing but its arguments
    rw [Scope.get?_ofList, List.lookup_eq_some_iff] at hframe
    obtain ⟨before, after, hzip, -⟩ := hframe
    have hmem : (name, value) ∈ params.zip arguments := by
      rw [← List.mem_reverse, hzip]
      exact List.mem_append_right _ List.mem_cons_self
    exact harguments value (List.of_mem_zip hmem).2
  · exact h name hname value hvalue

end Shows

/-! ## Properties of the bound values -/

/-- Every value that is bound in one of the scopes has the property, whether it is visible or
not. -/
def Holds (property : Value → Prop) (env : Env) : Prop :=
  ∀ scope ∈ env.scopes, ∀ binding ∈ scope.bindings, property binding.2

variable {property : Value → Prop}

theorem holds_empty : empty.Holds property := by
  intro scope hscope binding hbinding
  rw [List.mem_singleton.1 hscope] at hbinding
  cases hbinding

theorem Holds.shows (h : env.Holds property) (names : String → Prop) :
    env.Shows names property := by
  intro name _ value hvalue
  obtain ⟨scope, hscope, hmem⟩ := exists_mem_bindings_of_get? hvalue
  exact h scope hscope _ hmem

/-- If the outer scopes are as they were, only what is visible may be new. -/
theorem Shows.holds {before : Env} (h : env.Shows (fun _ => True) property)
    (hbefore : before.Holds property) (houter : env.outer = before.outer) :
    env.Holds property := by
  intro scope hscope binding hmem
  rcases List.mem_cons.1 hscope with rfl | hscope
  · apply h binding.1 trivial
    rw [get?_eq_inner_or, Scope.get?, Scope.lookup_of_mem env.inner.distinct hmem]
    rfl
  · rw [houter] at hscope
    exact hbefore scope (List.mem_cons_of_mem _ hscope) binding hmem

end Env

end PrefixLogic
