import Mathlib.Data.List.Basic
import Mathlib.Data.Prod.Basic
import PrefixLogic.Environment

/-!
# Growing scopes

A scope grows when names are bound in it one after the other: the names that it had stay in their
places, new ones come after them, and only names that were bound have another value
(`Scope.Grows`). A scope is known by its names in order and their values (`Scope.ext_get?`), so a
scope that grows by no name is the same scope (`Scope.Grows.eq_of_nil`).
-/

namespace PrefixLogic

namespace Scope

/-! ## Names and values -/

theorem lookup_of_mem {name : String} {value : Value} : ∀ {bindings : List (String × Value)},
    (bindings.map Prod.fst).Nodup → (name, value) ∈ bindings →
      bindings.lookup name = some value
  | (other, value') :: rest, hdistinct, hmem => by
      obtain ⟨hfresh, hdistinct⟩ := List.nodup_cons.1 hdistinct
      rcases List.mem_cons.1 hmem with heq | hmem
      · cases heq
        exact List.lookup_cons_self
      · have hmem' : name ∈ rest.map Prod.fst := List.mem_map_of_mem hmem
        have hne : (name == other) = false := by
          rw [beq_eq_false_iff_ne]
          exact fun heq => hfresh (heq ▸ hmem')
        rw [List.lookup_cons, hne]
        exact lookup_of_mem hdistinct hmem

/-- The names with their values, in order, are the bindings. -/
theorem map_get?_names (scope : Scope) :
    scope.names.map (fun name => (name, scope.get? name)) =
      scope.bindings.map (Prod.map id some) := by
  rw [names, List.map_map]
  apply List.map_congr_left
  intro binding hmem
  exact Prod.ext rfl (lookup_of_mem scope.distinct hmem)

/-- Scopes with the same names in the same order and the same values are the same. -/
theorem ext_get? {scope other : Scope} (hnames : scope.names = other.names)
    (hget : ∀ name, scope.get? name = other.get? name) : scope = other := by
  have hbindings :
      scope.bindings.map (Prod.map id some) = other.bindings.map (Prod.map id some) := by
    rw [← map_get?_names, ← map_get?_names, hnames]
    simp only [hget]
  have hinj : Function.Injective (Prod.map id some : String × Value → String × Option Value) :=
    Function.injective_id.prodMap fun _ _ => Option.some.inj
  obtain ⟨bindings, _⟩ := scope
  obtain ⟨others, _⟩ := other
  obtain rfl : bindings = others := List.map_injective_iff.2 hinj hbindings
  rfl

theorem get?_eq_none_iff (scope : Scope) (name : String) :
    scope.get? name = none ↔ name ∉ scope.names := by
  rw [get?, List.lookup_eq_none_iff, names, List.mem_map]
  constructor
  · rintro h ⟨binding, hmem, rfl⟩
    simpa using h binding hmem
  · intro h binding hmem
    rw [bne_iff_ne]
    exact fun heq => h ⟨binding, hmem, heq.symm⟩

/-! ## Growth -/

/-- A scope has grown by bindings of the given names: the names that it had stay where they are, and
a binding is new or different only under one of the given names. -/
structure Grows (names : List String) (before after : Scope) : Prop where
  names_prefix : before.names <+: after.names
  mem_of_get?_ne : ∀ name, after.get? name ≠ before.get? name → name ∈ names

namespace Grows

variable {names more : List String} {before middle after : Scope}

theorem refl (scope : Scope) : Grows names scope scope :=
  ⟨List.prefix_rfl, fun _ hne => absurd rfl hne⟩

theorem trans (h : Grows names before middle) (h' : Grows names middle after) :
    Grows names before after := by
  refine ⟨h.names_prefix.trans h'.names_prefix, ?_⟩
  intro name hne
  -- a binding that is another one in the end was changed in one of the two parts
  by_cases heq : after.get? name = middle.get? name
  · exact h.mem_of_get?_ne name (heq ▸ hne)
  · exact h'.mem_of_get?_ne name heq

theorem mono (h : Grows names before after) (hsub : names ⊆ more) : Grows more before after := by
  refine ⟨h.names_prefix, ?_⟩
  intro name hne
  exact hsub (h.mem_of_get?_ne name hne)

theorem insert (scope : Scope) {name : String} (value : Value) (hname : name ∈ names) :
    Grows names scope (scope.insert name value) := by
  constructor
  · rw [names_insert]
    split
    · exact List.prefix_rfl
    · exact List.prefix_append _ _
  · intro other hne
    rw [get?_insert] at hne
    by_cases heq : other = name
    · exact heq ▸ hname
    · rw [if_neg heq] at hne
      exact absurd rfl hne

/-- No name, no growth: a name that came after the others would have a value of its own. -/
theorem eq_of_nil (h : Grows [] before after) : after = before := by
  have hget : ∀ name, after.get? name = before.get? name := by
    intro name
    by_contra hne
    exact List.not_mem_nil (h.mem_of_get?_ne name hne)
  obtain ⟨added, hadded⟩ := h.names_prefix
  cases added with
  | nil => exact ext_get? (by rw [← hadded, List.append_nil]) hget
  | cons name added =>
      have hdistinct := nodup_names after
      rw [← hadded, List.nodup_append] at hdistinct
      have hnew : name ∉ before.names := fun hmem =>
        hdistinct.2.2 name hmem name List.mem_cons_self rfl
      have hold : name ∈ after.names := by simp [← hadded]
      rw [← get?_eq_none_iff, ← hget, get?_eq_none_iff] at hnew
      exact absurd hold hnew

end Grows

end Scope

end PrefixLogic
