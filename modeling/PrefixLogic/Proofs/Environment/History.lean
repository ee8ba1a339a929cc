import Mathlib.Logic.Function.Basic
import PrefixLogic.Proofs.Environment.Outward
import PrefixLogic.Proofs.Environment.Visible

/-!
# What has been bound

What is visible in an environment can be told from the bindings that each scope has been given, in
the order in which they came (`Store.Recorded`). The visible names are those of all these bindings,
of the scopes from the inside out, each one where it comes first, and a name has the value that was
given last in the first scope that was given one (`Store.Recorded.shows`).
-/

namespace PrefixLogic

/-! ## Names in the order in which they come first -/

section

variable {α : Type} [DecidableEq α]

/-- What is left out does not matter to which of the others come first. -/
theorem eraseDups_filter (p : α → Bool) (list : List α) :
    (list.filter p).eraseDups = list.eraseDups.filter p := by
  match list with
  | [] => rfl
  | a :: rest =>
      have ih := eraseDups_filter p (rest.filter (! · == a))
      rw [List.eraseDups_cons]
      by_cases ha : p a = true
      · rw [List.filter_cons_of_pos ha, List.filter_cons_of_pos ha, List.eraseDups_cons, ← ih,
          List.filter_comm]
      · -- whatever is kept is another one
        have hsame : (rest.filter (! · == a)).filter p = rest.filter p := by
          rw [List.filter_filter]
          apply List.filter_congr
          intro b _
          by_cases hb : b = a
          · subst hb
            simp [ha]
          · simp [hb]
        rw [List.filter_cons_of_neg ha, List.filter_cons_of_neg ha, ← ih, hsame]
termination_by list.length
decreasing_by exact Nat.lt_succ_of_le (List.length_filter_le _ rest)

theorem eraseDups_append (front back : List α) :
    (front ++ back).eraseDups = front.eraseDups ++ back.eraseDups.filter (· ∉ front) := by
  rw [List.eraseDups_append, List.removeAll, eraseDups_filter]
  congr 1
  apply List.filter_congr
  intro a _
  rw [List.elem_eq_mem, decide_not]

end

namespace Scope

theorem ofList_append_singleton (bindings : List (String × Value)) (binding : String × Value) :
    ofList (bindings ++ [binding]) = (ofList bindings).insert binding.1 binding.2 := by
  rw [ofList, List.foldl_append]
  rfl

/-- A scope has each of the names it was made with where it came first. -/
theorem names_ofList (bindings : List (String × Value)) :
    (ofList bindings).names = (bindings.map Prod.fst).eraseDups := by
  induction bindings using List.reverseRecOn with
  | nil => rfl
  | append_singleton bindings binding ih =>
      rw [ofList_append_singleton, names_insert, ih, List.map_append, List.map_singleton,
        eraseDups_append]
      change _ = _ ++ [binding.1].filter _
      by_cases hmem : binding.1 ∈ bindings.map Prod.fst
      · rw [if_pos (List.mem_eraseDups.2 hmem), List.filter_cons,
          if_neg (mt of_decide_eq_true (not_not.2 hmem)), List.filter_nil, List.append_nil]
      · rw [if_neg (mt List.mem_eraseDups.1 hmem), List.filter_cons, if_pos (decide_eq_true hmem),
          List.filter_nil]

end Scope

namespace Env

/-- The names that are visible through scopes are those with which they were made, each one where it
comes first. -/
theorem visibleNames_map_ofList {α : Type} (given : α → List (String × Value)) (way : List α) :
    visibleNames (way.map fun scope => .ofList (given scope)) =
      ((way.flatMap given).map Prod.fst).eraseDups := by
  induction way with
  | nil => rfl
  | cons scope rest ih =>
      rw [List.map_cons, visibleNames, ih, List.flatMap_cons, List.map_append, eraseDups_append,
        Scope.names_ofList]
      congr 1
      apply List.filter_congr
      intro name _
      exact decide_eq_decide.2 (not_congr List.mem_eraseDups)

theorem nodup_names (env : Env) : env.names.Nodup := by
  rw [names]
  induction env.scopes with
  | nil => exact List.nodup_nil
  | cons scope rest ih =>
      rw [visibleNames, List.nodup_append]
      refine ⟨scope.nodup_names, ih.filter _, ?_⟩
      rintro name hname other hother rfl
      simp [hname] at hother

end Env

namespace Store

/-- Stores in which the scopes have been given bindings, oldest first: an environment is made over
an existing one or over none, with some bindings, and names are bound in existing ones. -/
inductive Recorded : Store → (Nat → List (String × Value)) → Prop
  | empty : Recorded [] fun _ => []
  | create {store : Store} {given : Nat → List (String × Value)} {outer : Option Nat}
      (bindings : List (String × Value)) : Recorded store given →
      (∀ handle ∈ outer, handle < store.length) →
      Recorded (store.create outer (.ofList bindings)) (Function.update given store.length bindings)
  | insert {store : Store} {given : Nat → List (String × Value)} {handle : Nat} (name : String)
      (value : Value) : Recorded store given → handle < store.length →
      Recorded (store.insert handle name value)
        (Function.update given handle (given handle ++ [(name, value)]))

/-- A way leads to environments of the store. -/
theorem Way.lt_length {store : Store} {handle : Nat} {way : List Nat} (h : store.Way handle way) :
    ∀ other ∈ way, other < store.length := by
  induction h with
  | last hcell _ => exact List.forall_mem_singleton.2 (lt_length_of_cell? hcell)
  | cons hcell _ _ ih => exact List.forall_mem_cons.2 ⟨lt_length_of_cell? hcell, ih⟩

namespace Recorded

variable {store : Store} {given : Nat → List (String × Value)} {handle : Nat}

theorem built (h : store.Recorded given) : store.Built := by
  induction h with
  | empty => exact .empty
  | create bindings _ houter ih => exact ih.create _ houter
  | insert name value _ hknown ih => exact ih.insert name value hknown

/-- A scope is the one that its bindings make, one after the other. -/
theorem scope?_eq (h : store.Recorded given) (hknown : handle < store.length) :
    store.scope? handle = some (.ofList (given handle)) := by
  induction h with
  | empty => exact absurd hknown (Nat.not_lt_zero handle)
  | @create store given outer bindings _ _ ih =>
      rw [Store.create, List.length_cons] at hknown
      rw [scope?, Store.create, cell?]
      by_cases hnew : handle = store.length
      · subst hnew
        rw [if_pos rfl, Function.update_self]
        rfl
      · rw [if_neg hnew, Function.update_of_ne hnew]
        exact ih (by omega)
  | @insert store given changed name value _ hchanged ih =>
      rw [insert_eq_setScope, length_setScope] at hknown
      rw [scope?, cell?_insert]
      by_cases hsame : handle = changed
      · subst hsame
        obtain ⟨cell, hcell, hscope⟩ := Option.map_eq_some_iff.1 (ih hchanged)
        rw [if_pos rfl, Function.update_self, hcell, Option.map_some, Option.map_some, hscope,
          Scope.ofList_append_singleton]
      · rw [if_neg hsame, Function.update_of_ne hsame]
        exact ih hknown

/-- What an environment shows is told by what the scopes on its way were given. Each visible name is
named once, by the innermost scope that was given it, in the order in which the names were new
there. Its value is the last one that this scope was given under the name. -/
theorem shows (h : store.Recorded given) (hknown : handle < store.length) :
    ∃ way, store.Way handle way ∧
      (store.env handle).names = ((way.flatMap given).map Prod.fst).eraseDups ∧
      ∀ name, (store.env handle).get? name =
        way.findSome? fun scope => (given scope).reverse.lookup name := by
  obtain ⟨way, hway⟩ := exists_way h.built hknown
  have hscopes : (store.env handle).scopes = way.map fun scope => .ofList (given scope) := by
    rw [hway.scopes_env h.built, ← List.filterMap_eq_map]
    apply List.filterMap_congr
    intro scope hscope
    exact h.scope?_eq (hway.lt_length scope hscope)
  refine ⟨way, hway, ?_, ?_⟩
  · rw [Env.names, hscopes, Env.visibleNames_map_ofList]
  · intro name
    rw [Env.get?, hscopes, List.findSome?_map]
    congr 1
    funext scope
    exact Scope.get?_ofList (given scope)

end Recorded

end Store

end PrefixLogic
