import PrefixLogic.Environment.Store

/-!
# One environment among those that share scopes

Reading and writing back the chain of an environment, seen at each environment of the store
(`Store.cell?`): the chain put back as it was changes nothing (`Store.setEnv_env`), and a chain of
which only the innermost scope is another one changes only the scope of that environment
(`Store.setEnv_eq_setScope`).
-/

namespace PrefixLogic

namespace Store

/-- The environment with a given handle. -/
def cell? : Store → Nat → Option Cell
  | [], _ => none
  | cell :: older, handle => if handle = older.length then some cell else cell? older handle

/-- Puts a scope in the place of the one of an environment. -/
def setScope : Store → Nat → Scope → Store
  | [], _, _ => []
  | cell :: older, handle, scope =>
    if handle = older.length then { cell with scope := scope } :: older
    else cell :: setScope older handle scope

theorem length_setScope (store : Store) (handle : Nat) (scope : Scope) :
    (store.setScope handle scope).length = store.length := by
  induction store with
  | nil => rfl
  | cons cell older ih =>
      rw [setScope]
      split
      · rfl
      · rw [List.length_cons, List.length_cons, ih]

/-- A scope is found again where it was put, and the other environments are as they were. -/
theorem cell?_setScope (store : Store) (handle : Nat) (scope : Scope) (other : Nat) :
    (store.setScope handle scope).cell? other =
      if other = handle then (store.cell? handle).map fun cell => { cell with scope := scope }
      else store.cell? other := by
  induction store with
  | nil => simp only [setScope, cell?, Option.map_none, ite_self]
  | cons cell older ih =>
      rw [setScope]
      by_cases hhandle : handle = older.length
      · subst hhandle
        by_cases hother : other = older.length <;> simp [cell?, hother]
      · by_cases hother : other = older.length
        · subst hother
          have hne : ¬older.length = handle := fun heq => hhandle heq.symm
          simp [cell?, hhandle, hne, length_setScope]
        · simp only [cell?, if_neg hhandle, if_neg hother, length_setScope, ih]

/-- A known environment has a scope, the first one of its chain. -/
theorem chain_eq_cons {store : Store} {handle : Nat} {cell : Cell}
    (h : store.cell? handle = some cell) : ∃ outer, store.chain handle = cell.scope :: outer := by
  induction store with
  | nil => cases h
  | cons first older ih =>
      rw [cell?] at h
      rw [chain]
      by_cases hhandle : handle = older.length
      · rw [if_pos hhandle, Option.some.injEq] at h
        subst h
        rw [if_pos hhandle]
        exact ⟨_, rfl⟩
      · rw [if_neg hhandle] at h ⊢
        exact ih h

/-- Nothing can be put in the place of an unknown environment, be it a scope or a chain. -/
theorem setScope_of_cell?_eq_none {store : Store} {handle : Nat}
    (h : store.cell? handle = none) (scope : Scope) : store.setScope handle scope = store := by
  induction store with
  | nil => rfl
  | cons first older ih =>
      rw [cell?] at h
      by_cases hhandle : handle = older.length
      · rw [if_pos hhandle] at h
        cases h
      · rw [if_neg hhandle] at h
        rw [setScope, if_neg hhandle, ih h]

theorem setChain_of_cell?_eq_none {store : Store} {handle : Nat}
    (h : store.cell? handle = none) (scopes : List Scope) :
    store.setChain handle scopes = store := by
  induction store with
  | nil => cases scopes <;> rfl
  | cons first older ih =>
      cases scopes with
      | nil => rfl
      | cons scope scopes =>
          rw [cell?] at h
          by_cases hhandle : handle = older.length
          · rw [if_pos hhandle] at h
            cases h
          · rw [if_neg hhandle] at h
            rw [setChain, if_neg hhandle, ih h]

/-- The chain of an environment, put back as it was, changes nothing. -/
theorem setChain_chain (store : Store) (handle : Nat) :
    store.setChain handle (store.chain handle) = store := by
  induction store generalizing handle with
  | nil => cases handle <;> rfl
  | cons cell older ih =>
      rw [chain]
      by_cases hhandle : handle = older.length
      · rw [if_pos hhandle, setChain, if_pos hhandle]
        rcases cell with ⟨scope, outer⟩
        cases outer with
        | none => rfl
        | some outer => exact congrArg _ (ih outer)
      · rw [if_neg hhandle]
        have holder := ih handle
        cases hchain : chain older handle with
        | nil => rfl
        | cons scope scopes =>
            rw [hchain] at holder
            rw [setChain, if_neg hhandle, holder]

/-- The chain of an environment, put back with another innermost scope, changes that scope only. -/
theorem setChain_eq_setScope {store : Store} {handle : Nat} {scope : Scope} {outer : List Scope}
    (h : store.chain handle = scope :: outer) (scope' : Scope) :
    store.setChain handle (scope' :: outer) = store.setScope handle scope' := by
  induction store with
  | nil => rfl
  | cons cell older ih =>
      rw [chain] at h
      rw [setChain, setScope]
      by_cases hhandle : handle = older.length
      · rw [if_pos hhandle, List.cons.injEq] at h
        rw [if_pos hhandle, if_pos hhandle, ← h.2]
        -- the scopes further out are those that were there
        cases cell.outer with
        | none => rfl
        | some further => simp only [setChain_chain]
      · rw [if_neg hhandle] at h
        rw [if_neg hhandle, if_neg hhandle, ih h]

/-! ## Environments put back -/

theorem env_inner {store : Store} {handle : Nat} {cell : Cell}
    (h : store.cell? handle = some cell) : (store.env handle).inner = cell.scope := by
  obtain ⟨outer, hchain⟩ := chain_eq_cons h
  rw [env, hchain]

/-- An environment, put back as it was, changes nothing. -/
theorem setEnv_env (store : Store) (handle : Nat) :
    store.setEnv handle (store.env handle) = store := by
  cases hcell : store.cell? handle with
  | none => exact setChain_of_cell?_eq_none hcell _
  | some cell =>
      obtain ⟨outer, hchain⟩ := chain_eq_cons hcell
      have hback := setChain_chain store handle
      rw [setEnv, env]
      rwa [hchain] at hback ⊢

/-- An environment, put back with the same outer scopes, changes in its own scope only. -/
theorem setEnv_eq_setScope (store : Store) (handle : Nat) {env : Env}
    (h : env.outer = (store.env handle).outer) :
    store.setEnv handle env = store.setScope handle env.inner := by
  cases hcell : store.cell? handle with
  | none => rw [setEnv, setChain_of_cell?_eq_none hcell, setScope_of_cell?_eq_none hcell]
  | some cell =>
      obtain ⟨outer, hchain⟩ := chain_eq_cons hcell
      rw [Store.env, hchain] at h
      rw [setEnv, Env.scopes, h]
      exact setChain_eq_setScope hchain env.inner

end Store

end PrefixLogic
