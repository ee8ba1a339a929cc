import PrefixLogic.Proofs.Environment.Growth
import PrefixLogic.Proofs.Environment.Sharing

/-!
# The way outwards

Environments are made over existing ones, and names are bound in them, in any order (`Store.Built`).
So the way outwards from an environment (`Store.Way`) only leads to older ones and ends, and what is
visible there is what the scopes on the way bind, the first one of them that binds a name
(`Store.Way.get?_env`).

A binding that is added to a scope is seen from those environments, and only from those, for which
this scope is now the first one on the way that binds the name (`Store.insert_seen`).
-/

namespace PrefixLogic.Store

/-- The stores that are built from nothing: an environment is made over an existing one or over
none, and names are bound in existing ones. -/
inductive Built : Store → Prop
  | empty : Built []
  | create {store : Store} {outer : Option Nat} (scope : Scope) : Built store →
      (∀ handle ∈ outer, handle < store.length) → Built (store.create outer scope)
  | insert {store : Store} {handle : Nat} (name : String) (value : Value) : Built store →
      handle < store.length → Built (store.insert handle name value)

/-- The environments on the way outwards from one of them, each one made over the next. The last one
is made over none. -/
inductive Way (store : Store) : Nat → List Nat → Prop
  | last {handle : Nat} {cell : Cell} : store.cell? handle = some cell → cell.outer = none →
      Way store handle [handle]
  | cons {handle outer : Nat} {cell : Cell} {rest : List Nat} : store.cell? handle = some cell →
      cell.outer = some outer → Way store outer rest → Way store handle (handle :: rest)

/-- The scope of an environment. -/
def scope? (store : Store) (handle : Nat) : Option Scope := (store.cell? handle).map Cell.scope

/-- The name is bound in the scope of the environment itself. -/
def Binds (store : Store) (name : String) (handle : Nat) : Prop :=
  ∃ scope, store.scope? handle = some scope ∧ name ∈ scope.names

/-- On the way outwards from the first environment, the second one is the first that binds the
name. -/
def FirstBinds (store : Store) (name : String) (start handle : Nat) : Prop :=
  ∃ before after, store.Way start (before ++ handle :: after) ∧
    (∀ nearer ∈ before, ¬store.Binds name nearer) ∧ store.Binds name handle

/-- The value of a name in the scope of an environment itself. -/
def bound? (store : Store) (name : String) (handle : Nat) : Option Value :=
  (store.scope? handle).bind (·.get? name)

theorem binds_iff {store : Store} {name : String} {handle : Nat} :
    store.Binds name handle ↔ store.bound? name handle ≠ none := by
  rw [Binds, bound?]
  cases store.scope? handle with
  | none => simp
  | some scope => simpa using (not_congr (scope.get?_eq_none_iff name)).symm

/-! ## Environments of a store -/

theorem exists_cell? {store : Store} {handle : Nat} (h : handle < store.length) :
    ∃ cell, store.cell? handle = some cell := by
  induction store with
  | nil => exact absurd h (Nat.not_lt_zero handle)
  | cons first older ih =>
      rw [cell?]
      split
      · exact ⟨first, rfl⟩
      next hne =>
        rw [List.length_cons] at h
        exact ih (by omega)

theorem lt_length_of_cell? {store : Store} {handle : Nat} {cell : Cell}
    (h : store.cell? handle = some cell) : handle < store.length := by
  induction store with
  | nil => cases h
  | cons first older ih =>
      rw [List.length_cons]
      rw [cell?] at h
      split at h
      next heq => omega
      next => exact Nat.lt_succ_of_lt (ih h)

section

variable (store : Store) (handle : Nat) (name : String) (value : Value)

/-- What is bound in an environment is bound in the scope of that environment. -/
theorem insert_eq_setScope : store.insert handle name value =
    store.setScope handle ((store.env handle).inner.insert name value) := by
  rw [insert]
  exact setEnv_eq_setScope store handle rfl

theorem cell?_insert (other : Nat) :
    (store.insert handle name value).cell? other =
      if other = handle then
        (store.cell? handle).map fun cell => { cell with scope := cell.scope.insert name value }
      else store.cell? other := by
  rw [insert_eq_setScope, cell?_setScope]
  cases hcell : store.cell? handle with
  | none => rfl
  | some cell => rw [env_inner hcell, Option.map_some, Option.map_some]

/-- An environment stays over the same one. -/
theorem outer_insert (other : Nat) :
    ((store.insert handle name value).cell? other).map Cell.outer =
      (store.cell? other).map Cell.outer := by
  rw [cell?_insert]
  split
  next heq => rw [heq, Option.map_map]; rfl
  next => rfl

end

theorem bound?_insert {store : Store} {handle : Nat} (h : handle < store.length) (name : String)
    (value : Value) (seen : String) (other : Nat) :
    (store.insert handle name value).bound? seen other =
      if other = handle ∧ seen = name then some value else store.bound? seen other := by
  obtain ⟨cell, hcell⟩ := exists_cell? h
  rw [bound?, scope?, cell?_insert]
  by_cases hother : other = handle
  · subst hother
    simp [bound?, scope?, hcell]
  · rw [if_neg hother, if_neg (fun hboth => hother hboth.1)]
    rfl

/-! ## Ways end -/

/-- Every environment is over an older one, or over none. -/
theorem Built.outer_lt {store : Store} (h : store.Built) :
    ∀ {handle cell}, store.cell? handle = some cell → ∀ outer ∈ cell.outer, outer < handle := by
  induction h with
  | empty =>
      intro handle cell hcell
      cases hcell
  | @create store outer scope _ houter ih =>
      intro handle cell hcell
      rw [Store.create, cell?] at hcell
      split at hcell
      next heq =>
        cases hcell
        rw [heq]
        exact houter
      next => exact ih hcell
  | @insert store changed name value _ _ ih =>
      intro handle cell hcell
      have hsame := outer_insert store changed name value handle
      rw [hcell] at hsame
      obtain ⟨old, hold, heq⟩ := Option.map_eq_some_iff.1 hsame.symm
      rw [← heq]
      exact ih hold

section

variable {store : Store} {handle : Nat}

theorem exists_way (hbuilt : store.Built) (h : handle < store.length) :
    ∃ way, store.Way handle way := by
  induction handle using Nat.strongRecOn with
  | ind handle ih =>
      obtain ⟨cell, hcell⟩ := exists_cell? h
      cases houter : cell.outer with
      | none => exact ⟨_, .last hcell houter⟩
      | some outer =>
          have hlt : outer < handle := hbuilt.outer_lt hcell outer houter
          obtain ⟨rest, hrest⟩ := ih outer hlt (Nat.lt_trans hlt h)
          exact ⟨_, .cons hcell houter hrest⟩

namespace Way

variable {way way' : List Nat}

theorem unique (h : store.Way handle way) (h' : store.Way handle way') : way = way' := by
  induction h generalizing way' with
  | last hcell houter =>
      cases h' with
      | last => rfl
      | cons hcell' houter' => simp_all
  | cons hcell houter _ ih =>
      cases h' with
      | last hcell' houter' => simp_all
      | cons hcell' houter' hrest' =>
          rw [hcell, Option.some.injEq] at hcell'
          rw [← hcell', houter, Option.some.injEq] at houter'
          rw [ih (houter' ▸ hrest')]

/-- The way depends on nothing but which environment each one is over. -/
theorem of_outer {other : Store} (h : store.Way handle way)
    (hsame : ∀ handle, (other.cell? handle).map Cell.outer = (store.cell? handle).map Cell.outer) :
    other.Way handle way := by
  induction h with
  | @last handle cell hcell houter =>
      have heq := hsame handle
      rw [hcell, Option.map_some, houter] at heq
      obtain ⟨cell', hcell', houter'⟩ := Option.map_eq_some_iff.1 heq
      exact .last hcell' houter'
  | @cons handle outer cell rest hcell houter _ ih =>
      have heq := hsame handle
      rw [hcell, Option.map_some, houter] at heq
      obtain ⟨cell', hcell', houter'⟩ := Option.map_eq_some_iff.1 heq
      exact .cons hcell' houter' ih

/-- The way leads to older and older environments. -/
theorem pairwise (hbuilt : store.Built) (h : store.Way handle way) :
    (∀ other ∈ way, other ≤ handle) ∧ way.Pairwise (· > ·) := by
  induction h with
  | last => simp
  | @cons handle outer cell rest hcell houter _ ih =>
      have hlt : outer < handle := hbuilt.outer_lt hcell outer houter
      have hrest : ∀ other ∈ rest, other < handle := fun other hmem =>
        Nat.lt_of_le_of_lt (ih.1 other hmem) hlt
      refine ⟨List.forall_mem_cons.2 ⟨Nat.le_refl _, ?_⟩, List.pairwise_cons.2 ⟨hrest, ih.2⟩⟩
      exact fun other hmem => Nat.le_of_lt (hrest other hmem)

theorem nodup (hbuilt : store.Built) (h : store.Way handle way) : way.Nodup :=
  (h.pairwise hbuilt).2.imp fun hlt => Nat.ne_of_gt hlt

end Way

/-- The chain of an environment goes on with that of the one that it is over. -/
theorem chain_eq {cell : Cell}
    (holder : ∀ {handle cell}, store.cell? handle = some cell → ∀ outer ∈ cell.outer,
      outer < handle) (hcell : store.cell? handle = some cell) :
    store.chain handle = cell.scope :: cell.outer.elim [] store.chain := by
  induction store generalizing handle cell with
  | nil => cases hcell
  | cons first older ih =>
      have hskip : ∀ outer < older.length, chain (first :: older) outer = chain older outer :=
        fun outer hlt => by rw [chain, if_neg (Nat.ne_of_lt hlt)]
      have hrest := holder hcell
      rw [cell?] at hcell
      rw [chain]
      split at hcell
      next heq =>
        cases hcell
        rw [if_pos heq]
        cases houter : first.outer with
        | none => rfl
        | some outer =>
            rw [Option.elim_some, hskip outer (heq ▸ hrest outer houter)]
      next hne =>
        have hlt := lt_length_of_cell? hcell
        -- what holds of the store holds of the older part of it
        have holder' : ∀ {handle cell}, cell? older handle = some cell → ∀ outer ∈ cell.outer,
            outer < handle := by
          intro handle cell hcell
          refine holder ?_
          rw [cell?, if_neg (Nat.ne_of_lt (lt_length_of_cell? hcell)), hcell]
        rw [if_neg hne, ih holder' hcell]
        cases houter : cell.outer with
        | none => rfl
        | some outer =>
            rw [Option.elim_some, Option.elim_some, hskip outer]
            exact Nat.lt_trans (hrest outer houter) hlt

namespace Way

variable {way : List Nat}

theorem chain_eq (hbuilt : store.Built) (h : store.Way handle way) :
    store.chain handle = way.filterMap store.scope? := by
  induction h with
  | @last handle cell hcell houter =>
      rw [Store.chain_eq hbuilt.outer_lt hcell, houter]
      simp [scope?, hcell]
  | @cons handle outer cell rest hcell houter _ ih =>
      rw [Store.chain_eq hbuilt.outer_lt hcell, houter, Option.elim_some, ih]
      simp [scope?, hcell]

/-- The scopes of an environment are those on the way outwards. -/
theorem scopes_env (hbuilt : store.Built) (h : store.Way handle way) :
    (store.env handle).scopes = way.filterMap store.scope? := by
  have hchain := h.chain_eq hbuilt
  obtain ⟨cell, hcell⟩ : ∃ cell, store.cell? handle = some cell := by
    cases h with
    | last hcell _ => exact ⟨_, hcell⟩
    | cons hcell _ _ => exact ⟨_, hcell⟩
  obtain ⟨outer, hcons⟩ := chain_eq_cons hcell
  rw [← hchain, env, hcons]
  rfl

/-- A name has the first of the values that the scopes on the way give it. -/
theorem get?_env (hbuilt : store.Built) (h : store.Way handle way) (name : String) :
    (store.env handle).get? name = (way.filterMap (store.bound? name)).head? := by
  rw [Env.get?, h.scopes_env hbuilt, ← List.head?_filterMap, List.filterMap_filterMap]
  rfl

/-- The first environment that binds a name is found on the way. -/
theorem firstBinds_iff (h : store.Way handle way) {name : String} {other : Nat} :
    store.FirstBinds name handle other ↔
      way.find? (fun nearer => (store.bound? name nearer).isSome) = some other := by
  rw [List.find?_eq_some_iff_append, FirstBinds]
  simp only [binds_iff, Bool.not_eq_true', Option.isSome_eq_false_iff, Option.isNone_iff_eq_none,
    Option.isSome_iff_ne_none, not_not]
  constructor
  · rintro ⟨before, after, hway, hbefore, hbinds⟩
    exact ⟨hbinds, before, after, h.unique hway, hbefore⟩
  · rintro ⟨hbinds, before, after, rfl, hbefore⟩
    exact ⟨before, after, h, hbefore, hbinds⟩

end Way

end

/-! ## Where a binding is seen -/

section

variable {store : Store} (hbuilt : store.Built) {handle : Nat} (hknown : handle < store.length)
  {start : Nat} {name : String} {value : Value}

include hbuilt hknown

/-- The new value is visible where its scope is the first one on the way that binds the name. -/
theorem get?_insert_of_firstBinds
    (h : (store.insert handle name value).FirstBinds name start handle) :
    ((store.insert handle name value).env start).get? name = some value := by
  obtain ⟨before, after, hway, hbefore, -⟩ := h
  have hnone : before.filterMap ((store.insert handle name value).bound? name) = [] :=
    List.filterMap_eq_nil_iff.2 fun nearer hmem =>
      not_not.1 (mt binds_iff.2 (hbefore nearer hmem))
  have hvalue : (store.insert handle name value).bound? name handle = some value := by
    rw [bound?_insert hknown, if_pos ⟨rfl, rfl⟩]
  rw [hway.get?_env (hbuilt.insert name value hknown), List.filterMap_append, hnone,
    List.filterMap_cons_some hvalue]
  rfl

/-- Elsewhere, and under other names, nothing is seen of a new binding. -/
theorem get?_insert_of_not_firstBinds {way : List Nat} (hway : store.Way start way) {seen : String}
    (h : ¬(seen = name ∧ (store.insert handle name value).FirstBinds name start handle)) :
    ((store.insert handle name value).env start).get? seen = (store.env start).get? seen := by
  have hway' := hway.of_outer (outer_insert store handle name value)
  have hchanged := bound?_insert hknown name value seen
  rw [hway'.get?_env (hbuilt.insert name value hknown), hway.get?_env hbuilt]
  by_cases hmem : seen = name ∧ handle ∈ way
  · obtain ⟨rfl, hmem⟩ := hmem
    obtain ⟨before, after, rfl, hnot⟩ := List.eq_append_cons_of_mem hmem
    have hsame : ∀ nearer ∈ before, (store.insert handle seen value).bound? seen nearer =
        store.bound? seen nearer := by
      intro nearer hnearer
      rw [hchanged, if_neg]
      rintro ⟨rfl, -⟩
      exact hnot hnearer
    have hbinds : (store.insert handle seen value).Binds seen handle := by
      rw [binds_iff, hchanged, if_pos ⟨rfl, rfl⟩]
      nofun
    -- something nearer binds the name, or else its new scope would be the first one to do so
    have hnearer : before.filterMap (store.bound? seen) ≠ [] := by
      intro hnil
      refine h ⟨rfl, before, after, hway', ?_, hbinds⟩
      intro nearer hnearer
      rw [binds_iff, hsame nearer hnearer, not_not]
      exact List.filterMap_eq_nil_iff.1 hnil nearer hnearer
    rw [List.filterMap_append, List.filterMap_append, List.filterMap_congr hsame,
      List.head?_append_of_ne_nil _ hnearer, List.head?_append_of_ne_nil _ hnearer]
  · rw [List.filterMap_congr]
    intro other hother
    rw [hchanged, if_neg]
    rintro ⟨rfl, rfl⟩
    exact hmem ⟨rfl, hother⟩

end

/-- A name is bound in an environment of a store that is built from nothing. Every way outwards is
finite, it is the one that was there before, and an environment has the scopes on its way. The new
value is visible under that name from exactly those environments for which the changed scope is now
the first one on the way that binds the name; under other names and from other environments nothing
new is visible. No other scope changes, and in the changed one the names keep their places: a new
name comes after them. -/
theorem insert_seen {store : Store} (hbuilt : store.Built) {handle : Nat}
    (hknown : handle < store.length) (name : String) (value : Value) :
    let after := store.insert handle name value
    (∀ start < store.length,
      (∃ way, after.Way start way ∧ store.Way start way ∧ way.Nodup ∧
        (after.env start).scopes = way.filterMap after.scope?) ∧
      (after.FirstBinds name start handle → (after.env start).get? name = some value) ∧
      ∀ seen, ¬(seen = name ∧ after.FirstBinds name start handle) →
        (after.env start).get? seen = (store.env start).get? seen) ∧
    (∀ other, other ≠ handle → after.cell? other = store.cell? other) ∧
    ∃ scope outer scope', store.cell? handle = some ⟨scope, outer⟩ ∧
      after.cell? handle = some ⟨scope', outer⟩ ∧
      scope'.names = (if name ∈ scope.names then scope.names else scope.names ++ [name]) ∧
      ∀ seen, scope'.get? seen = if seen = name then some value else scope.get? seen := by
  intro after
  have hbuilt' : after.Built := hbuilt.insert name value hknown
  refine ⟨?_, ?_, ?_⟩
  · intro start hstart
    obtain ⟨way, hway⟩ := exists_way hbuilt hstart
    have hway' : after.Way start way := hway.of_outer (outer_insert store handle name value)
    exact ⟨⟨way, hway', hway, hway.nodup hbuilt, hway'.scopes_env hbuilt'⟩,
      get?_insert_of_firstBinds hbuilt hknown,
      fun seen => get?_insert_of_not_firstBinds hbuilt hknown hway⟩
  · intro other hother
    exact (cell?_insert store handle name value other).trans (if_neg hother)
  · obtain ⟨⟨scope, outer⟩, hcell⟩ := exists_cell? hknown
    refine ⟨scope, outer, scope.insert name value, hcell, ?_, scope.names_insert name value,
      scope.get?_insert name value⟩
    change (store.insert handle name value).cell? handle = _
    rw [cell?_insert, if_pos rfl, hcell, Option.map_some]

/-- The outermost environment binds two names. One environment over it has two more over it, of
which the first binds a name of its own, and another one stands beside it. -/
def family : Store :=
  ((((Store.create [] none (.ofList [("x", .bool true), ("y", .op .or)])).create (some 0)
    .empty).create (some 1) (.ofList [("x", .bool false)])).create (some 1) .empty).create
      (some 0) .empty

/-- A name is bound in the environment in the middle. Of the two over it, the one that binds the
name itself does not see the new value, and neither does the one beside. Bound again in the
outermost environment, the name keeps its place there. -/
theorem insert_seen_family :
    let after := family.insert 1 "x" (.op .and)
    let again := family.insert 0 "x" (.op .not)
    family.Built ∧ 1 < family.length ∧
      after.FirstBinds "x" 3 1 ∧ (after.env 3).get? "x" = some (.op .and) ∧
      ¬after.FirstBinds "x" 2 1 ∧ (after.env 2).get? "x" = some (.bool false) ∧
      ¬after.FirstBinds "x" 4 1 ∧ (after.env 4).get? "x" = some (.bool true) ∧
      ∃ scope outer, again.cell? 0 = some ⟨scope, outer⟩ ∧ scope.names = ["x", "y"] := by
  intro after again
  have hbuilt : family.Built :=
    ((((Built.empty.create _ (by decide)).create _ (by decide)).create _ (by decide)).create _
      (by decide)).create _ (by decide)
  obtain ⟨hafter, -, -⟩ := insert_seen hbuilt (show 1 < family.length by decide) "x" (.op .and)
  obtain ⟨-, -, scope, outer, scope', hscope, hagain, hnames, -⟩ :=
    insert_seen hbuilt (show 0 < family.length by decide) "x" (.op .not)
  have hbelow : after.Way 1 [1, 0] := .cons rfl rfl (.last rfl rfl)
  -- who binds the name first is read off the way outward
  have hover : after.FirstBinds "x" 3 1 :=
    (Way.cons rfl rfl hbelow : after.Way 3 [3, 1, 0]).firstBinds_iff.2 (by decide)
  have hshadowed : ¬after.FirstBinds "x" 2 1 := by
    rw [(Way.cons rfl rfl hbelow : after.Way 2 [2, 1, 0]).firstBinds_iff]
    decide
  have hbeside : ¬after.FirstBinds "x" 4 1 := by
    rw [(Way.cons rfl rfl (.last rfl rfl) : after.Way 4 [4, 0]).firstBinds_iff]
    decide
  obtain rfl : scope = .ofList [("x", .bool true), ("y", .op .or)] := by
    cases hscope
    rfl
  refine ⟨hbuilt, by decide, hover, (hafter 3 (by decide)).2.1 hover, hshadowed, ?_, hbeside, ?_,
    scope', outer, hagain, hnames⟩
  · rw [(hafter 2 (by decide)).2.2 "x" fun h => hshadowed h.2]
    decide
  · rw [(hafter 4 (by decide)).2.2 "x" fun h => hbeside h.2]
    decide

end PrefixLogic.Store
