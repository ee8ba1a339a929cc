import PrefixLogic.Proofs.Environment.History
import PrefixLogic.Proofs.Shell.OneLineEach

/-!
# The bindings that are shown

The names that an environment shows are those that it has values for (`Env.mem_names_iff`), each one
once. In a session that begins with values from sources under names that can be read, there are no
other names (`Session.named_run`). So the answer to a request for the bindings has one line for each
visible name, with the value to which the name evaluates, up to the first value that there is no
room to write (`Shell.bindings_shown`).
-/

namespace PrefixLogic

open Evaluation (Fits State ending_lookup evaluate_eq exists_ending_eval rule)
open Text (IsLine isLine_append)

/-! ## Names that can be read -/

namespace Expr

/-- What an expression defines outside its lambdas can be read as a name, as all its names can. -/
theorem WellFormed.isName_of_mem_definedNames {expr : Expr} (h : expr.WellFormed) :
    ∀ name ∈ expr.definedNames, Token.IsName name := by
  have hall {exprs : List Expr}
      (hexprs : ∀ expr ∈ exprs, ∀ name ∈ expr.definedNames, Token.IsName name) :
      ∀ name ∈ definedNamesAll exprs, Token.IsName name := by
    induction exprs with
    | nil => exact List.forall_mem_nil _
    | cons expr exprs ih =>
        rw [List.forall_mem_cons] at hexprs
        rw [definedNamesAll]
        exact List.forall_mem_append.2 ⟨hexprs.1, ih hexprs.2⟩
  induction h with
  | bool value => exact List.forall_mem_nil _
  | op op => exact List.forall_mem_nil _
  | lambda hparams _ _ => exact List.forall_mem_nil _
  | ident hname => exact List.forall_mem_nil _
  | call _ _ ihoperator ihoperands =>
      rw [definedNames]
      exact List.forall_mem_append.2 ⟨ihoperator, hall ihoperands⟩
  | cond _ _ _ ihtest ihyes ihno =>
      rw [definedNames]
      exact List.forall_mem_append.2 ⟨List.forall_mem_append.2 ⟨ihtest, ihyes⟩, ihno⟩
  | define hname _ ih =>
      rw [definedNames]
      exact List.forall_mem_cons.2 ⟨hname, ih⟩

end Expr

/-- Where an expression may be evaluated at all, a visible name evaluates to its value. -/
theorem Expr.evaluate_ident {config : Config} {env : Env} {name : String} {value : Value}
    (hvalue : env.get? name = some value) (hnesting : 0 < config.nesting)
    (hroom : config.room ≠ some 0)
    (hfits : Fits config (config.room.less 1) (.visited (.ident name))) :
    ((ident name).evaluate config env).result = .ok value ∧
      ((ident name).evaluate config env).env = env := by
  obtain ⟨inside, hends⟩ := exists_ending_eval config hnesting hroom hfits (.start env)
  -- what is recorded of the visit leaves the environment as it was
  have hvisible : ((State.start env).recorded config (.visited (.ident name))).env.get? name =
      some value := hvalue
  rw [evaluate_eq, hends, rule, ending_lookup, hvisible]
  exact ⟨rfl, rfl⟩

/-- All names that are bound, visible or not, can be read as names. -/
def Env.Named (env : Env) : Prop :=
  ∀ scope ∈ env.scopes, ∀ name ∈ scope.names, Token.IsName name

namespace Env

theorem named_empty : empty.Named := by
  intro scope hscope name hname
  rw [List.mem_singleton.1 hscope] at hname
  cases hname

theorem exists_get?_of_mem_names {env : Env} {name : String} (h : name ∈ env.names) :
    ∃ value, env.get? name = some value :=
  Option.ne_none_iff_exists'.1 ((env.mem_names_iff name).1 h)

/-- A visible name is bound in one of the scopes. -/
theorem Named.isName {env : Env} (h : env.Named) {name : String} (hname : name ∈ env.names) :
    Token.IsName name := by
  obtain ⟨value, hvalue⟩ := exists_get?_of_mem_names hname
  obtain ⟨scope, hscope, hmem⟩ := exists_mem_bindings_of_get? hvalue
  exact h scope hscope name (List.mem_map_of_mem hmem)

/-- Names stay what they are while the innermost scope grows by such names. -/
theorem Named.grows {env after : Env} (h : env.Named) {names : List String}
    (hnames : ∀ name ∈ names, Token.IsName name) (houter : after.outer = env.outer)
    (hgrows : Scope.Grows names env.inner after.inner) : after.Named := by
  intro scope hscope name hname
  rcases List.mem_cons.1 hscope with rfl | hscope
  · by_cases hsame : after.inner.get? name = env.inner.get? name
    · have hold : name ∈ env.inner.names := by
        by_contra hnone
        rw [← Scope.get?_eq_none_iff, ← hsame, Scope.get?_eq_none_iff] at hnone
        exact hnone hname
      exact h env.inner List.mem_cons_self name hold
    · exact hnames name (hgrows.mem_of_get?_ne name hsame)
  · rw [houter] at hscope
    exact h scope (List.mem_cons_of_mem _ hscope) name hname

end Env

namespace Session

/-- A run binds no other names than such as can be read. -/
theorem named_run (config : Config) (source : String) {env : Env} (h : env.Named) :
    (run config source env).env.Named := by
  change (runQuietly config source env).env.Named
  rw [runQuietly]
  cases hread : read config.room source with
  | error failure => exact h
  | ok expr =>
      obtain ⟨houter, hgrows⟩ := Store.evaluate_env config expr env
      have hnames := (readable_of_read hread).wellFormed.isName_of_mem_definedNames
      exact h.grows hnames houter hgrows

theorem named_after {env : Env} (h : env.Named) (runs : List (Config × String)) :
    (after env runs).Named := by
  induction runs generalizing env with
  | nil => exact h
  | cons first runs ih => exact ih (named_run first.1 first.2 h)

/-- A visible name is a source in which its value is found, wherever there is room for seven cells:
one for the expression and, if it is recorded, three for the text of it, and the reader takes as
many as seven for a token. -/
theorem run_name {config : Config} {env : Env} {name : String} {value : Value}
    (hname : Token.IsName name) (hvalue : env.get? name = some value)
    (hnesting : 0 < config.nesting) (hroom : config.room.holds 7 = true) :
    (run config name env).result = comesOut config.room (.ok value) ∧
      (run config name env).env = env := by
  have hcells (room : Room) (h : room.holds 7 = true) :
      Reader.admits room.readings 1 = true ∧ room ≠ some 0 ∧ (room.less 1).holds 3 = true := by
    rcases room with - | cells
    · exact ⟨rfl, nofun, rfl⟩
    · simp only [Room.holds, Room.readings, Room.less, Reader.admits, Option.all_some,
        Option.map_some, decide_eq_true_eq, ne_eq, Option.some.injEq] at h ⊢
      omega
  obtain ⟨hadmits, hsome, hvisit⟩ := hcells config.room hroom
  have hreadable : (Expr.ident name).Readable config.room.readings := ⟨.ident hname, hadmits⟩
  have hread : read config.room name = .ok (.ident name) := read_eq_ok_iff.2 hreadable.ofTokens_text
  obtain ⟨hresult, henv⟩ := Expr.evaluate_ident hvalue hnesting hsome fun _ => hvisit
  rw [run, runQuietly, hread]
  dsimp only
  rw [hresult]
  exact ⟨rfl, henv⟩

end Session

namespace Shell

/-- The names that an environment shows, up to the first one whose value cannot be written. -/
theorem names_eq_listed_append (room : Room) (env : Env) :
    let listed := env.names.takeWhile (isListed room env)
    ∃ left, env.names = listed ++ left ∧
      (left = [] ∧ unlisted? room env = none ∨
        ∃ name rest value, left = name :: rest ∧ env.get? name = some value ∧
          value.write room = none ∧ unlisted? room env = some value) := by
  intro listed
  refine ⟨env.names.dropWhile (isListed room env), List.takeWhile_append_dropWhile.symm, ?_⟩
  rw [unlisted?, List.find?_not_eq_head?_dropWhile]
  cases hleft : env.names.dropWhile (isListed room env) with
  | nil => exact .inl ⟨rfl, rfl⟩
  | cons name rest =>
      have hstop := List.head?_dropWhile_not (isListed room env) env.names
      rw [hleft] at hstop
      change isListed room env name = false at hstop
      rw [isListed] at hstop
      cases hget : env.get? name with
      | none =>
          rw [hget] at hstop
          cases hstop
      | some value =>
          rw [hget] at hstop
          exact .inr ⟨name, rest, value, rfl, hget, Value.write_eq_none_iff.2 hstop, hget⟩

/-- The names that are listed have one line each, with their values. -/
theorem forall₂_bindingsText {env : Env} (hnamed : env.Named)
    (hvalues : env.Holds (Value.Readable none)) (room : Room) :
    List.Forall₂
      (fun name line => Token.IsName name ∧
        ∃ value, env.get? name = some value ∧ line = name ++ " = " ++ value.text)
      (env.names.takeWhile (isListed room env)) (Text.storedLines (bindingsText room env)) := by
  have hbound : ∀ name ∈ env.names.takeWhile (isListed room env), Token.IsName name ∧
      ∃ value, env.get? name = some value ∧ value.Readable none := by
    intro name hlisted
    have hname := (List.takeWhile_sublist _).mem hlisted
    obtain ⟨value, hvalue⟩ := Env.exists_get?_of_mem_names hname
    exact ⟨hnamed.isName hname, value, hvalue,
      hvalues.shows (fun _ => True) name trivial value hvalue⟩
  generalize hnames : env.names.takeWhile (isListed room env) = names at hbound
  have htyped : bindingsText room env =
      Text.typed (names.map fun name => name ++ " = " ++ (env.get? name).elim "" Value.text) := by
    rw [bindingsText, hnames, Text.typed, List.map_map]
    rfl
  have hlines : ∀ line ∈ names.map fun name =>
      name ++ " = " ++ (env.get? name).elim "" Value.text, IsLine line := by
    intro line hline
    obtain ⟨name, hname, rfl⟩ := List.mem_map.1 hline
    obtain ⟨hread, value, hvalue, hreadable⟩ := hbound name hname
    rw [hvalue]
    exact isLine_append (isLine_append hread.isLine (by decide)) hreadable.isLine_text
  rw [htyped, Text.storedLines_typed hlines, List.forall₂_map_right_iff, List.forall₂_same]
  intro name hname
  obtain ⟨hread, value, hvalue, -⟩ := hbound name hname
  rw [hvalue]
  exact ⟨hread, value, rfl, rfl⟩

/-- What is visible in an environment is told by what the scopes on the way outwards from it were
given: each visible name is there once, where the innermost scope that was given it has it, in the
order in which the names were new there, and its value is the last one that this scope was given.
A name is there exactly if it has a value.

So if the bindings are asked for after any runs in a session of values from sources, the answer has
one line for each visible name, with the value that is found in a run of the name. If there is a
value that there is no room to write, then the answer breaks off at the first name with such a
value, and a run of this name does not return it either. -/
theorem bindings_shown :
    (∀ store given, Store.Recorded store given → ∀ handle < store.length,
      let env := store.env handle
      ∃ way, store.Way handle way ∧
        env.names = ((way.flatMap given).map Prod.fst).eraseDups ∧ env.names.Nodup ∧
        (∀ name, name ∈ env.names ↔ env.get? name ≠ none) ∧
        ∀ name, env.get? name = way.findSome? fun scope => (given scope).reverse.lookup name) ∧
    ∀ (room : Room) (env : Env), env.Named → env.Holds (Value.FromSource room) →
      ∀ (runs : List (Config × String)) (config : Config) (line : String),
        (Line.ofString line).request = .bindings →
        let now := Session.after env runs
        let reply := reply config now line
        now.names.Nodup ∧ (∀ name, name ∈ now.names ↔ now.get? name ≠ none) ∧
        ∃ listed left, now.names = listed ++ left ∧
          List.Forall₂
            (fun name shown => ∃ value : Value, shown = name ++ " = " ++ value.text ∧
              ∀ config : Config, 0 < config.nesting → config.room.holds 7 = true →
                (Session.run config name now).result = Session.comesOut config.room (.ok value))
            listed (Text.storedLines reply.output) ∧
          (left = [] ∧ reply.fault = none ∨
            ∃ name rest value, left = name :: rest ∧ reply.fault = some (.write value) ∧
              value.write config.room = none ∧
              ∀ config' : Config, 0 < config'.nesting → config'.room = config.room →
                config.room.holds 7 = true →
                (Session.run config' name now).result = .error (.write value)) := by
  refine ⟨?_, ?_⟩
  · intro store given hrecorded handle hknown env
    obtain ⟨way, hway, hnames, hvalues⟩ := hrecorded.shows hknown
    exact ⟨way, hway, hnames, env.nodup_names, env.mem_names_iff, hvalues⟩
  · intro room env hnamed hvalues runs config line hline now answer
    have hnamed' : now.Named := Session.named_after hnamed runs
    have hvalues' : now.Holds (Value.Readable none) :=
      Session.after_readable runs (fun _ _ _ _ => rfl) hvalues.readable
    have hanswer : answer = listBindings config.room now := by
      change reply config now line = _
      rw [reply, hline]
      rfl
    obtain ⟨left, hnames, hleft⟩ := names_eq_listed_append (config.room.more 1) now
    refine ⟨now.nodup_names, now.mem_names_iff, _, left, hnames, ?_, ?_⟩
    · rw [hanswer]
      apply (forall₂_bindingsText hnamed' hvalues' (config.room.more 1)).imp
      rintro name shown ⟨hname, value, hvalue, rfl⟩
      refine ⟨value, rfl, ?_⟩
      intro config hnesting hroom
      exact (Session.run_name hname hvalue hnesting hroom).1
    · rw [hanswer, listBindings]
      dsimp only
      rcases hleft with ⟨rfl, hnone⟩ | ⟨name, rest, value, rfl, hvalue, hlost, hsome⟩
      · rw [hnone]
        exact .inl ⟨rfl, rfl⟩
      · rw [hsome]
        -- there is one cell more than for a run, and that is not enough either
        have hshort : config.room.holds value.cells = false := by
          rw [Value.write_eq_none_iff] at hlost
          rw [← Bool.not_eq_true] at hlost ⊢
          exact mt (config.room.isWithin_more 1 _) hlost
        refine .inr ⟨name, rest, value, rfl, rfl, Value.write_eq_none_iff.2 hshort, ?_⟩
        intro config' hnesting hsame hroom
        have hname : Token.IsName name := hnamed'.isName (by rw [hnames]; simp)
        obtain ⟨hresult, -⟩ := Session.run_name hname hvalue hnesting (hsame ▸ hroom)
        rw [hresult, hsame]
        exact Session.comesOut_eq_error.2 (.inr ⟨value, rfl, hshort, rfl⟩)

/-- A name is bound again in its scope, which is over one with another name and one that is hidden.
In a session, a name that is bound again keeps its place in what is listed. -/
theorem bindings_shown_again :
    let store := (((Store.create [] none (.ofList [("x", .bool true), ("y", .op .or)])).create
      (some 0) (.ofList [("z", .bool true), ("x", .bool false)])).insert 1 "z" (.op .and))
    let runs : List (Config × String) :=
      [({}, "(def x T)"), ({}, "(def f (lambda (y) (^ y)))"), ({}, "(def x F)")]
    let now := Session.after .empty runs
    (store.env 1).names = ["z", "x", "y"] ∧ (store.env 1).get? "z" = some (.op .and) ∧
      Text.storedLines (reply {} now ":env").output = ["x = F", "f = (lambda (y) (^ y))"] ∧
      List.Forall₂
        (fun name shown => ∃ value : Value, shown = name ++ " = " ++ value.text ∧
          (Session.run {} name now).result = Session.comesOut (some roomCells) (.ok value))
        ["x", "f"] (Text.storedLines (reply {} now ":env").output) := by
  intro store runs now
  obtain ⟨hstores, hsessions⟩ := bindings_shown
  let outer : List (String × Value) := [("x", .bool true), ("y", .op .or)]
  let inner : List (String × Value) := [("z", .bool true), ("x", .bool false)]
  have hcreated := @Store.Recorded.create _ _ (some 0) inner
    (@Store.Recorded.create _ _ none outer .empty (by decide)) (by decide)
  have hrecorded := @Store.Recorded.insert _ _ 1 "z" (.op .and) hcreated (by decide)
  obtain ⟨way, hway, hnames, -, -, hvalues⟩ := hstores store _ hrecorded 1 (by decide)
  obtain rfl : way = [1, 0] := hway.unique (.cons rfl rfl (.last rfl rfl))
  obtain ⟨-, -, listed, left, hlisted, hshown, hleft⟩ :=
    hsessions none .empty Env.named_empty Env.holds_empty runs {} ":env" (by decide +kernel)
  have hnow : now.names = ["x", "f"] := by decide +kernel
  have hwhole : (reply {} now ":env").fault = none := by decide +kernel
  rcases hleft with ⟨rfl, -⟩ | ⟨name, rest, value, -, hfault, -⟩
  · rw [List.append_nil] at hlisted
    obtain rfl : ["x", "f"] = listed := hnow.symm.trans hlisted
    refine ⟨hnames.trans (by decide +kernel), (hvalues "z").trans (by decide +kernel),
      by decide +kernel, hshown.imp ?_⟩
    rintro name shown ⟨value, hline, hevaluates⟩
    exact ⟨value, hline, hevaluates {} (by decide) (by decide)⟩
  · cases hwhole.symm.trans hfault

/-- A call that binds a value with a tall body and returns another one. -/
def tallBinding : Expr := .call (.lambda ["x"] (.bool true)) [.define "y" Session.tall.toExpr]

theorem run_tallBinding :
    (Session.run {} tallBinding.text .empty).result = .ok (.bool true) ∧
      (Session.run {} tallBinding.text .empty).env = .ofList [("y", Session.tall)] := by
  have hreadable : tallBinding.Readable (Room.readings (some roomCells)) := by
    have hheight : tallBinding.height = 404 := by decide +kernel
    have hx : Token.IsName "x" := ⟨by decide, fun word => by cases word <;> decide⟩
    have hy : Token.IsName "y" := ⟨by decide, fun word => by cases word <;> decide⟩
    have htall := (@Session.readable_tall none rfl).wellFormed
    refine ⟨.call (.lambda (List.forall_mem_singleton.2 hx) (.bool true)) ?_, ?_⟩
    · exact List.forall_mem_singleton.2 (.define hy htall)
    · rw [hheight]
      decide
  have hread : Session.read (some roomCells) tallBinding.text = .ok tallBinding :=
    Session.read_eq_ok_iff.2 hreadable.ofTokens_text
  have hresult : (tallBinding.evaluate {} .empty).result = .ok (.bool true) := by decide +kernel
  have hbound : (tallBinding.evaluate {} .empty).env = .ofList [("y", Session.tall)] := by
    decide +kernel
  obtain ⟨hrun, henv⟩ := @Session.run_of_read {} _ _ hread .empty
  rw [hrun, henv, hresult]
  exact ⟨rfl, hbound⟩

/-- A name is visible and evaluates to its value, but there is no line for it, as there is no room
to write the value. -/
theorem bindings_shown_tall :
    let now := (Session.run {} tallBinding.text .empty).env
    now.names = ["y"] ∧ ((Expr.ident "y").evaluate {} now).result = .ok Session.tall ∧
      (Line.ofString ":env").request = .bindings ∧
      Text.storedLines (reply {} now ":env").output = [] := by
  intro now
  have hnow : now = .ofList [("y", Session.tall)] := run_tallBinding.2
  rw [hnow]
  exact ⟨by decide +kernel, by decide +kernel, by decide +kernel, by decide +kernel⟩

end Shell

end PrefixLogic
