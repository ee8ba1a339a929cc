import PrefixLogic.Proofs.Environment.Visible
import PrefixLogic.Proofs.Evaluation.Frame

/-!
# Two evaluations side by side

Many properties of evaluation compare two runs of it, or follow code and values through one of them.
A `Correspondence` says what the two have in common: which states correspond to one another, and
properties of the code, the values and the errors. It is closed under what evaluation does with
states and with values: one clause for each thing that a rule may do. Then every evaluation of such
code keeps to it (`Correspondence.runs_eval`): from corresponding states, two evaluations end in
corresponding states, with the same value or the same error, unless the first one stops for a reason
that the second one need not have.

A property of one evaluation is the case in which a state corresponds to itself.
-/

namespace PrefixLogic

namespace Expr

/-- The expressions of which an expression may need the value. The body of a lambda is none of
them. -/
def parts : Expr → List Expr
  | bool _ | op _ | lambda _ _ | ident _ | hole => []
  | call operator operands => operator :: operands
  | cond test yes no => [test, yes, no]
  | define _ body => [body]

end Expr

/-- The body of a lambda. -/
def Value.body? : Value → Option Expr
  | lambda _ body => some body
  | bool _ | op _ => none

/-- Properties of code and of values that evaluation carries from code to the parts of it and to its
values, and from a lambda to its body. -/
structure Carried (code : Expr → Prop) (value : Value → Prop) : Prop where
  bool : ∀ truth, value (.bool truth)
  op : ∀ op, value (.op op)
  lambda : ∀ {params body}, code (.lambda params body) → value (.lambda params body)
  body : ∀ {params body}, value (.lambda params body) → code body
  part : ∀ {expr}, code expr → ∀ part ∈ expr.parts, code part

/-- Code and values of any kind. -/
theorem carried_true : Carried (fun _ => True) (fun _ => True) :=
  ⟨fun _ => trivial, fun _ => trivial, fun _ => trivial, fun _ => trivial, fun _ _ _ => trivial⟩

/-- A property of code, and that the bodies of values have it. -/
theorem Carried.ofCode {code : Expr → Prop}
    (hlambda : ∀ {params body}, code (.lambda params body) → code body)
    (hpart : ∀ {expr}, code expr → ∀ part ∈ expr.parts, code part) :
    Carried code (fun value => ∀ body ∈ value.body?, code body) where
  bool _ := nofun
  op _ := nofun
  lambda := by
    intro params body hcode inner hinner
    obtain rfl : body = inner := Option.some.inj hinner
    exact hlambda hcode
  body h := h _ rfl
  part := hpart

/-- Events of evaluating such code with such values. -/
def Event.ArisesFrom (code : Expr → Prop) (value : Value → Prop) : Event → Prop
  | visited expr => code expr
  | decided test _ => code test
  | defined name bound => (∃ body, code (.define name body)) ∧ value bound
  | called params body arguments =>
    value (.lambda params body) ∧ ∀ argument ∈ arguments, value argument
  | input _ | result _ | failed _ => False

/-- Errors of evaluating such code with such values, when this many calls may be active. That there
is no room is none of them. -/
def EvalError.ArisesFrom (code : Expr → Prop) (value : Value → Prop) (limit : Option Int) :
    EvalError → Prop
  | notDefined name => code (.ident name)
  | notOperator given | conditionNotBool given | operandNotBool _ given => value given
  | negationCount _ | argumentCount _ _ => True
  | callDepth most => limit = some most
  | nesting => False
  | noRule => code .hole

namespace Evaluation

theorem ending_record_bind {α : Type} {config : Config} {room : Room} {event : Event}
    (hfits : Fits config room event) (next : Unit → Run α) (state : State) :
    ending (record config room event >>= next) state =
      ending (next ()) (state.recorded config event) := by
  rw [ending_bind, ending_record, if_pos hfits]

/-- Where an expression may be evaluated at all, it is recorded and its rule is followed. -/
theorem exists_ending_eval (config : Config) {nesting : Nat} {room : Room} (hnesting : 0 < nesting)
    (hroom : room ≠ some 0) {expr : Expr} (hfits : Fits config (room.less 1) (.visited expr))
    (state : State) :
    ∃ inside : Place → Expr → Run Value, ending (eval config nesting room expr) state =
      ending (rule config room inside expr) (state.recorded config (.visited expr)) := by
  obtain ⟨left, rfl⟩ : ∃ left, nesting = left + 1 := ⟨nesting - 1, by omega⟩
  refine ⟨fun place => eval config left (room.inside place), ?_⟩
  rw [eval, if_neg (by simpa [Room.isUsedUp] using hroom), ending_record_bind hfits]

/-- A further call may begin when so many are active. -/
def Admits (config : Config) (depth : Nat) : Prop :=
  ∀ limit, config.maxDepth = some limit → (depth : Int) < limit

/-- What two evaluations have in common: properties of the code and of the values, the errors with
which they may end, those of them with which the first may stop where the second goes on, and which
states correspond. One clause for each thing that a rule does with a state says that corresponding
states are left. In the clause for the end of a call, the outer states are those before the call. -/
structure Correspondence (config config' : Config) where
  code : Expr → Prop
  value : Value → Prop
  error : EvalError → Prop
  stops : EvalError → Prop
  state : State → State → Prop
  maxDepth_eq : config'.maxDepth = config.maxDepth
  carried : Carried code value
  error_arises : ∀ {reason : EvalError}, reason.ArisesFrom code value config.maxDepth → error reason
  get?_eq : ∀ {name outer outer'}, code (.ident name) → state outer outer' →
    outer'.env.get? name = outer.env.get? name
  value_get? : ∀ {name outer outer' shown}, code (.ident name) → state outer outer' →
    outer.env.get? name = some shown → value shown
  recorded : ∀ {event : Event} {outer outer'}, event.ArisesFrom code value → state outer outer' →
    state (outer.recorded config event) (outer'.recorded config' event)
  insert : ∀ {outer outer'} name {bound}, value bound → state outer outer' →
    state { outer with env := outer.env.insert name bound }
      { outer' with env := outer'.env.insert name bound }
  enter : ∀ {outer outer'} (params : List String) {arguments : List Value},
    (∀ argument ∈ arguments, value argument) → state outer outer' →
    state (outer.enter (.ofList (params.zip arguments)))
      (outer'.enter (.ofList (params.zip arguments)))
  leave : ∀ {outer outer' inner inner'}, state outer outer' → state inner inner' →
    state { inner with env := outer.env, depth := outer.depth }
      { inner' with env := outer'.env, depth := outer'.depth }

namespace Correspondence

variable {config config' : Config} (c : Correspondence config config') {depth : Nat}
  {α β : Type}

/-- Corresponding states in which so many calls are active. -/
structure At (depth : Nat) (before before' : State) : Prop where
  state : c.state before before'
  depth_eq : before.depth = depth
  depth_eq' : before'.depth = depth

/-- Results with a property of their values, or with an error as they may occur. -/
def Result (property : α → Prop) : Except EvalError α → Prop
  | .ok value => property value
  | .error reason => c.error reason

/-- From corresponding states in which so many calls are active, two runs end alike, and the result
of the first one is as described. -/
def Runs (depth : Nat) (property : α → Prop) (run other : Run α) : Prop :=
  ∀ before before', c.At depth before before' →
    Alike c.stops (c.At depth) (ending run before) (ending other before') ∧
      c.Result property (ending run before).1

/-- The rooms of two evaluations that keep to a correspondence. Either there is no limit to them, or
they are the same and so is what is recorded; or the second one has as much room at least and
records no more, and the first one may stop for lack of room. -/
inductive Rooms : Room → Room → Prop
  | free : Rooms none none
  | same (room : Room) : c.error .nesting → config'.verbosity = config.verbosity → Rooms room room
  | wider {room room' : Room} : c.error .nesting → c.stops .nesting → room.IsWithin room' →
      (room' = none ∨ ∀ event : Event, event.isRecorded config'.verbosity = true →
        event.isRecorded config.verbosity = true) → Rooms room room'

/-! ## Runs in general -/

section

variable {c} {property : α → Prop} {property' : β → Prop}

theorem runs_pure {value : α} (h : property value) :
    c.Runs depth property (pure value) (pure value) := by
  intro before before' hstate
  exact ⟨.same _ hstate, h⟩

theorem runs_throw {reason : EvalError} (h : c.error reason) :
    c.Runs depth property (throw reason) (throw reason) := by
  intro before before' hstate
  exact ⟨.same _ hstate, h⟩

theorem runs_stop {reason : EvalError} {other : Run α} (herror : c.error reason)
    (hstop : c.stops reason) : c.Runs depth property (throw reason) other := by
  intro before before' _
  exact ⟨.stop _ hstop, herror⟩

theorem Runs.bind {run other : Run α} {next next' : α → Run β}
    (hrun : c.Runs depth property run other)
    (hnext : ∀ value, property value → c.Runs depth property' (next value) (next' value)) :
    c.Runs depth property' (run >>= next) (other >>= next') := by
  intro before before' hstate
  obtain ⟨halike, hresult⟩ := hrun before before' hstate
  rw [ending_bind, ending_bind]
  generalize ending run before = ends, ending other before' = ends' at halike hresult ⊢
  cases halike with
  | same result hafter =>
      cases result with
      | ok value => exact hnext value hresult _ _ hafter
      | error reason => exact ⟨.same _ hafter, hresult⟩
  | stop _ hstop => exact ⟨.stop _ hstop, hresult⟩

theorem runs_mapM {run other : β → Run α} : ∀ list : List β,
    (∀ item ∈ list, c.Runs depth property (run item) (other item)) →
      c.Runs depth (fun values => ∀ value ∈ values, property value) (list.mapM run)
        (list.mapM other)
  | [], _ => by
      rw [List.mapM_nil, List.mapM_nil]
      exact runs_pure nofun
  | item :: list, h => by
      rw [List.forall_mem_cons] at h
      rw [List.mapM_cons, List.mapM_cons]
      apply h.1.bind
      intro value hvalue
      apply (runs_mapM list h.2).bind
      intro values hvalues
      exact runs_pure (List.forall_mem_cons.2 ⟨hvalue, hvalues⟩)

end

/-! ## Rooms -/

section

variable {c} {room room' : Room}

theorem Rooms.less (h : c.Rooms room room') (cells : Nat) :
    c.Rooms (room.less cells) (room'.less cells) := by
  cases h with
  | free => exact .free
  | same room herror hverbosity => exact .same _ herror hverbosity
  | wider herror hstop hwithin hrecords =>
      refine .wider herror hstop (hwithin.less cells) (hrecords.imp_left ?_)
      rintro rfl
      rfl

theorem Rooms.inside (h : c.Rooms room room') (place : Place) :
    c.Rooms (room.inside place) (room'.inside place) :=
  h.less place.cells

/-- Two tests of rooms agree, or the first one fails, and the first evaluation may stop there. -/
def Agree (fits fits' : Prop) : Prop :=
  fits ∧ fits' ∨ c.error .nesting ∧ ¬fits ∧ (c.stops .nesting ∨ ¬fits')

theorem Rooms.agree_holds (h : c.Rooms room room') (cells : Nat) :
    c.Agree (room.holds cells = true) (room'.holds cells = true) := by
  by_cases hholds : room.holds cells = true
  · cases h with
    | wider _ _ hwithin _ => exact .inl ⟨hholds, hwithin cells hholds⟩
    | _ => exact .inl ⟨hholds, hholds⟩
  · cases h with
    | free => exact absurd rfl hholds
    | same room herror hverbosity => exact .inr ⟨herror, hholds, .inr hholds⟩
    | wider herror hstop => exact .inr ⟨herror, hholds, .inl hstop⟩

theorem Rooms.agree_fits (h : c.Rooms room room') (event : Event) :
    c.Agree (Fits config room event) (Fits config' room' event) := by
  by_cases hfits : Fits config room event
  · refine .inl ⟨hfits, ?_⟩
    cases h with
    | free => exact fits_none config' event
    | same room herror hverbosity =>
        intro hrecorded
        rw [Event.isRecorded, hverbosity] at hrecorded
        exact hfits hrecorded
    | wider _ _ hwithin hrecords =>
        intro hrecorded
        rcases hrecords with rfl | hrecords
        · rfl
        · exact hwithin event.cells (hfits (hrecords event hrecorded))
  · cases h with
    | free => exact absurd (fits_none config event) hfits
    | same room herror hverbosity =>
        refine .inr ⟨herror, hfits, .inr ?_⟩
        rw [Fits, Event.isRecorded, hverbosity]
        exact hfits
    | wider herror hstop => exact .inr ⟨herror, hfits, .inl hstop⟩

/-- What does not fit ends in a lack of room, which the second evaluation may be spared. -/
theorem runs_lack {property : α → Prop} {other : Run α} (herror : c.error .nesting)
    (h : c.stops .nesting ∨ other = throw .nesting) :
    c.Runs depth property (throw .nesting) other := by
  rcases h with hstop | rfl
  · exact runs_stop herror hstop
  · exact runs_throw herror

theorem runs_within_room {property : α → Prop} (hroom : c.Rooms room room') {reason : EvalError}
    (h : c.error reason) :
    c.Runs depth property (throw (reason.within room)) (throw (reason.within room')) := by
  rw [EvalError.within, EvalError.within]
  rcases hroom.agree_holds reason.cells with ⟨hholds, hholds'⟩ | ⟨herror, hholds, hother⟩
  · rw [if_pos hholds, if_pos hholds']
    exact runs_throw h
  · rw [if_neg hholds]
    apply runs_lack herror
    apply hother.imp_right
    intro hholds'
    rw [if_neg hholds']

end

/-! ## The parts of an evaluation -/

theorem runs_record {room room' : Room} (hroom : c.Rooms room room') (event : Event)
    (h : event.ArisesFrom c.code c.value) :
    c.Runs depth (fun _ => True) (record config room event) (record config' room' event) := by
  intro before before' hstate
  rw [ending_record, ending_record]
  rcases hroom.agree_fits event with ⟨hfits, hfits'⟩ | ⟨herror, hfits, hother⟩
  · rw [if_pos hfits, if_pos hfits']
    exact ⟨.same (.ok ()) ⟨c.recorded h hstate.state, hstate.depth_eq, hstate.depth_eq'⟩,
      trivial⟩
  · rw [if_neg hfits]
    rcases hother with hstop | hfits'
    · exact ⟨.stop _ hstop, herror⟩
    · rw [if_neg hfits']
      exact ⟨.same _ hstate, herror⟩

theorem runs_lookup {name : String} (h : c.code (.ident name)) :
    c.Runs depth c.value (lookup name) (lookup name) := by
  intro before before' hstate
  rw [ending_lookup, ending_lookup, c.get?_eq h hstate.state]
  refine ⟨.same _ hstate, ?_⟩
  cases hget : before.env.get? name with
  | none => exact c.error_arises h
  | some shown => exact c.value_get? h hstate.state hget

theorem runs_define (name : String) {bound : Value} (h : c.value bound) :
    c.Runs depth (fun _ => True) (define name bound) (define name bound) := by
  intro before before' hstate
  rw [ending_define, ending_define]
  exact ⟨.same (.ok ()) ⟨c.insert name h hstate.state, hstate.depth_eq, hstate.depth_eq'⟩,
    trivial⟩

theorem runs_checkDepth :
    c.Runs depth (fun _ => Admits config depth) (checkDepth config) (checkDepth config') := by
  intro before before' hstate
  rw [ending_checkDepth, ending_checkDepth, c.maxDepth_eq, hstate.depth_eq, hstate.depth_eq']
  refine ⟨.same _ hstate, ?_⟩
  cases hmax : config.maxDepth with
  | none => exact fun limit hlimit => absurd (hmax.symm.trans hlimit) nofun
  | some limit =>
      dsimp only
      split
      next hadmits =>
        intro most hmost
        rw [hmax, Option.some.injEq] at hmost
        exact hmost ▸ hadmits
      next => exact c.error_arises (hmax : EvalError.ArisesFrom _ _ _ (.callDepth limit))

theorem runs_checkOperandCount (op : Operator) (operands : List Expr) :
    c.Runs depth (fun _ => True) (checkOperandCount op operands)
      (checkOperandCount op operands) := by
  cases op with
  | not =>
      rw [checkOperandCount]
      split
      · exact runs_pure trivial
      · exact runs_throw (c.error_arises trivial)
  | and => exact runs_pure trivial
  | or => exact runs_pure trivial

theorem runs_checkArgumentCount (params : List String) (operands : List Expr) :
    c.Runs depth (fun _ => True) (checkArgumentCount params operands)
      (checkArgumentCount params operands) := by
  rw [checkArgumentCount]
  split
  · exact runs_pure trivial
  · exact runs_throw (c.error_arises trivial)

/-- The scope of a call holds its arguments, and the environment of the call is there again when
the call is over. -/
theorem runs_within {names : List String} {body body' : Run Value}
    (hkeeps : Keeps (Framed names) body) (hkeeps' : Keeps (Framed names) body')
    (h : c.Runs (depth + 1) c.value body body') (params : List String) {arguments : List Value}
    (harguments : ∀ argument ∈ arguments, c.value argument) :
    c.Runs depth c.value (within (.ofList (params.zip arguments)) body)
      (within (.ofList (params.zip arguments)) body') := by
  intro before before' hstate
  obtain ⟨halike, hresult⟩ := h (before.enter (.ofList (params.zip arguments)))
    (before'.enter (.ofList (params.zip arguments)))
    ⟨c.enter params harguments hstate.state, congrArg (· + 1) hstate.depth_eq,
      congrArg (· + 1) hstate.depth_eq'⟩
  obtain ⟨henv, hdepth⟩ := (hkeeps (before.enter (.ofList (params.zip arguments)))).leave
  obtain ⟨henv', hdepth'⟩ := (hkeeps' (before'.enter (.ofList (params.zip arguments)))).leave
  rw [ending_within, ending_within]
  generalize ending body _ = ends, ending body' _ = ends'
    at halike hresult henv hdepth henv' hdepth' ⊢
  refine ⟨?_, hresult⟩
  cases halike with
  | @same after after' result hafter =>
      have hleave : after.leave =
          { after with env := before.env, depth := before.depth } := by
        rw [← henv, ← hdepth]
        rfl
      have hleave' : after'.leave =
          { after' with env := before'.env, depth := before'.depth } := by
        rw [← henv', ← hdepth']
        rfl
      refine .same result ⟨?_, hdepth.trans hstate.depth_eq, hdepth'.trans hstate.depth_eq'⟩
      rw [hleave, hleave']
      exact c.leave hstate.state hafter.state
  | stop _ hstop => exact .stop _ hstop

/-! ## The rules -/

section

variable {c} {room room' : Room} {eval eval' : Place → Expr → Run Value}

theorem runs_truth (hroom : c.Rooms room room') {place : Place} {operand : Expr} (op : Operator)
    (h : c.Runs depth c.value (eval place operand) (eval' place operand)) :
    c.Runs depth (fun _ => True) (truth room (eval place) op operand)
      (truth room' (eval' place) op operand) := by
  apply h.bind
  intro value hvalue
  cases value with
  | bool value => exact runs_pure trivial
  | op op => exact runs_within_room hroom (c.error_arises hvalue)
  | lambda params body => exact runs_within_room hroom (c.error_arises hvalue)

theorem runs_applyOperator (hroom : c.Rooms room room') (op : Operator) {operands : List Expr}
    (hoperands : ∀ place, ∀ operand ∈ operands,
      c.Runs depth c.value (eval place operand) (eval' place operand)) :
    c.Runs depth c.value (applyOperator room eval op operands)
      (applyOperator room' eval' op operands) := by
  apply (c.runs_checkOperandCount op operands).bind
  intro _ _
  apply (runs_mapM operands fun operand hmem =>
    runs_truth (hroom.inside _) op (hoperands _ operand hmem)).bind
  intro values _
  exact runs_pure (c.carried.bool _)

theorem runs_applyLambda (hroom : c.Rooms room room')
    (hkeeps : ∀ place expr, Keeps (Framed expr.definedNames) (eval place expr))
    (hkeeps' : ∀ place expr, Keeps (Framed expr.definedNames) (eval' place expr))
    {params : List String} {body : Expr} {operands : List Expr}
    (hvalue : c.value (.lambda params body))
    (hoperands : ∀ place, ∀ operand ∈ operands,
      c.Runs depth c.value (eval place operand) (eval' place operand))
    (hbody : c.code body → Admits config depth →
      c.Runs (depth + 1) c.value (eval .body body) (eval' .body body)) :
    c.Runs depth c.value (applyLambda config room eval params body operands)
      (applyLambda config' room' eval' params body operands) := by
  apply (c.runs_checkArgumentCount params operands).bind
  intro _ _
  apply (runs_mapM operands (hoperands .argument)).bind
  intro arguments harguments
  apply c.runs_checkDepth.bind
  intro _ hadmits
  apply (c.runs_record (hroom.inside .body) (.called params body arguments)
    ⟨hvalue, harguments⟩).bind
  intro _ _
  exact c.runs_within (hkeeps .body body) (hkeeps' .body body)
    (hbody (c.carried.body hvalue) hadmits) params harguments

theorem runs_apply (hroom : c.Rooms room room')
    (hkeeps : ∀ place expr, Keeps (Framed expr.definedNames) (eval place expr))
    (hkeeps' : ∀ place expr, Keeps (Framed expr.definedNames) (eval' place expr))
    {operator : Value} {operands : List Expr} (hvalue : c.value operator)
    (hoperands : ∀ place, ∀ operand ∈ operands,
      c.Runs depth c.value (eval place operand) (eval' place operand))
    (hbody : ∀ body, c.code body → Admits config depth →
      c.Runs (depth + 1) c.value (eval .body body) (eval' .body body)) :
    c.Runs depth c.value (apply config room eval operator operands)
      (apply config' room' eval' operator operands) := by
  cases operator with
  | bool value => exact runs_within_room (hroom.inside _) (c.error_arises hvalue)
  | op op => exact runs_applyOperator hroom op hoperands
  | lambda params body => exact runs_applyLambda hroom hkeeps hkeeps' hvalue hoperands (hbody body)

/-- Every rule keeps to a correspondence, if the expressions inside do and the bodies that it
calls. -/
theorem runs_rule (hroom : c.Rooms room room')
    (hkeeps : ∀ place expr, Keeps (Framed expr.definedNames) (eval place expr))
    (hkeeps' : ∀ place expr, Keeps (Framed expr.definedNames) (eval' place expr))
    {expr : Expr} (hexpr : c.code expr)
    (hparts : ∀ place, ∀ part ∈ expr.parts,
      c.Runs depth c.value (eval place part) (eval' place part))
    (hbody : ∀ body, c.code body → Admits config depth →
      c.Runs (depth + 1) c.value (eval .body body) (eval' .body body)) :
    c.Runs depth c.value (rule config room eval expr) (rule config' room' eval' expr) := by
  cases expr with
  | bool value => exact runs_pure (c.carried.bool value)
  | op op => exact runs_pure (c.carried.op op)
  | lambda params body => exact runs_pure (c.carried.lambda hexpr)
  | hole => exact runs_throw (c.error_arises hexpr)
  | ident name => exact c.runs_lookup hexpr
  | call operator operands =>
      apply (hparts .operator operator List.mem_cons_self).bind
      intro value hvalue
      -- the value of the operator decides what becomes of the operands
      apply runs_apply hroom hkeeps hkeeps' hvalue _ hbody
      intro place operand hmem
      exact hparts place operand (List.mem_cons_of_mem _ hmem)
  | cond test yes no =>
      apply (hparts .test test List.mem_cons_self).bind
      intro value hvalue
      cases value with
      | bool value =>
          have htest : c.code test := c.carried.part hexpr test List.mem_cons_self
          apply (c.runs_record (hroom.inside .branch) (.decided test value) htest).bind
          intro _ _
          -- only the branch that is taken is looked at
          cases value with
          | true => exact hparts .branch yes (by simp [Expr.parts])
          | false => exact hparts .branch no (by simp [Expr.parts])
      | op op => exact runs_within_room (hroom.inside _) (c.error_arises hvalue)
      | lambda params body => exact runs_within_room (hroom.inside _) (c.error_arises hvalue)
  | define name body =>
      apply (hparts .definition body List.mem_cons_self).bind
      intro value hvalue
      apply (c.runs_define name hvalue).bind
      intro _ _
      apply (c.runs_record (hroom.inside .definition) (.defined name value)
        ⟨⟨body, hexpr⟩, hvalue⟩).bind
      intro _ _
      exact runs_pure hvalue

end

/-- Two evaluations of the same code keep to a correspondence. The second one may have more nesting
if the first one may stop for lack of it. -/
theorem runs_eval (herror : c.error .nesting) {nesting nesting' : Nat}
    (hnesting : nesting' = nesting ∨ c.stops .nesting ∧ nesting ≤ nesting') {room room' : Room}
    (hroom : c.Rooms room room') {expr : Expr} (hexpr : c.code expr) :
    c.Runs depth c.value (eval config nesting room expr) (eval config' nesting' room' expr) := by
  -- for all rooms and depths: there is less room inside, and a body is one call deeper
  induction nesting generalizing nesting' room room' depth expr with
  | zero =>
      apply runs_lack herror
      rcases hnesting with rfl | ⟨hstop, -⟩
      · exact .inr rfl
      · exact .inl hstop
  | succ nesting ih =>
      obtain ⟨nesting', rfl⟩ : ∃ less, nesting' = less + 1 := ⟨nesting' - 1, by omega⟩
      have hless : nesting' = nesting ∨ c.stops .nesting ∧ nesting ≤ nesting' :=
        hnesting.imp Nat.succ.inj fun h => ⟨h.1, Nat.le_of_succ_le_succ h.2⟩
      rw [eval, eval]
      simp only [Room.isUsedUp_eq]
      rcases hroom.agree_holds 1 with ⟨hholds, hholds'⟩ | ⟨_, hholds, hother⟩
      · rw [hholds, hholds']
        apply (c.runs_record (hroom.less 1) (.visited expr) hexpr).bind
        intro _ _
        apply runs_rule hroom _ _ hexpr
        · intro place part hmem
          exact ih hless (hroom.inside place) (c.carried.part hexpr part hmem)
        · intro body hbody _
          exact ih hless (hroom.inside .body) hbody
        · intro place expr
          exact keeps_eval config nesting _ expr
        · intro place expr
          exact keeps_eval config' nesting' _ expr
      · rw [Bool.not_eq_true] at hholds
        rw [hholds]
        apply runs_lack herror
        apply hother.imp_right
        intro hholds'
        rw [Bool.not_eq_true] at hholds'
        rw [hholds']
        rfl

/-! ## One evaluation -/

section

variable {code : Expr → Prop} {value : Value → Prop} {error : EvalError → Prop}

/-- The correspondence of an evaluation with itself that follows code and values through it: every
visible value is as described. -/
def ofCarried (hcarried : Carried code value)
    (harises : ∀ {reason : EvalError}, reason.ArisesFrom code value config.maxDepth →
      error reason) : Correspondence config config where
  code := code
  value := value
  error := error
  stops _ := False
  state outer outer' := outer' = outer ∧ outer.env.Shows (fun _ => True) value
  maxDepth_eq := rfl
  carried := hcarried
  error_arises := harises
  get?_eq := by
    rintro name outer _ - ⟨rfl, -⟩
    rfl
  value_get? := by
    rintro name outer _ shown - ⟨-, hshows⟩ hget
    exact hshows name trivial shown hget
  recorded := by
    rintro event outer _ - ⟨rfl, hshows⟩
    exact ⟨rfl, hshows⟩
  insert := by
    rintro outer _ name bound hbound ⟨rfl, hshows⟩
    exact ⟨rfl, hshows.insert name hbound⟩
  enter := by
    rintro outer _ params arguments harguments ⟨rfl, hshows⟩
    exact ⟨rfl, hshows.enter params harguments⟩
  leave := by
    rintro outer _ inner _ ⟨rfl, hshows⟩ ⟨rfl, -⟩
    exact ⟨rfl, hshows⟩

/-- The same correspondence, which also follows code and values into the events that are
recorded. -/
def ofCarriedEvents (hcarried : Carried code value) : Correspondence config config where
  code := code
  value := value
  error _ := True
  stops _ := False
  state outer outer' := outer' = outer ∧ outer.env.Shows (fun _ => True) value ∧
    ∀ event ∈ outer.events.toList, event.ArisesFrom code value
  maxDepth_eq := rfl
  carried := hcarried
  error_arises _ := trivial
  get?_eq := by
    rintro name outer _ - ⟨rfl, -⟩
    rfl
  value_get? := by
    rintro name outer _ shown - ⟨-, hshows, -⟩ hget
    exact hshows name trivial shown hget
  recorded := by
    rintro event outer _ harises ⟨rfl, hshows, hevents⟩
    refine ⟨rfl, hshows, ?_⟩
    rw [events_recorded, List.forall_mem_append]
    refine ⟨hevents, ?_⟩
    intro other hother
    rw [Trace.eq_of_mem_ofEvent hother]
    exact harises
  insert := by
    rintro outer _ name bound hbound ⟨rfl, hshows, hevents⟩
    exact ⟨rfl, hshows.insert name hbound, hevents⟩
  enter := by
    rintro outer _ params arguments harguments ⟨rfl, hshows, hevents⟩
    exact ⟨rfl, hshows.enter params harguments, hevents⟩
  leave := by
    rintro outer _ inner _ ⟨rfl, hshows, -⟩ ⟨rfl, -, hevents⟩
    exact ⟨rfl, hshows, hevents⟩

/-- An evaluation that follows code and values ends with what it follows. -/
theorem ends_of_runs (hcarried : Carried code value)
    (harises : ∀ {reason : EvalError}, reason.ArisesFrom code value config.maxDepth →
      error reason) {property : α → Prop} {run : Run α} (state : State)
    (h : (ofCarried hcarried harises).Runs state.depth property run run)
    (hshows : state.env.Shows (fun _ => True) value) :
    (ofCarried hcarried harises).Result property (ending run state).1 ∧
      (ending run state).2.env.Shows (fun _ => True) value := by
  obtain ⟨halike, hresult⟩ := h state state ⟨⟨rfl, hshows⟩, rfl, rfl⟩
  obtain ⟨-, hafter⟩ := halike.of_never fun _ => id
  exact ⟨hresult, hafter.state.2⟩

end

end Correspondence

/-! ## Outcomes -/

/-- An evaluation has the outcome in which the run of it ends. -/
theorem evaluate_eq (config : Config) (expr : Expr) (env : Env) :
    expr.evaluate config env =
      let ends := ending (eval config config.nesting config.room expr) (.start env)
      ⟨ends.1, ends.2.env, ends.2.events.toList⟩ := by
  unfold Expr.evaluate ending
  cases eval config config.nesting config.room expr (.start env) <;> rfl

/-- An evaluation that follows code and values, whatever the nesting and the room, has an outcome as
described. -/
theorem evaluate_of_carried {code : Expr → Prop} {value : Value → Prop} {error : EvalError → Prop}
    {config : Config} (hcarried : Carried code value)
    (harises : ∀ {reason : EvalError}, reason.ArisesFrom code value config.maxDepth →
      error reason) (hnesting : error .nesting) {expr : Expr} (hexpr : code expr) {env : Env}
    (hshows : env.Shows (fun _ => True) value) :
    let outcome := expr.evaluate config env
    (∀ reason, outcome.result = .error reason → error reason) ∧
      (∀ found, outcome.result = .ok found → value found) ∧
      outcome.env.Shows (fun _ => True) value := by
  intro outcome
  obtain ⟨hresult, hafter⟩ := Correspondence.ends_of_runs hcarried harises (.start env)
    (Correspondence.runs_eval _ hnesting (.inl rfl) (.same config.room hnesting rfl) hexpr) hshows
  have houtcome : outcome = _ := evaluate_eq config expr env
  rw [houtcome]
  refine ⟨?_, ?_, hafter⟩
  · intro reason hreason
    dsimp only at hreason
    rw [hreason] at hresult
    exact hresult
  · intro found hfound
    dsimp only at hfound
    rw [hfound] at hresult
    exact hresult

/-- All that is recorded of an evaluation arises from the code and the values that it has. -/
theorem evaluate_trace_arisesFrom {code : Expr → Prop} {value : Value → Prop}
    (hcarried : Carried code value) (config : Config) {expr : Expr} (hexpr : code expr) {env : Env}
    (hshows : env.Shows (fun _ => True) value) :
    ∀ event ∈ (expr.evaluate config env).trace, event.ArisesFrom code value := by
  have hruns : (Correspondence.ofCarriedEvents hcarried).Runs 0 value
      (eval config config.nesting config.room expr) (eval config config.nesting config.room expr) :=
    Correspondence.runs_eval _ trivial (.inl rfl) (.same config.room trivial rfl) hexpr
  obtain ⟨halike, -⟩ := hruns (.start env) (.start env)
    ⟨⟨rfl, hshows, List.forall_mem_nil _⟩, rfl, rfl⟩
  obtain ⟨-, ⟨-, -, hevents⟩, -, -⟩ := halike.of_never fun _ => id
  rw [evaluate_eq]
  exact hevents

end Evaluation

end PrefixLogic
