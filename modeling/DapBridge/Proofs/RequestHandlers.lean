import DapBridge.Session.Dispatch
import DapBridge.Proofs.SchemaKinds

/-!
# Requests are checked before the engine runs

`handling` serves a request by its command. Here each served command gets a `Handler` in a
table (`handlers`): one that answers or calls the engine on the arguments as given, or one that
first checks them with the host's validator and then works on what the schema read. What a
handler does after the check is a `Plan`: answer at once, wait on one `ControlCall` of the
engine's control interface, or answer with the value of one `ControlQuery`.

* `handling_eq_run`: `handling` is the table's handler; unserved commands have none.
* `Handler.run_eq_decision`: a handler's run is a `Decision` made from the validator, the
  command and the arguments alone, then run: a refusal fails at once, a plan makes its call.
* `handling_one_call`: so handling a request leaves the world as it was when it fails or answers
  at once, and otherwise changes it exactly as one call or one query of the control does.
* `decision_refuse_iff`: a request is refused exactly when its command is not served or the
  validator finds issues in its arguments.
* `dispatch_unserved`, `dispatch_refused`: a refused request rejects its promise and changes
  nothing else.
* `requests_checked_before_control`: all of it together, with the errors' texts, for any
  validator that keeps the laws (whose issues of an object come member by member in schema
  order).
-/

namespace DapBridge

namespace Session

open Act

/-- A call of the engine's control interface that answers with a promise, with what it is
given. -/
inductive ControlCall where
  | launch (args : Json)
  | attach (args : Json)
  | configurationDone
  | setBreakpoints (path : Option String) (specs : List Json)
  | setFunctionBreakpoints (specs : List Json)
  | setExceptionBreakpoints (filters : List Json)
  | dataBreakpointInfo (name : String) (frameId : Double)
  | resume (threadId : Double)
  | step (kind : String) (threadId : Double) (extras : List (String × Json))
  | pause (threadId : Double)
  | stepInTargets (frameId : Double)
  | threads
  | stackTrace (threadId : Double) (startFrame levels : Option Double)
  | variables (reference : Double) (filter : Option String) (start count : Option Double)
  | setVariable (reference : Double) (name value : String)
  | evaluate (expression : String) (frameId : Option Double) (context : Option String)
  | setExpression (expression value : String) (frameId : Option Double)
  | completions (text : String) (column : Double) (frameId line : Option Double)
  | loadedSources
  | source (reference : Option Double) (path : Option String)
  | modules (start count : Option Double)
  | exceptionInfo (threadId : Double)
  | terminate
  | restart
  | disconnect (terminateDebuggee : Option Bool)

/-- The engine operation a call runs; the number of its promise. -/
def ControlCall.run (e : Nat) : ControlCall → Act Nat
  | .launch args => Session.launch e (some args)
  | .attach args => Session.attach e (some args)
  | .configurationDone => Session.configurationDone e
  | .setBreakpoints path specs => Session.setBreakpoints e path specs
  | .setFunctionBreakpoints specs => Session.setFunctionBreakpoints e specs
  | .setExceptionBreakpoints filters => Session.setExceptionBreakpoints e filters
  | .dataBreakpointInfo name frameId => Session.dataBreakpointInfo e name frameId
  | .resume threadId => do Act.execContinue (← execOf e) (some (.num threadId))
  | .step kind threadId extras => do Act.execStep (← execOf e) kind (some (.num threadId)) extras
  | .pause threadId => do Act.execPause (← execOf e) (some (.num threadId))
  | .stepInTargets frameId => Session.stepInTargets e frameId
  | .threads => Session.threads e
  | .stackTrace threadId startFrame levels => Session.stackTrace e threadId startFrame levels
  | .variables reference filter start count => Session.listVariables e reference filter start count
  | .setVariable reference name value => Session.setVariable e reference name value
  | .evaluate expression frameId context => Session.evaluate e expression frameId context
  | .setExpression expression value frameId => Session.setExpression e expression value frameId
  | .completions text column frameId line => Session.completions e text column frameId line
  | .loadedSources => Session.loadedSources e
  | .source reference path => Session.source e reference path
  | .modules start count => Session.modules e start count
  | .exceptionInfo threadId => Session.exceptionInfo e threadId
  | .terminate => Session.terminate e
  | .restart => Session.restart e
  | .disconnect terminateDebuggee => Session.disconnect e terminateDebuggee

/-- A call of the control interface that answers at once. -/
inductive ControlQuery where
  | setDataBreakpoints (specs : List Json)
  | scopes (frameId : Double)

def ControlQuery.run (e : Nat) : ControlQuery → Act Json
  | .setDataBreakpoints specs => Session.setDataBreakpoints e specs
  | .scopes frameId => Session.scopes e frameId

/-- What a handler does with the arguments it works on: answer at once, wait on one call and
wrap its value, or make one query and answer with its value under a key. -/
inductive Plan where
  | answer (d : Dispatched)
  | await (call : ControlCall) (wrap : Wrap)
  | reply (query : ControlQuery) (key : String)

def Plan.run (e : Nat) : Plan → Act Handling
  | .answer d => pure (.now d)
  | .await call wrap => do pure (.later (← call.run e) wrap)
  | .reply query key => do pure (.now (.withBody (Json.object [(key, ← query.run e)])))

/-- A command's handler: none, one that plans on the arguments as given (an empty object when
there are none), or one that plans on what a schema reads from them. -/
inductive Handler where
  | unsupported
  | given (plan : Json → Plan)
  | checked (schema : Schema) (plan : Json → Plan)

def Handler.run (e : Nat) (command : String) (args : Option Json) : Handler → Act Handling
  | .unsupported => failWith (.protocol s!"Unsupported command: {command}" (some command))
  | .given plan => (plan (orEmpty args)).run e
  | .checked schema plan => do (plan (← Session.checked schema args command)).run e

/-- The served commands and their handlers. -/
def handlers : List (String × Handler) :=
  [("initialize", .given fun _ => .answer ⟨some capabilities, ["initialized"], false, false⟩),
    ("launch", .given fun a => .await (.launch a) .nothing),
    ("attach", .given fun a => .await (.attach a) .nothing),
    ("configurationDone", .given fun _ => .await .configurationDone .nothing),
    ("setBreakpoints", .checked Arguments.setBreakpoints fun a =>
      .await (.setBreakpoints ((a.field? "source").bind (·.strField? "path"))
        (((a.field? "breakpoints").bind Json.getArr?).getD [])) (.under "breakpoints")),
    ("setFunctionBreakpoints", .checked Arguments.setFunctionBreakpoints fun a =>
      .await (.setFunctionBreakpoints (((a.field? "breakpoints").bind Json.getArr?).getD [])) (.under "breakpoints")),
    ("setExceptionBreakpoints", .checked Arguments.setExceptionBreakpoints fun a =>
      .await (.setExceptionBreakpoints (((a.field? "filters").bind Json.getArr?).getD [])) (.under "breakpoints")),
    ("dataBreakpointInfo", .checked Arguments.dataBreakpointInfo fun a =>
      let name := strD a "name"
      (num? a "frameId").elim
        (.answer (.withBody (Json.object [("dataId", .null),
          ("description", .string s!"Variable '{name}' has no frame to watch it in"),
          ("accessTypes", Json.strings ["write"]), ("canPersist", .bool false)])))
        fun frameId => .await (.dataBreakpointInfo name frameId) .body),
    ("setDataBreakpoints", .checked Arguments.setDataBreakpoints fun a =>
      .reply (.setDataBreakpoints (((a.field? "breakpoints").bind Json.getArr?).getD [])) "breakpoints"),
    ("continue", .checked Arguments.thread fun a => .await (.resume (numD a "threadId")) .body),
    ("next", .checked Arguments.step fun a => .await (.step "next" (numD a "threadId") (stepExtras a)) .nothing),
    ("stepIn", .checked Arguments.step fun a => .await (.step "stepIn" (numD a "threadId") (stepExtras a)) .nothing),
    ("stepOut", .checked Arguments.step fun a => .await (.step "stepOut" (numD a "threadId") (stepExtras a)) .nothing),
    ("pause", .checked Arguments.thread fun a => .await (.pause (numD a "threadId")) .nothing),
    ("stepInTargets", .checked Arguments.frame fun a => .await (.stepInTargets (numD a "frameId")) .body),
    ("threads", .given fun _ => .await .threads (.under "threads")),
    ("stackTrace", .checked Arguments.stackTrace fun a =>
      .await (.stackTrace (numD a "threadId") (num? a "startFrame") (num? a "levels")) .body),
    ("scopes", .checked Arguments.frame fun a => .reply (.scopes (numD a "frameId")) "scopes"),
    ("variables", .checked Arguments.variableQuery fun a =>
      .await (.variables (numD a "variablesReference") (a.strField? "filter") (num? a "start") (num? a "count"))
        (.under "variables")),
    ("setVariable", .checked Arguments.setVariable fun a =>
      .await (.setVariable (numD a "variablesReference") (strD a "name") (strD a "value")) .body),
    ("evaluate", .checked Arguments.evaluate fun a =>
      .await (.evaluate (strD a "expression") (num? a "frameId") (a.strField? "context")) .body),
    ("setExpression", .checked Arguments.setExpression fun a =>
      .await (.setExpression (strD a "expression") (strD a "value") (num? a "frameId")) .body),
    ("completions", .checked Arguments.completions fun a =>
      .await (.completions (strD a "text") (numD a "column") (num? a "frameId") (num? a "line")) .body),
    ("loadedSources", .given fun _ => .await .loadedSources .body),
    ("source", .checked Arguments.source fun a =>
      .await (.source (((a.field? "source").bind (num? · "sourceReference")).orElse fun _ => num? a "sourceReference")
        ((a.field? "source").bind (·.strField? "path"))) .body),
    ("modules", .checked Arguments.modules fun a => .await (.modules (num? a "startModule") (num? a "moduleCount")) .body),
    ("exceptionInfo", .checked Arguments.thread fun a => .await (.exceptionInfo (numD a "threadId")) .body),
    ("terminate", .given fun _ => .await .terminate .nothing),
    ("restart", .given fun _ => .await .restart .restarts),
    ("disconnect", .checked Arguments.disconnect fun a => .await (.disconnect (a.boolField? "terminateDebuggee")) .ends)]

/-- The handler of a command: the one served under its name, if any. -/
def handlerOf (command : String) : Handler := (handlers.lookup command).getD .unsupported

/-- Whether a handler serves its command. -/
def Handler.serves : Handler → Bool
  | .unsupported => false
  | _ => true

theorem handlers_serve : handlers.all (·.2.serves) = true := rfl

/-- A command has no handler exactly when it is not served. -/
theorem handlerOf_eq_unsupported_iff (command : String) :
    handlerOf command = .unsupported ↔ handles command = false := by
  have hnames : handles command = (handlers.map (·.1)).contains command := rfl
  rw [hnames, handlerOf]
  cases hl : handlers.lookup command with
  | none =>
    -- the name is no key of the table
    rw [List.lookup_eq_none_iff] at hl
    simp only [Option.getD_none, true_iff, Bool.eq_false_iff]
    intro hc
    obtain ⟨x, hx⟩ : ∃ x, (command, x) ∈ handlers := by simpa using hc
    simpa using hl _ hx
  | some h =>
    obtain ⟨l₁, l₂, hsplit, -⟩ := List.lookup_eq_some_iff.1 hl
    have hmem : (command, h) ∈ handlers := by
      rw [hsplit]
      simp
    have hserves : h.serves = true := List.all_eq_true.1 handlers_serve _ hmem
    have hkey : (handlers.map (·.1)).contains command = true := by
      simpa using List.mem_map_of_mem (f := (·.1)) hmem
    rw [Option.getD_some, hkey]
    constructor
    · rintro rfl
      cases hserves
    · intro h
      cases h

/-- A command with a handler in the table is served. -/
theorem handles_of_ne_unsupported {command : String} (h : handlerOf command ≠ .unsupported) :
    handles command = true := by
  rw [← Bool.not_eq_false, ← handlerOf_eq_unsupported_iff]
  exact h

/-- `handling` runs the handler the table has for the command, the unsupported one when it has
none. -/
theorem handling_eq_run (e : Nat) (command : String) (args : Option Json) :
    handling e command args = (handlerOf command).run e command args := by
  unfold handling
  split
  -- `dataBreakpointInfo` looks at the frame, and `source` at the nested reference, only once
  -- the arguments are checked
  case h_8 =>
    refine bind_congr fun a => ?_
    dsimp only
    cases num? a "frameId" <;> rfl
  case h_25 =>
    refine bind_congr fun a => ?_
    dsimp only
    cases (a.field? "source").bind (num? · "sourceReference") <;> rfl
  case h_31 =>
    have hunserved : handles command = false := by simp_all [handles]
    rw [(handlerOf_eq_unsupported_iff command).2 hunserved]
    rfl
  -- every other served command runs its handler's plan as it stands
  all_goals rfl

/-- What a request comes to before anything runs: refused with an error, or a plan. -/
inductive Decision where
  | refuse (err : AdapterError)
  | proceed (plan : Plan)

def Decision.run (e : Nat) : Decision → Act Handling
  | .refuse err => failWith err
  | .proceed plan => plan.run e

/-- What a handler decides on a request's arguments (an empty object when there are none) with
the validator `V`: issues refuse them, listed in the order the validator found them, and
otherwise the plan works on what the schema read. -/
def Handler.decision (V : Validator) (command : String) (args : Option Json) : Handler → Decision
  | .unsupported => .refuse (.protocol s!"Unsupported command: {command}" (some command))
  | .given plan => .proceed (plan (orEmpty args))
  | .checked schema plan =>
    if (V.check schema [] (some (orEmpty args))).1.isEmpty then
      .proceed (plan (((V.check schema [] (some (orEmpty args))).2).getD .null))
    else
      .refuse (.protocol
        s!"Invalid arguments for '{command}': {Issue.describeAll (V.check schema [] (some (orEmpty args))).1}"
        (some command))

/-- Checking arguments is the validator's check of them, an empty object when there are none. -/
theorem Arguments.check_eq (V : Validator) (schema : Schema) (args : Option Json) (command : String) :
    Arguments.check V schema args command =
      if (V.check schema [] (some (orEmpty args))).1.isEmpty then
        .ok (((V.check schema [] (some (orEmpty args))).2).getD .null)
      else
        .error (.protocol
          s!"Invalid arguments for '{command}': {Issue.describeAll (V.check schema [] (some (orEmpty args))).1}"
          (some command)) := by
  rcases args with _ | ⟨_ | b | x | t | xs | fs⟩ <;>
  · unfold Arguments.check
    dsimp only [orEmpty]
    rw [Validator.read_eq]
    split_ifs with hc <;> simp only [hc, Bool.false_eq_true, ↓reduceIte]

/-- Checking arguments reads the validator of the world it runs in, and changes nothing. -/
theorem checked_apply (schema : Schema) (args : Option Json) (command : String) (w : World) :
    checked schema args command w =
      match Arguments.check w.host.validator schema args command with
      | .ok v => .ok v w
      | .error e => .error (.adapter e) w := by
  unfold checked
  show (match Arguments.check w.host.validator schema args command with
    | .ok v => pure v | .error e => failWith e : Act Json) w = _
  cases Arguments.check w.host.validator schema args command <;> rfl

/-- A handler with a schema runs its plan on what the check read, in the world the check left. -/
theorem Handler.run_checked (schema : Schema) (plan : Json → Plan) (e : Nat) (command : String)
    (args : Option Json) (w : World) :
    (Handler.checked schema plan).run e command args w =
      match Session.checked schema args command w with
      | .ok a s => (plan a).run e s
      | .error f s => .error f s := by
  simp only [Handler.run]
  dsimp only [bind, EStateM.bind]
  cases Session.checked schema args command w <;> rfl

theorem Handler.run_eq_decision (h : Handler) (e : Nat) (command : String) (args : Option Json) (w : World) :
    h.run e command args w = (h.decision w.host.validator command args).run e w := by
  cases h with
  | unsupported => rfl
  | given plan => rfl
  | checked schema plan =>
    rw [Handler.run_checked, checked_apply, Arguments.check_eq]
    simp only [Handler.decision]
    split_ifs <;> rfl

/-- An unserved command: the request's promise is rejected at once, and nothing else changes. -/
theorem dispatch_unserved {command : String} (h : handles command = false) (e : Nat) (args : Option Json)
    (w : World) :
    dispatch e command args w =
      .ok w.loop.fresh.1 { w with
        loop := w.loop.fresh.2.settle w.loop.fresh.1
          (.error (.adapter (.protocol s!"Unsupported command: {command}" (some command)))) } := by
  unfold dispatch
  rw [h]
  rfl

/-- A request whose handler fails before anything runs, on every world with the host of `w`:
the handler's promise is rejected with the error, the request's promise follows it, and nothing
else changes. -/
theorem dispatch_refused {command : String} (h : handles command = true) {e : Nat} {args : Option Json}
    {err : AdapterError} (w : World)
    (hr : ∀ w' : World, w'.host = w.host → handling e command args w' = failWith err w') :
    dispatch e command args w =
      .ok w.loop.fresh.1 { w with
        loop := ((w.loop.fresh.2.fresh.2).settle w.loop.fresh.2.fresh.1 (.error (.adapter err))).follow
          w.loop.fresh.1 w.loop.fresh.2.fresh.1 } := by
  unfold dispatch handle
  simp only [h, Bool.not_true, Bool.false_eq_true, if_false]
  -- the handler runs on the world after the two promises are made, with the same host
  dsimp only [bind, EStateM.bind, fresh, modifyGet, MonadStateOf.modifyGet, EStateM.modifyGet, attempt, tryCatch,
    EStateM.tryCatch, MonadExceptOf.tryCatch, tryCatchThe, EStateM.instMonadExceptOfOfBacktrackable]
  rw [hr { w with loop := w.loop.fresh.2.fresh.2 } rfl]
  rfl

theorem handling_eq_decision (e : Nat) (command : String) (args : Option Json) (w : World) :
    handling e command args w = ((handlerOf command).decision w.host.validator command args).run e w := by
  rw [handling_eq_run, Handler.run_eq_decision]

/-- Handling a request fails or answers leaving the world as it was, or changes it exactly as one
call of the control interface does, or one query: never more than one. -/
theorem handling_one_call (e : Nat) (command : String) (args : Option Json) (w : World) :
    (∃ err, handling e command args w = .error (.adapter err) w) ∨
    (∃ d, handling e command args w = .ok (.now d) w) ∨
    (∃ (call : ControlCall) (wrap : Wrap), handling e command args w =
      match call.run e w with
      | .ok p w' => .ok (.later p wrap) w'
      | .error f w' => .error f w') ∨
    (∃ (query : ControlQuery) (key : String), handling e command args w =
      match query.run e w with
      | .ok j w' => .ok (.now (.withBody (Json.object [(key, j)]))) w'
      | .error f w' => .error f w') := by
  rw [handling_eq_decision]
  cases (handlerOf command).decision w.host.validator command args with
  | refuse err => exact .inl ⟨err, rfl⟩
  | proceed plan =>
    cases plan with
    | answer d => exact .inr (.inl ⟨d, rfl⟩)
    | await call wrap =>
      refine .inr (.inr (.inl ⟨call, wrap, ?_⟩))
      simp only [Decision.run, Plan.run]
      dsimp only [bind, EStateM.bind, pure, EStateM.pure]
      cases call.run e w <;> rfl
    | reply query key =>
      refine .inr (.inr (.inr ⟨query, key, ?_⟩))
      simp only [Decision.run, Plan.run]
      dsimp only [bind, EStateM.bind, pure, EStateM.pure]
      cases query.run e w <;> rfl

/-- A request is refused before anything runs exactly when its command is not served, or the
validator finds issues in its arguments under the command's schema. -/
theorem decision_refuse_iff (V : Validator) (command : String) (args : Option Json) :
    (∃ err, (handlerOf command).decision V command args = .refuse err) ↔
      handles command = false ∨ ∃ schema plan, handlerOf command = .checked schema plan ∧
        (V.check schema [] (some (orEmpty args))).1 ≠ [] := by
  cases hh : handlerOf command with
  | unsupported =>
    exact ⟨fun _ => .inl ((handlerOf_eq_unsupported_iff command).1 hh), fun _ => ⟨_, rfl⟩⟩
  | given plan =>
    have hs := handles_of_ne_unsupported (by rw [hh]; exact Handler.noConfusion)
    simp [Handler.decision, hs]
  | checked schema plan =>
    have hs := handles_of_ne_unsupported (by rw [hh]; exact Handler.noConfusion)
    simp only [Handler.decision, hs, Bool.true_eq_false, false_or, Handler.checked.injEq]
    constructor
    · rintro ⟨err, herr⟩
      refine ⟨schema, plan, ⟨rfl, rfl⟩, fun hnil => ?_⟩
      rw [hnil, List.isEmpty_nil, if_pos rfl] at herr
      cases herr
    · rintro ⟨s, q, ⟨rfl, rfl⟩, hne⟩
      rw [if_neg (by simpa using hne)]
      exact ⟨_, rfl⟩

/-- Every request is checked before the engine is called, for any validator `V` that keeps the
laws, on a host that checks with it. Handling a request is its handler's decision, made from the
command and the arguments alone, then run: a refusal fails at once, and a plan makes at most one
call of the control interface, on what the schema read, or on the arguments as given (an empty
object when there are none) for a handler without a schema. A request is refused exactly when
its command is not served or the validator finds issues in its arguments; the error names the
command and lists the issues, member by member in schema order for an object. `dispatch` then
rejects the request's promise with that error and changes nothing else. -/
theorem requests_checked_before_control (V : Validator) (hV : V.Laws) (e : Nat) (command : String)
    (args : Option Json) :
    (∀ w : World, w.host.validator = V →
      handling e command args w = ((handlerOf command).decision V command args).run e w) ∧
    ((∃ err, (handlerOf command).decision V command args = .refuse err) ↔
      handles command = false ∨ ∃ schema plan, handlerOf command = .checked schema plan ∧
        (V.check schema [] (some (orEmpty args))).1 ≠ []) ∧
    (handles command = false → ∀ w, dispatch e command args w =
      .ok w.loop.fresh.1 { w with
        loop := w.loop.fresh.2.settle w.loop.fresh.1
          (.error (.adapter (.protocol s!"Unsupported command: {command}" (some command)))) }) ∧
    (∀ schema plan, handlerOf command = .checked schema plan →
      (V.check schema [] (some (orEmpty args))).1 ≠ [] → ∀ w : World, w.host.validator = V →
        dispatch e command args w =
        .ok w.loop.fresh.1 { w with
          loop := ((w.loop.fresh.2.fresh.2).settle w.loop.fresh.2.fresh.1
            (.error (.adapter (.protocol
              s!"Invalid arguments for '{command}': {Issue.describeAll (V.check schema [] (some (orEmpty args))).1}"
              (some command))))).follow w.loop.fresh.1 w.loop.fresh.2.fresh.1 }) ∧
    (∀ schema plan fields extra fs, handlerOf command = .checked schema plan → schema = .object fields extra →
      orEmpty args = .obj fs →
      (V.check schema [] (some (orEmpty args))).1 =
        fields.flatMap fun kf => (V.check kf.2 [.key kf.1] (Json.Fields.get? fs kf.1)).1) ∧
    (∀ schema plan, handlerOf command = .checked schema plan →
      (V.check schema [] (some (orEmpty args))).1 = [] → ∀ w : World, w.host.validator = V →
      handling e command args w = (plan ((V.check schema [] (some (orEmpty args))).2.getD .null)).run e w) ∧
    (∀ plan, handlerOf command = .given plan → ∀ w, handling e command args w = (plan (orEmpty args)).run e w) ∧
    (∀ w, (∃ err, handling e command args w = .error (.adapter err) w) ∨
      (∃ d, handling e command args w = .ok (.now d) w) ∨
      (∃ (call : ControlCall) (wrap : Wrap), handling e command args w =
        match call.run e w with
        | .ok p w' => .ok (.later p wrap) w'
        | .error f w' => .error f w') ∨
      (∃ (query : ControlQuery) (key : String), handling e command args w =
        match query.run e w with
        | .ok j w' => .ok (.now (.withBody (Json.object [(key, j)]))) w'
        | .error f w' => .error f w')) := by
  have hrun : ∀ w : World, w.host.validator = V →
      handling e command args w = ((handlerOf command).decision V command args).run e w := by
    intro w hw
    rw [handling_eq_decision, hw]
  refine ⟨hrun, decision_refuse_iff V command args, fun h w => dispatch_unserved h e args w,
    fun schema plan hh hne w hw => ?_, fun schema plan fields extra fs _ hs ho => ?_,
    fun schema plan hh hnil w hw => ?_, fun plan hh w => ?_, handling_one_call e command args⟩
  · -- a checked command is served, and the validator's issues refuse the request on any world
    -- with the same host
    have hserved := handles_of_ne_unsupported (by rw [hh]; exact Handler.noConfusion)
    refine dispatch_refused hserved w fun w' hw' => ?_
    rw [hrun w' (by rw [hw', hw]), hh]
    simp only [Handler.decision]
    rw [if_neg (by simpa using hne)]
    rfl
  · rw [hs, ho, hV.object]
    simp only [Validator.memberIssues, List.nil_append]
  · rw [hrun w hw, hh]
    simp only [Handler.decision]
    rw [if_pos (by simpa using hnil)]
    rfl
  · rw [handling_eq_decision, hh]
    rfl

/-- A `next` request with no arguments, under the adapter's own validator: it is refused
exactly when its schema finds issues in an empty object. -/
theorem next_without_arguments_refusal :
    Validator.standard.Laws ∧
      ((∃ err, (handlerOf "next").decision .standard "next" none = .refuse err) ↔
        handles "next" = false ∨ ∃ schema plan, handlerOf "next" = .checked schema plan ∧
          (Validator.standard.check schema [] (some (orEmpty none))).1 ≠ []) :=
  ⟨Validator.standard_laws,
    (requests_checked_before_control .standard Validator.standard_laws 0 "next" none).2.1⟩

end Session

end DapBridge
