import DapBridge.Proofs.ProbeFrame

/-!
# Engine code keeps the front end's frame

Every function of a session engine keeps every `FrontFrame`: the request handlers, the
launch and attach sequences, the probe's replies and events, the process watcher's reports,
shutdown and restart. So do the dispatch of a request to its handler (`Session.dispatch_frame`),
a new engine (`Frontend.newEngine_frame`), every turn of the loop (`Act.runTurn_frame`), every
job but the front end's own (`Act.runJob_frame`) and every action of the surroundings but the
client's (`Rig`). Each is `mvcgen` over the specs before it. Where `mvcgen` leaves the frame
itself as the goal, its closing tactics are turned off and the goal is closed by assumption,
which is much faster on these goals.

Two continuations are the front end's own (`Cont.isFront`): a served request's answer and the
closing of the wire. They change the frame, and `FrontEnd` gives their specs.
-/

open Std.Do

set_option mvcgen.warning false

namespace DapBridge

namespace Session

open Act

variable (fr : FrontFrame)

/-! ## The engine -/

@[spec] theorem engineOf_frame (e : Nat) :
    ⦃fr.Pre⦄ engineOf e ⦃fr.Post⦄ := by
  unfold engineOf; mvcgen

@[spec] theorem withEngine_frame (e : Nat) (f : Engine → Engine) :
    ⦃fr.Pre⦄ withEngine e f ⦃fr.Post⦄ := by
  unfold withEngine; mvcgen

@[spec] theorem execOf_frame (e : Nat) :
    ⦃fr.Pre⦄ execOf e ⦃fr.Post⦄ := by
  unfold execOf; mvcgen

@[spec] theorem execStateOf_frame (e : Nat) :
    ⦃fr.Pre⦄ execStateOf e ⦃fr.Post⦄ := by
  unfold execStateOf; mvcgen

@[spec] theorem registryOf_frame (e : Nat) :
    ⦃fr.Pre⦄ registryOf e ⦃fr.Post⦄ := by
  unfold registryOf; mvcgen

@[spec] theorem withRegistry_frame (e : Nat) (f : Registry → Registry) :
    ⦃fr.Pre⦄ withRegistry e f ⦃fr.Post⦄ := by
  unfold withRegistry; mvcgen

@[spec] theorem withBook_frame (e : Nat) (f : BreakpointBook → BreakpointBook) :
    ⦃fr.Pre⦄ withBook e f ⦃fr.Post⦄ := by
  unfold withBook; mvcgen

@[spec] theorem lineArguments_frame (e : Nat) (file : String) :
    ⦃fr.Pre⦄ lineArguments e file ⦃fr.Post⦄ := by
  unfold lineArguments
  -- what is left is the frame itself; `mvcgen`'s own closing tactics take long on these goals
  mvcgen -trivial
  all_goals assumption

@[spec] theorem functionArguments_frame (e : Nat) :
    ⦃fr.Pre⦄ functionArguments e ⦃fr.Post⦄ := by
  unfold functionArguments; mvcgen

@[spec] theorem dataArguments_frame (e : Nat) :
    ⦃fr.Pre⦄ dataArguments e ⦃fr.Post⦄ := by
  unfold dataArguments; mvcgen

@[spec] theorem forward_frame (e : Nat) (command : String) (args : Option Json) :
    ⦃fr.Pre⦄ forward e command args ⦃fr.Post⦄ := by
  unfold forward; mvcgen

@[spec] theorem sendBestEffort_frame (e : Nat) (command : String) :
    ⦃fr.Pre⦄ sendBestEffort e command ⦃fr.Post⦄ := by
  unfold sendBestEffort; mvcgen

@[spec] theorem killChild_frame (e : Nat) :
    ⦃fr.Pre⦄ killChild e ⦃fr.Post⦄ := by
  unfold killChild; mvcgen

@[spec] theorem stopProbe_frame (e : Nat) :
    ⦃fr.Pre⦄ stopProbe e ⦃fr.Post⦄ := by
  unfold stopProbe; mvcgen

@[spec] theorem claim_frame (e : Nat) (mode : Mode) :
    ⦃fr.Pre⦄ claim e mode ⦃fr.Post⦄ := by
  unfold claim; mvcgen

@[spec] theorem abandonStart_frame (e : Nat) :
    ⦃fr.Pre⦄ abandonStart e ⦃fr.Post⦄ := by
  unfold abandonStart; mvcgen

@[spec] theorem begin_frame (e : Nat) (sink : Sink) :
    ⦃fr.Pre⦄ begin e sink ⦃fr.Post⦄ := by
  unfold begin
  -- the loop over the breakpoint files keeps the frame at every file
  mvcgen invariants
  | inv1 => fr.Post

@[spec] theorem bindChannel_frame (e c : Nat) :
    ⦃fr.Pre⦄ bindChannel e c ⦃fr.Post⦄ := by
  unfold bindChannel; mvcgen

@[spec] theorem launchInProcess_frame (e : Nat) (config : LaunchConfig) :
    ⦃fr.Pre⦄ launchInProcess e config ⦃fr.Post⦄ := by
  unfold launchInProcess; mvcgen

@[spec] theorem newChannel_frame (framing : Framing) (inbox : Nat) (transport : String) (listener : Option Nat) (connection : Option Nat) :
    ⦃fr.Pre⦄ newChannel framing inbox transport listener connection ⦃fr.Post⦄ := by
  unfold newChannel; mvcgen

@[spec] theorem newListener_frame (ep : Endpoint) :
    ⦃fr.Pre⦄ newListener ep ⦃fr.Post⦄ := by
  unfold newListener; mvcgen

@[spec] theorem spawnProcess_frame (e : Nat) (command : Json) (args : List Json) (opts : SpawnOptions) :
    ⦃fr.Pre⦄ spawnProcess e command args opts ⦃fr.Post⦄ := by
  unfold spawnProcess; mvcgen

@[spec] theorem watchProcess_frame (e c : Nat) :
    ⦃fr.Pre⦄ watchProcess e c ⦃fr.Post⦄ := by
  unfold watchProcess; mvcgen

@[spec] theorem startProcess_frame (e p : Nat) (config : LaunchConfig) (cwd program : String) (ep : Endpoint) :
    ⦃fr.Pre⦄ startProcess e p config cwd program ep ⦃fr.Post⦄ := by
  unfold startProcess
  mvcgen -trivial
  all_goals assumption

@[spec] theorem openListener_frame (settings : IpcSettings) :
    ⦃fr.Pre⦄ openListener settings ⦃fr.Post⦄ := by
  unfold openListener; mvcgen

@[spec] theorem launchProcess_frame (e : Nat) (config : LaunchConfig) (cwd : String) :
    ⦃fr.Pre⦄ launchProcess e config cwd ⦃fr.Post⦄ := by
  unfold launchProcess; mvcgen

@[spec] theorem afterStart_frame (e p : Nat) (config : LaunchConfig) :
    ⦃fr.Pre⦄ afterStart e p config ⦃fr.Post⦄ := by
  unfold afterStart; mvcgen

@[spec] theorem launch_frame (e : Nat) (raw : Option Json) :
    ⦃fr.Pre⦄ launch e raw ⦃fr.Post⦄ := by
  unfold launch; mvcgen

@[spec] theorem attach_frame (e : Nat) (raw : Option Json) :
    ⦃fr.Pre⦄ attach e raw ⦃fr.Post⦄ := by
  unfold attach; mvcgen

@[spec] theorem attached_frame (e p : Nat) (config : AttachConfig) (o : Outcome) :
    ⦃fr.Pre⦄ attached e p config o ⦃fr.Post⦄ := by
  unfold attached; mvcgen

@[spec] theorem configurationDone_frame (e : Nat) :
    ⦃fr.Pre⦄ configurationDone e ⦃fr.Post⦄ := by
  unfold configurationDone; mvcgen

@[spec] theorem terminate_frame (e : Nat) :
    ⦃fr.Pre⦄ terminate e ⦃fr.Post⦄ := by
  unfold terminate; mvcgen

@[spec] theorem shutdown_frame (e : Nat) :
    ⦃fr.Pre⦄ shutdown e ⦃fr.Post⦄ := by
  unfold shutdown; mvcgen

@[spec] theorem readLoopEnded_frame (e p : Nat) :
    ⦃fr.Pre⦄ readLoopEnded e p ⦃fr.Post⦄ := by
  unfold readLoopEnded; mvcgen

@[spec] theorem flushed_frame (e p : Nat) :
    ⦃fr.Pre⦄ flushed e p ⦃fr.Post⦄ := by
  unfold flushed; mvcgen

@[spec] theorem restart_frame (e : Nat) :
    ⦃fr.Pre⦄ restart e ⦃fr.Post⦄ := by
  unfold restart; mvcgen

@[spec] theorem disconnect_frame (e : Nat) (terminateDebuggee : Option Bool) :
    ⦃fr.Pre⦄ disconnect e terminateDebuggee ⦃fr.Post⦄ := by
  unfold disconnect; mvcgen

@[spec] theorem setBreakpoints_frame (e : Nat) (file : Option String) (specs : List Json) :
    ⦃fr.Pre⦄ setBreakpoints e file specs ⦃fr.Post⦄ := by
  unfold setBreakpoints
  mvcgen -trivial
  all_goals assumption

@[spec] theorem setFunctionBreakpoints_frame (e : Nat) (specs : List Json) :
    ⦃fr.Pre⦄ setFunctionBreakpoints e specs ⦃fr.Post⦄ := by
  unfold setFunctionBreakpoints; mvcgen

@[spec] theorem setExceptionBreakpoints_frame (e : Nat) (filters : List Json) :
    ⦃fr.Pre⦄ setExceptionBreakpoints e filters ⦃fr.Post⦄ := by
  unfold setExceptionBreakpoints; mvcgen

@[spec] theorem setDataBreakpoints_frame (e : Nat) (specs : List Json) :
    ⦃fr.Pre⦄ setDataBreakpoints e specs ⦃fr.Post⦄ := by
  unfold setDataBreakpoints; mvcgen

@[spec] theorem ask_frame (e : Nat) (command : String) (args : Option Json) (use : Use) :
    ⦃fr.Pre⦄ ask e command args use ⦃fr.Post⦄ := by
  unfold ask; mvcgen

@[spec] theorem threads_frame (e : Nat) :
    ⦃fr.Pre⦄ threads e ⦃fr.Post⦄ := by
  unfold threads; mvcgen

@[spec] theorem stackTrace_frame (e : Nat) (threadId : Double) (startFrame levels : Option Double) :
    ⦃fr.Pre⦄ stackTrace e threadId startFrame levels ⦃fr.Post⦄ := by
  unfold stackTrace; mvcgen

@[spec] theorem scopes_frame (e : Nat) (frameId : Double) :
    ⦃fr.Pre⦄ scopes e frameId ⦃fr.Post⦄ := by
  unfold scopes; mvcgen

@[spec] theorem describeEntry_frame (e : Nat) (entry : String × Json) :
    ⦃fr.Pre⦄ describeEntry e entry ⦃fr.Post⦄ := by
  unfold describeEntry; mvcgen

@[spec] theorem describeObject_frame (e : Nat) (value : Json) :
    ⦃fr.Pre⦄ describeObject e value ⦃fr.Post⦄ := by
  unfold describeObject; mvcgen

@[spec] theorem listVariables_frame (e : Nat) (reference : Double) (filter : Option String) (start count : Option Double) :
    ⦃fr.Pre⦄ listVariables e reference filter start count ⦃fr.Post⦄ := by
  unfold listVariables; mvcgen

@[spec] theorem setVariable_frame (e : Nat) (reference : Double) (name value : String) :
    ⦃fr.Pre⦄ setVariable e reference name value ⦃fr.Post⦄ := by
  unfold setVariable; mvcgen

@[spec] theorem evaluate_frame (e : Nat) (expression : String) (frameId : Option Double) (context : Option String) :
    ⦃fr.Pre⦄ evaluate e expression frameId context ⦃fr.Post⦄ := by
  unfold evaluate; mvcgen

@[spec] theorem setExpression_frame (e : Nat) (expression value : String) (frameId : Option Double) :
    ⦃fr.Pre⦄ setExpression e expression value frameId ⦃fr.Post⦄ := by
  unfold setExpression; mvcgen

@[spec] theorem completions_frame (e : Nat) (text : String) (column : Double) (frameId line : Option Double) :
    ⦃fr.Pre⦄ completions e text column frameId line ⦃fr.Post⦄ := by
  unfold completions; mvcgen

@[spec] theorem loadedSources_frame (e : Nat) :
    ⦃fr.Pre⦄ loadedSources e ⦃fr.Post⦄ := by
  unfold loadedSources; mvcgen

@[spec] theorem source_frame (e : Nat) (reference : Option Double) (path : Option String) :
    ⦃fr.Pre⦄ source e reference path ⦃fr.Post⦄ := by
  unfold source; mvcgen

@[spec] theorem modules_frame (e : Nat) (start count : Option Double) :
    ⦃fr.Pre⦄ modules e start count ⦃fr.Post⦄ := by
  unfold modules; mvcgen

@[spec] theorem exceptionInfo_frame (e : Nat) (threadId : Double) :
    ⦃fr.Pre⦄ exceptionInfo e threadId ⦃fr.Post⦄ := by
  unfold exceptionInfo; mvcgen

@[spec] theorem stepInTargets_frame (e : Nat) (frameId : Double) :
    ⦃fr.Pre⦄ stepInTargets e frameId ⦃fr.Post⦄ := by
  unfold stepInTargets; mvcgen

@[spec] theorem evaluationReference_frame (e : Nat) (body : Json) :
    ⦃fr.Pre⦄ evaluationReference e body ⦃fr.Post⦄ := by
  unfold evaluationReference; mvcgen

@[spec] theorem useReply_frame (e : Nat) (use : Use) (v : Val) :
    ⦃fr.Pre⦄ useReply e use v ⦃fr.Post⦄ := by
  unfold useReply; mvcgen

@[spec] theorem answered_frame (e p : Nat) (use : Use) (o : Outcome) :
    ⦃fr.Pre⦄ answered e p use o ⦃fr.Post⦄ := by
  unfold answered; mvcgen

@[spec] theorem frameLocals_frame (e : Nat) (frameId : Double) :
    ⦃fr.Pre⦄ frameLocals e frameId ⦃fr.Post⦄ := by
  unfold frameLocals; mvcgen

@[spec] theorem localsFetched_frame (p : Nat) (frameId : Double) (o : Outcome) :
    ⦃fr.Pre⦄ localsFetched p frameId o ⦃fr.Post⦄ := by
  unfold localsFetched; mvcgen

@[spec] theorem dataBreakpointInfo_frame (e : Nat) (name : String) (frameId : Double) :
    ⦃fr.Pre⦄ dataBreakpointInfo e name frameId ⦃fr.Post⦄ := by
  unfold dataBreakpointInfo; mvcgen

@[spec] theorem localsRead_frame (p : Nat) (name : String) (frameId : Double) (o : Outcome) :
    ⦃fr.Pre⦄ localsRead p name frameId o ⦃fr.Post⦄ := by
  unfold localsRead; mvcgen

@[spec] theorem sendExited_frame (e : Nat) (code : Json) :
    ⦃fr.Pre⦄ sendExited e code ⦃fr.Post⦄ := by
  unfold sendExited; mvcgen

@[spec] theorem onStopped_frame (e : Nat) (m : Json) :
    ⦃fr.Pre⦄ onStopped e m ⦃fr.Post⦄ := by
  unfold onStopped; mvcgen

@[spec] theorem onThread_frame (e : Nat) (m : Json) :
    ⦃fr.Pre⦄ onThread e m ⦃fr.Post⦄ := by
  unfold onThread; mvcgen

@[spec] theorem handleProbeMessage_frame (e : Nat) (m : Json) :
    ⦃fr.Pre⦄ handleProbeMessage e m ⦃fr.Post⦄ := by
  unfold handleProbeMessage; mvcgen

@[spec] theorem handleProbeDisconnected_frame (e : Nat) (reason : Option String) :
    ⦃fr.Pre⦄ handleProbeDisconnected e reason ⦃fr.Post⦄ := by
  unfold handleProbeDisconnected; mvcgen

@[spec] theorem handleProcessExit_frame (e : Nat) (code signal : Json) :
    ⦃fr.Pre⦄ handleProcessExit e code signal ⦃fr.Post⦄ := by
  unfold handleProcessExit; mvcgen

@[spec] theorem handleProcessError_frame (e : Nat) (message : String) :
    ⦃fr.Pre⦄ handleProcessError e message ⦃fr.Post⦄ := by
  unfold handleProcessError; mvcgen

@[spec] theorem emitProgramOutput_frame (category : String) (text : Text) :
    ⦃fr.Pre⦄ emitProgramOutput category text ⦃fr.Post⦄ := by
  unfold emitProgramOutput; mvcgen

@[spec] theorem create_frame (defaults : EngineDefaults) (timeout : Json) (watch : WatchConfig) (canProbe : Bool) :
    ⦃fr.Pre⦄ create defaults timeout watch canProbe ⦃fr.Post⦄ := by
  unfold create; mvcgen

/-! ## Dispatch -/

@[spec] theorem checked_frame (schema : Schema) (args : Option Json) (command : String) :
    ⦃fr.Pre⦄ checked schema args command ⦃fr.Post⦄ := by
  unfold checked; mvcgen

@[spec] theorem handling_frame (e : Nat) (command : String) (args : Option Json) :
    ⦃fr.Pre⦄ handling e command args ⦃fr.Post⦄ := by
  unfold handling; mvcgen

@[spec] theorem handle_frame (e : Nat) (command : String) (args : Option Json) :
    ⦃fr.Pre⦄ handle e command args ⦃fr.Post⦄ := by
  unfold handle; mvcgen

@[spec] theorem handled_frame (p : Nat) (wrap : Wrap) (o : Outcome) :
    ⦃fr.Pre⦄ handled p wrap o ⦃fr.Post⦄ := by
  unfold handled; mvcgen

@[spec] theorem dispatch_frame (e : Nat) (command : String) (args : Option Json) :
    ⦃fr.Pre⦄ dispatch e command args ⦃fr.Post⦄ := by
  unfold dispatch; mvcgen

end Session

/-- The continuations of the front end: the answer to a request and the closing of the wire. -/
def Cont.isFront : Cont → Bool
  | .served _ | .serverClosed => true
  | _ => false

theorem Cont.servedRef?_eq_none {k : Cont} (h : k.isFront = false) : k.servedRef? = none := by
  cases k <;> simp_all [isFront, servedRef?]

/-- The jobs that run front-end continuations. -/
def Job.isFront : Job Outcome Cont → Bool
  | .react (.resume k) _ => k.isFront
  | _ => false

theorem Job.servedRef?_of_isFront {j : Job Outcome Cont} (h : j.isFront = false) : j.servedRef? = none := by
  rcases j with ⟨r, o⟩ | ⟨t, s⟩
  · cases r with
    | resume k => simpa [Job.servedRef?, Job.reaction?, Reaction.servedRef?] using Cont.servedRef?_eq_none h
    | forward t => rfl
  · rfl

namespace Frontend

open Act

variable (fr : FrontFrame)

@[spec] theorem newEngine_frame : ⦃fr.Pre⦄ newEngine ⦃fr.Post⦄ := by
  unfold newEngine; mvcgen

end Frontend

namespace Act

variable (fr : FrontFrame)

/-- Every continuation but the front end's own is engine code. -/
theorem resume_frame (k : Cont) (o : Outcome) (hk : k.isFront = false) : ⦃fr.Pre⦄ resume k o ⦃fr.Post⦄ := by
  cases k <;> simp only [Cont.isFront] at hk <;> unfold resume <;> mvcgen

@[spec] theorem runErrand_frame (inbox : Nat) (x : Errand) : ⦃fr.Pre⦄ runErrand inbox x ⦃fr.Post⦄ := by
  unfold runErrand; mvcgen

@[spec] theorem drainInbox_frame (i : Nat) : ⦃fr.Pre⦄ drainInbox i ⦃fr.Post⦄ := by
  unfold drainInbox; mvcgen

@[spec] theorem runTurn_frame (t : Turn) : ⦃fr.Pre⦄ runTurn t ⦃fr.Post⦄ := by
  unfold runTurn; mvcgen

/-- Every job but one that runs a front-end continuation keeps the frame; adopting a promise
only forwards it. -/
theorem runJob_frame (j : Job Outcome Cont) (hj : j.isFront = false) : ⦃fr.Pre⦄ runJob j ⦃fr.Post⦄ := by
  rcases j with ⟨r, o⟩ | ⟨t, s⟩
  · cases r with
    | resume k => exact resume_frame fr k o hj
    | forward t => unfold runJob; mvcgen
  · unfold runJob
    mvcgen
    rename_i w h
    exact ⟨FrontFrame.Sees.loop (by simp) (Loop.inFlight_listen_of _ (r := .forward t) rfl s) h.1, h.2⟩

end Act

namespace Rig

open Act

variable (fr : FrontFrame)

@[spec] theorem probeEmits_frame (m : Json) :
    ⦃fr.Pre⦄ probeEmits m ⦃fr.Post⦄ := by
  unfold probeEmits; mvcgen

@[spec] theorem probeWritesBytes_frame (bytes : List UInt8) :
    ⦃fr.Pre⦄ probeWritesBytes bytes ⦃fr.Post⦄ := by
  unfold probeWritesBytes; mvcgen

@[spec] theorem probeHangsUp_frame :
    ⦃fr.Pre⦄ probeHangsUp ⦃fr.Post⦄ := by
  unfold probeHangsUp; mvcgen

@[spec] theorem connectProbe_frame :
    ⦃fr.Pre⦄ connectProbe ⦃fr.Post⦄ := by
  unfold connectProbe; mvcgen

@[spec] theorem openProbeListener_frame (ep : Endpoint) (binary : Bool) :
    ⦃fr.Pre⦄ openProbeListener ep binary ⦃fr.Post⦄ := by
  unfold openProbeListener; mvcgen

@[spec] theorem spawn_frame (command : Json) (args : List Json) (opts : SpawnOptions) :
    ⦃fr.Pre⦄ spawn command args opts ⦃fr.Post⦄ := by
  unfold spawn; mvcgen

@[spec] theorem childWrites_frame (index : Nat) (stdout : Bool) (bytes : List UInt8) :
    ⦃fr.Pre⦄ childWrites index stdout bytes ⦃fr.Post⦄ := by
  unfold childWrites; mvcgen

@[spec] theorem childExits_frame (index : Nat) (code signal : Json) :
    ⦃fr.Pre⦄ childExits index code signal ⦃fr.Post⦄ := by
  unfold childExits; mvcgen

@[spec] theorem childFails_frame (index : Nat) (message : String) :
    ⦃fr.Pre⦄ childFails index message ⦃fr.Post⦄ := by
  unfold childFails; mvcgen

end Rig

end DapBridge
