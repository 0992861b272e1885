import DapBridge.Session.Rig
import DapBridge.Proofs.Settlement
import DapBridge.Proofs.FrameIndex
import DapBridge.Proofs.Windows

/-!
# Answers from what a stop keeps

While the debuggee is stopped, a session keeps part of what the probe told it: the stack of each
thread it asked about in full, and the variables of the lists it handed references out for or the
probe reported. Requests about them are then answered at once, without the probe. This module
says what those answers are:

* `stackTrace_kept`: a stack trace of a kept stack is the window asked for (`stackWindow`, the
  plain window for whole numbers by `stackWindow_ofNat`), with the number of kept frames as the
  total;
* `answered_whole_stack`: the probe's reply to a whole stack is answered with the frames and the
  total it reports, and keeps the frames, not the total;
* `stack_trace_served_from_reply`: the two put together along any calls that leave the thread's
  stack alone (`Registry.Call.Spares`, carried by `Registry.stackFrames?_runCalls`). The kept
  answer's total is the first answer's only when the reply reports no other
  (`stack_trace_total_not_kept`);
* `held_variables_ignore_paging`: a variables request for a list the session holds in full is
  answered with the whole list, whatever window it asks for (`paged_variables_get_whole_list`).
-/

namespace DapBridge

namespace Json

/-- A number is the same key as itself: NaN is itself, and any other number equals itself. -/
theorem same_num_self (x : Double) : KeyEq.same (some (Json.num x)) (some (Json.num x)) = true := by
  simp only [KeyEq.same, sameValue, sameKey, Bool.or_eq_true, Bool.and_self]
  cases h : x.decode with
  | nan => exact .inr (by simp [Double.isNaN, h])
  | infinite a => exact .inl (by simp [Double.eq, Double.compareNum, h])
  | finite a m e => exact .inl (by simp [Double.eq, Double.compareNum, Double.compareFinite, h])

end Json

namespace Registry

/-- A call that leaves the stack of thread `t` alone: it gives or removes the stack of another
thread, or touches no stack, and it does not end the stop. -/
def Call.Spares (t : Option Json) : Call → Prop
  | .setStackFrames u _ => KeyEq.same u t = false
  | .removeThread u => KeyEq.same u t = false
  | .resetStopState | .clearAll => False
  | _ => True

/-- A call whose frames are lists of values with an id to read keeps every stack such a list. -/
theorem Stored.call {r : Registry} (hr : r.Stored) {x : Call} (hx : x.Framed) : (r.call x).1.Stored := by
  rcases framePart_call r x with h | ⟨u, v, rfl⟩ | ⟨u, rfl⟩ | rfl | rfl
  · intro t v ht
    exact hr t v (by simpa [stackFrames?, (Prod.mk.inj h).1] using ht)
  · obtain ⟨-, xs, rfl, hxs⟩ := hx
    intro t v ht
    rw [Registry.call, (setStackFrames_spec hr hxs).1 t] at ht
    split at ht
    · exact ⟨xs, (Option.some.inj ht).symm, hxs⟩
    · exact hr t v ht
  · intro t v ht
    rw [Registry.call, (removeThread_spec hr u).1 t] at ht
    split at ht
    · cases ht
    · exact hr t v ht
  · intro t v ht
    simp [Registry.call, resetStopState, stackFrames?, Table.get?_empty] at ht
  · intro t v ht
    simp [Registry.call, clearAll, resetStopState, stackFrames?, Table.get?_empty] at ht

/-- A call that spares thread `t` leaves its stack as it was. -/
theorem stackFrames?_call {r : Registry} (hr : r.Stored) {x : Call} (hx : x.Framed) {t : Option Json}
    (hs : x.Spares t) : (r.call x).1.stackFrames? t = r.stackFrames? t := by
  rcases framePart_call r x with h | ⟨u, v, rfl⟩ | ⟨u, rfl⟩ | rfl | rfl
  · simp [stackFrames?, (Prod.mk.inj h).1]
  · obtain ⟨-, xs, rfl, hxs⟩ := hx
    rw [call, (setStackFrames_spec hr hxs).1 t]
    simp only [Call.Spares] at hs
    simp [hs]
  · rw [call, (removeThread_spec hr u).1 t]
    simp only [Call.Spares] at hs
    simp [hs]
  · exact absurd hs id
  · exact absurd hs id

/-- Along a run of calls that all spare thread `t`, its stack stays as it was. -/
theorem stackFrames?_runCalls {r : Registry} (hr : r.Stored) {t : Option Json} {cs : List Call}
    (hcs : ∀ x ∈ cs, x.Framed ∧ x.Spares t) : (r.runCalls cs).1.stackFrames? t = r.stackFrames? t := by
  induction cs generalizing r with
  | nil => rfl
  | cons x cs ih =>
    have hx := hcs x List.mem_cons_self
    rw [runCalls, ih (hr.call hx.1) (fun y hy => hcs y (List.mem_cons_of_mem x hy)),
      stackFrames?_call hr hx.1 hx.2]

/-- Along a run of calls whose frames are lists of values with an id to read, every stack stays
such a list. -/
theorem Stored.runCalls {r : Registry} (hr : r.Stored) {cs : List Call} (hcs : ∀ x ∈ cs, x.Framed) :
    (r.runCalls cs).1.Stored := by
  induction cs generalizing r with
  | nil => exact hr
  | cons x cs ih => exact ih (hr.call (hcs x List.mem_cons_self)) fun y hy => hcs y (List.mem_cons_of_mem x hy)

/-- A fresh registry keeps no stacks. -/
theorem Stored.create (start : Double) : (create start).Stored := by
  intro t v ht
  cases ht

end Registry

/-- The registry of an engine's session. -/
def World.sessionRegistry (w : World) (e : Nat) : Registry := (w.execAt (w.engineAt e).exec).registry

@[simp] theorem World.engineAt_setLoop (w : World) (l : Loop Outcome Cont Turn) (j : Nat) :
    (w.setLoop l).engineAt j = w.engineAt j := rfl

@[simp] theorem World.engineAt_withExec (w : World) (i j : Nat) (f : Execution → Execution) :
    (w.withExec i f).engineAt j = w.engineAt j := rfl

/-- The front end with its first engine, number `0`, from plain settings: no probe script, no
refusals, process ids from 4000. -/
def World.plain : World :=
  World.create ⟨⟨default, .num 10000, WatchConfig.standard, true⟩, 4000, [], [], [], ⟨0, fun _ => "", Path.hostTree, Validator.standard⟩, default, false⟩

namespace Session

open Act

variable (w : World) (e : Nat)

theorem execOf_run : (execOf e).run w = .ok (w.engineAt e).exec w := rfl

theorem registryOf_run : (registryOf e).run w = .ok (w.sessionRegistry e) w := rfl

/-- A stack trace answer: the frames, and the total number of frames. -/
def stackAnswer (fs : List Json) (total : Double) : Json :=
  Json.object [("stackFrames", .arr fs), ("totalFrames", .num total)]

/-- The frames a reply body lists, as the session answers them and keeps them. -/
def replyFrames (body : Json) : List Json := (Report.stackFrames body).map StackFrame.toJson

/-- The total a reply body reports: its own finite `totalFrames`, else the number of frames it
lists. -/
def replyTotal (body : Json) : Double :=
  (Report.numberAt? body "totalFrames").getD (Double.ofNat (Report.stackFrames body).length)

/-- The frames a stack trace asks for: from `start` on (`0` when absent), `levels` of them when
that is above zero, else all the rest. -/
def stackWindow (fs : List Json) (start levels : Option Double) : List Json :=
  sliceBy fs (start.getD 0) (if Double.lt 0 (levels.getD 0) then some (start.getD 0 + levels.getD 0) else none)

/-- For whole numbers, the window a stack trace asks for is the plain one: `levels` frames from
`start`, or all from `start` on when `levels` is `0`. -/
theorem stackWindow_ofNat (fs : List Json) {start levels : Option Double} {s l : Nat}
    (hs : start.getD 0 = Double.ofNat s) (hl : levels.getD 0 = Double.ofNat l) (h : s + l ≤ 2 ^ 53) :
    stackWindow fs start levels = if l = 0 then fs.drop s else (fs.drop s).take l := by
  have hs' : s ≤ 2 ^ 53 := by omega
  simp only [stackWindow, hs, hl, Double.lt_zero_ofNat (show l ≤ 2 ^ 53 by omega)]
  rcases Nat.eq_zero_or_pos l with rfl | hpos
  · simp [sliceBy_ofNat_none fs hs']
  · simp only [hpos, decide_true, if_true, Nat.pos_iff_ne_zero.1 hpos, if_false, Double.ofNat_add_ofNat h,
      sliceBy_ofNat fs hs' h, Nat.add_sub_cancel_left]

/-- A stack trace of a thread whose stack the session keeps is answered from it at once: the
window of the kept frames, and their number as the total. Nothing but a settled promise is added
to the world, so the probe hears nothing. -/
theorem stackTrace_kept {t : Double} {fs : List Json} (start levels : Option Double)
    (ht : isTaskThreadId (some (.num t)) = false)
    (hk : (w.sessionRegistry e).stackFrames? (some (.num t)) = some (some (.arr fs))) :
    (stackTrace e t start levels).run w =
      .ok w.loop.cells.size (w.setLoop (w.loop.done (.ok (.json (stackAnswer (stackWindow fs start levels)
        (Double.ofNat fs.length))))).2) := by
  simp only [World.sessionRegistry] at hk
  simp only [stackTrace, EStateM.run_bind, execOf_run, EStateM.run_get, ht, hk, Bool.false_eq_true, if_false]
  rfl

/-- The probe's reply to a stack trace of a whole stack (from frame `0`, no limit) whose body is
a record: the request is answered with the frames the body lists and the total it reports, and
the thread's stack is set to those frames. -/
theorem answered_whole_stack {p : Nat} {t : Double} {body : Json} (hb : isRecord body = true) :
    (answered e p (.stackTrace t 0 0) (.ok (.json body))).run w =
      .ok () ((w.withExec (w.engineAt e).exec fun ex => { ex with registry :=
          (ex.registry.setStackFrames (some (.num t)) (some (.arr (replyFrames body)))).2 }).setLoop
        (w.loop.settle p (.ok (.json (stackAnswer (replyFrames body) (replyTotal body)))))) := by
  have hz : Double.eq 0 0 = true := by decide
  simp only [answered, EStateM.run_bind, run_attempt, useReply, recordOf?, hb, if_true, hz, Bool.and_self,
    withRegistry, execOf_run]
  rfl

theorem replyTotal_eq_length_iff (body : Json) :
    replyTotal body = Double.ofNat (replyFrames body).length ↔
      Report.numberAt? body "totalFrames" = none ∨
        Report.numberAt? body "totalFrames" = some (Double.ofNat (replyFrames body).length) := by
  simp only [replyTotal, replyFrames, List.length_map]
  cases Report.numberAt? body "totalFrames" <;> simp [eq_comm]

/-- A kept stack is the frames of the probe's answer it came from, for as long as nothing gives
or removes the thread's stack. Take a session whose registry has so far been given lists of
frames with an id to read, a thread `t` that is no task thread, and the probe's reply to a stack
trace of `t`'s whole stack whose body is a record. The request is answered with the frames the
body lists, `F`, and the total it reports. After any calls that spare `t`, every stack trace of
`t` is answered at once from `F`: the window asked for, with the length of `F` as the total, which
is the first answer's total exactly when the body reports no total or the length of `F`. -/
theorem stack_trace_served_from_reply {w w' : World} {e p : Nat} {t s : Double} {body : Json}
    {before between : List Registry.Call} (start levels : Option Double)
    (ht : isTaskThreadId (some (.num t)) = false) (hb : isRecord body = true)
    (hbefore : ∀ x ∈ before, x.Framed) (hw : w.sessionRegistry e = ((Registry.create s).runCalls before).1)
    (hbetween : ∀ x ∈ between, x.Framed ∧ x.Spares (some (.num t)))
    (hw' : w'.sessionRegistry e = (((w.sessionRegistry e).setStackFrames (some (.num t))
      (some (.arr (replyFrames body)))).2.runCalls between).1) :
    (answered e p (.stackTrace t 0 0) (.ok (.json body))).run w =
        .ok () ((w.withExec (w.engineAt e).exec fun ex => { ex with registry :=
            (ex.registry.setStackFrames (some (.num t)) (some (.arr (replyFrames body)))).2 }).setLoop
          (w.loop.settle p (.ok (.json (stackAnswer (replyFrames body) (replyTotal body)))))) ∧
      (stackTrace e t start levels).run w' =
        .ok w'.loop.cells.size (w'.setLoop (w'.loop.done (.ok (.json (stackAnswer
          (stackWindow (replyFrames body) start levels) (Double.ofNat (replyFrames body).length))))).2) ∧
      (replyTotal body = Double.ofNat (replyFrames body).length ↔
        Report.numberAt? body "totalFrames" = none ∨
          Report.numberAt? body "totalFrames" = some (Double.ofNat (replyFrames body).length)) := by
  have hst : ((Registry.create s).runCalls before).1.Stored := (Registry.Stored.create s).runCalls hbefore
  -- the frames the reply lists are objects, so the stack set from them is a list of frames too
  have hfs : ∀ x ∈ replyFrames body, x ≠ .null := by
    intro x hx
    obtain ⟨f, -, rfl⟩ := List.mem_map.1 hx
    simp [StackFrame.toJson, Json.objectOpt]
  have hset := (Registry.setStackFrames_spec (t := some (.num t)) hst hfs).1
  have hst' : (((Registry.create s).runCalls before).1.setStackFrames (some (.num t))
      (some (.arr (replyFrames body)))).2.Stored := by
    intro u v hu
    rw [hset u] at hu
    split at hu
    · exact ⟨_, (Option.some.inj hu).symm, hfs⟩
    · exact hst u v hu
  have hkept : (w'.sessionRegistry e).stackFrames? (some (.num t)) = some (some (.arr (replyFrames body))) := by
    rw [hw', hw, Registry.stackFrames?_runCalls hst' hbetween, hset, if_pos (Json.same_num_self t)]
  exact ⟨answered_whole_stack w e hb, stackTrace_kept w' e start levels ht hkept, replyTotal_eq_length_iff body⟩

/-- A probe reply to a stack trace that lists one frame, with id `7`, and the given other fields. -/
def oneFrameReply (rest : List (String × Json)) : Json :=
  Json.object (("stackFrames", .arr [Json.object [("id", .num 7)]]) :: rest)

/-- The front end from plain settings with one promise made, waiting for the probe. -/
def World.asking : World := World.plain.setLoop World.plain.loop.fresh.2

/-- A session that has been told nothing, and the probe's reply to a stack trace of thread `1`
that lists one frame and no total: the reply is answered with that frame, and the stack trace
asked for next is answered from it. -/
theorem stack_trace_served_from_reply_one_frame :
    isTaskThreadId (some (.num 1)) = false ∧ isRecord (oneFrameReply []) = true ∧
      (∀ x ∈ ([] : List Registry.Call), x.Framed) ∧
      World.asking.sessionRegistry 0 = ((Registry.create firstReference).runCalls []).1 ∧
      (∀ x ∈ ([] : List Registry.Call), x.Framed ∧ x.Spares (some (.num 1))) ∧
      (World.asking.exec (answered 0 0 (.stackTrace 1 0 0) (.ok (.json (oneFrameReply []))))).sessionRegistry 0 =
        (((World.asking.sessionRegistry 0).setStackFrames (some (.num 1))
          (some (.arr (replyFrames (oneFrameReply []))))).2.runCalls []).1 ∧
      (answered 0 0 (.stackTrace 1 0 0) (.ok (.json (oneFrameReply [])))).run World.asking =
        .ok () ((World.asking.withExec (World.asking.engineAt 0).exec fun ex => { ex with registry :=
            (ex.registry.setStackFrames (some (.num 1)) (some (.arr (replyFrames (oneFrameReply []))))).2 }).setLoop
          (World.asking.loop.settle 0 (.ok (.json (stackAnswer (replyFrames (oneFrameReply []))
            (replyTotal (oneFrameReply []))))))) ∧
      (stackTrace 0 1 none none).run (World.asking.exec (answered 0 0 (.stackTrace 1 0 0) (.ok (.json (oneFrameReply []))))) =
        .ok (World.asking.exec (answered 0 0 (.stackTrace 1 0 0) (.ok (.json (oneFrameReply []))))).loop.cells.size
          ((World.asking.exec (answered 0 0 (.stackTrace 1 0 0) (.ok (.json (oneFrameReply []))))).setLoop
            ((World.asking.exec (answered 0 0 (.stackTrace 1 0 0) (.ok (.json (oneFrameReply []))))).loop.done
              (.ok (.json (stackAnswer (stackWindow (replyFrames (oneFrameReply [])) none none)
                (Double.ofNat (replyFrames (oneFrameReply [])).length))))).2) ∧
      (replyTotal (oneFrameReply []) = Double.ofNat (replyFrames (oneFrameReply [])).length ↔
        Report.numberAt? (oneFrameReply []) "totalFrames" = none ∨
          Report.numberAt? (oneFrameReply []) "totalFrames" = some (Double.ofNat (replyFrames (oneFrameReply [])).length)) := by
  have ht : isTaskThreadId (some (.num 1)) = false := by decide
  have hnil : ∀ x ∈ ([] : List Registry.Call), x.Framed ∧ x.Spares (some (.num 1)) :=
    fun _ h => absurd h List.not_mem_nil
  have hw' : (World.asking.exec (answered 0 0 (.stackTrace 1 0 0) (.ok (.json (oneFrameReply []))))).sessionRegistry 0 =
      (((World.asking.sessionRegistry 0).setStackFrames (some (.num 1))
        (some (.arr (replyFrames (oneFrameReply []))))).2.runCalls []).1 := by
    rw [World.exec, answered_whole_stack _ _ rfl]
    rfl
  exact ⟨ht, rfl, fun _ h => absurd h List.not_mem_nil, rfl, hnil, hw',
    stack_trace_served_from_reply none none ht rfl (fun _ h => absurd h List.not_mem_nil) rfl hnil hw'⟩

/-- The probe's reply to a stack trace of thread `1` lists one frame and reports 5 frames in all.
The request it answers gets a total of 5; the stack trace asked for right after it, in the same
stop, is answered from the kept frame and gets a total of 1. -/
theorem stack_trace_total_not_kept :
    (World.asking.exec (answered 0 0 (.stackTrace 1 0 0) (.ok (.json (oneFrameReply [("totalFrames", .num 5)]))))).loop.outcome? 0 =
        some (.ok (.json (stackAnswer (replyFrames (oneFrameReply [("totalFrames", .num 5)])) 5))) ∧
      ((World.asking.exec (answered 0 0 (.stackTrace 1 0 0) (.ok (.json (oneFrameReply [("totalFrames", .num 5)]))))).exec
          (discard (stackTrace 0 1 none none))).loop.outcome? 1 =
        some (.ok (.json (stackAnswer (replyFrames (oneFrameReply [("totalFrames", .num 5)])) (Double.ofNat 1)))) := by
  have hw₁ := World.exec_of_run _
    (@answered_whole_stack World.asking 0 0 1 (oneFrameReply [("totalFrames", .num 5)]) rfl)
  constructor
  · rw [hw₁, World.setLoop_loop, Loop.outcome?_settle_self _ _ (by decide) (by decide)]
    rfl
  · have hk : ((World.asking.exec (answered 0 0 (.stackTrace 1 0 0)
        (.ok (.json (oneFrameReply [("totalFrames", .num 5)]))))).sessionRegistry 0).stackFrames? (some (.num 1)) =
          some (some (.arr (replyFrames (oneFrameReply [("totalFrames", .num 5)])))) := by
      rw [hw₁]
      rfl
    have hsize : (World.asking.exec (answered 0 0 (.stackTrace 1 0 0)
        (.ok (.json (oneFrameReply [("totalFrames", .num 5)]))))).loop.cells.size = 1 := by
      rw [hw₁]
      rfl
    -- one frame is kept, so the whole window is that frame and the total is 1
    have hlen : (replyFrames (oneFrameReply [("totalFrames", .num 5)])).length = 1 := rfl
    rw [World.exec, run_discard, stackTrace_kept _ 0 none none (by decide) hk,
      stackWindow_ofNat _ (s := 0) (l := 0) rfl rfl (by decide)]
    simp only [World.setLoop_loop, Loop.outcome?_done, hsize, hlen, if_true, List.drop_zero]

/-- The variables a session holds in full for a reference: those of the list it handed the
reference out for, or, for a reference with no list or object behind it, those the probe reported
under it. -/
def heldVariables? (r : Registry) (reference : Double) : Option (List Variable) :=
  match (r.resolve? (some (.num reference))).join.bind Backing.ofJson? with
  | some (.list vs) => some vs
  | some (.object _) => none
  | _ => (r.probeVariables? (some (.num reference))).map fun vs => variablesOf (vs.getD .null)

/-- A variables request for a reference whose variables the session holds in full is answered at
once with all of them; nothing else changes, so the probe hears nothing. -/
theorem listVariables_held {reference : Double} (filter : Option String) (start count : Option Double)
    {vs : List Variable} (hz : Double.eq reference 0 = false)
    (hv : heldVariables? (w.sessionRegistry e) reference = some vs) :
    (listVariables e reference filter start count).run w =
      .ok w.loop.cells.size (w.setLoop (w.loop.done (.ok (.vars vs))).2) := by
  unfold heldVariables? at hv
  simp only [listVariables, hz, Bool.false_eq_true, if_false, EStateM.run_bind, registryOf_run]
  -- both matches read the same backing; naming it lets each case reduce them together
  generalize ((w.sessionRegistry e).resolve? (some (.num reference))).join.bind Backing.ofJson? = b at hv ⊢
  rcases b with _ | ⟨_ | ⟨_, _⟩ | held⟩
  case some.object => cases hv
  case some.list => cases hv; rfl
  -- no list or object behind the reference: the probe's report answers
  all_goals
    obtain ⟨reported, hreported, rfl⟩ := Option.map_eq_some_iff.1 hv
    simp only [EStateM.run_bind, EStateM.run_pure, hreported]
    rfl

/-- The reference handed out for a list of variables stands for that list, as the registry
stores it. -/
theorem heldVariables?_allocate_list (r : Registry) (vs : List Variable) (h0 : Double.eq r.nextReference 0 = false) :
    heldVariables? (r.allocate (some (Backing.list vs).toJson)).2 r.nextReference =
      some (variablesOf (.arr (vs.map Variable.toJson))) := by
  simp only [heldVariables?, Registry.allocate, Registry.resolve?, Json.identical, h0, Bool.false_eq_true, if_false,
    Table.get?_set, Json.same_num_self, if_true, Option.join_some, Option.bind_some]
  rfl

/-- A value that lists variables and gives no reference of its own is handed the next reference,
for the list. -/
theorem evaluationReference_list {body : Json} {xs : List Json}
    (hr : Report.numberAt? body "variablesReference" = none) (hv : body.field? "variables" = some (.arr xs)) :
    (evaluationReference e body).run w = .ok (w.sessionRegistry e).nextReference
      (w.withExec (w.engineAt e).exec fun ex => { ex with registry :=
        ((w.sessionRegistry e).allocate (some (Backing.list (Report.variableList body)).toJson)).2 }) := by
  have hz : Double.eq 0 0 = true := by decide
  simp only [evaluationReference, hr, Option.getD_none, hz, Bool.not_true, Bool.false_eq_true, if_false, hv,
    EStateM.run_bind, registryOf_run, withRegistry, execOf_run]
  rfl

/-- The probe's reply to an evaluation that lists variables and gives no reference: the session
keeps the list under the next reference. -/
theorem sessionRegistry_answered_evaluate_list {p : Nat} {expression : String} {body : Json} {xs : List Json}
    (hb : isRecord body = true) (hr : Report.numberAt? body "variablesReference" = none)
    (hv : body.field? "variables" = some (.arr xs)) (hx : (w.engineAt e).exec < w.execs.size) :
    (w.exec (answered e p (.evaluate expression) (.ok (.json body)))).sessionRegistry e =
      ((w.sessionRegistry e).allocate (some (Backing.list (Report.variableList body)).toJson)).2 := by
  obtain ⟨v, hrun⟩ : ∃ v, (answered e p (.evaluate expression) (.ok (.json body))).run w =
      .ok () ((w.withExec (w.engineAt e).exec fun ex => { ex with registry :=
        ((w.sessionRegistry e).allocate (some (Backing.list (Report.variableList body)).toJson)).2 }).setLoop
          (w.loop.settle p (.ok v))) :=
    ⟨_, by
      simp only [answered, EStateM.run_bind, run_attempt, useReply, recordOf?, hb, if_true,
        evaluationReference_list w e hr hv, EStateM.run_pure]
      rfl⟩
  rw [World.exec_of_run _ hrun]
  simp only [World.sessionRegistry, World.engineAt_setLoop, World.engineAt_withExec, World.execAt_setLoop,
    World.execAt_withExec, hx, and_self, if_true]

/-- A variables request for a list the session holds in full ignores the window it asks for: it
gets the answer of the request for the whole list, which is all of the list, at once. -/
theorem held_variables_ignore_paging {reference : Double} (filter : Option String) (start count : Option Double)
    {vs : List Variable} (hz : Double.eq reference 0 = false)
    (hv : heldVariables? (w.sessionRegistry e) reference = some vs) :
    (listVariables e reference filter start count).run w = (listVariables e reference none none none).run w ∧
      (listVariables e reference none none none).run w =
        .ok w.loop.cells.size (w.setLoop (w.loop.done (.ok (.vars vs))).2) :=
  ⟨(listVariables_held w e filter start count hz hv).trans (listVariables_held w e none none none hz hv).symm,
    listVariables_held w e none none none hz hv⟩

/-- The probe's reply to evaluating `locals()`: three variables, `a`, `b` and `c`, and no
reference of its own. -/
def threeLocals : Json :=
  Json.object [("result", .string "locals()"), ("variables", .arr [
    Json.object [("name", .string "a"), ("value", .string "1")],
    Json.object [("name", .string "b"), ("value", .string "2")],
    Json.object [("name", .string "c"), ("value", .string "3")]])]

/-- The first reference, `1000`, is not `0`. -/
theorem firstReference_ne_zero : Double.eq firstReference 0 = false :=
  Bool.eq_false_iff.2 fun h => absurd ((Double.eq_ofNat_iff (i := 1000) (j := 0) (by norm_num) (by norm_num)).1 h)
    (by norm_num)

/-- After the reply to evaluating `locals()`, the session holds its three variables under
reference `1000`. -/
theorem held_threeLocals :
    heldVariables? ((World.asking.exec (answered 0 0 (.evaluate "locals()") (.ok (.json threeLocals)))).sessionRegistry 0)
      1000 = some (Report.variableList threeLocals) := by
  have hnext : (World.asking.sessionRegistry 0).nextReference = firstReference := rfl
  rw [sessionRegistry_answered_evaluate_list World.asking 0 rfl rfl rfl (by decide), show (1000 : Double) = firstReference from rfl,
    ← hnext, heldVariables?_allocate_list _ _ (by rw [hnext]; exact firstReference_ne_zero)]
  rfl

/-- After the reply to evaluating `locals()` lists three variables, a request for one variable
from the second on is answered at once with all three, as the request for all of them is. -/
theorem held_variables_ignore_paging_evaluated :
    Double.eq 1000 0 = false ∧
      heldVariables? ((World.asking.exec (answered 0 0 (.evaluate "locals()") (.ok (.json threeLocals)))).sessionRegistry 0)
        1000 = some (Report.variableList threeLocals) ∧
      ((listVariables 0 1000 none (some 1) (some 1)).run
          (World.asking.exec (answered 0 0 (.evaluate "locals()") (.ok (.json threeLocals)))) =
        (listVariables 0 1000 none none none).run
          (World.asking.exec (answered 0 0 (.evaluate "locals()") (.ok (.json threeLocals)))) ∧
      (listVariables 0 1000 none none none).run
          (World.asking.exec (answered 0 0 (.evaluate "locals()") (.ok (.json threeLocals)))) =
        .ok (World.asking.exec (answered 0 0 (.evaluate "locals()") (.ok (.json threeLocals)))).loop.cells.size
          ((World.asking.exec (answered 0 0 (.evaluate "locals()") (.ok (.json threeLocals)))).setLoop
            ((World.asking.exec (answered 0 0 (.evaluate "locals()") (.ok (.json threeLocals)))).loop.done
              (.ok (.vars (Report.variableList threeLocals)))).2)) := by
  have hz : Double.eq 1000 0 = false := firstReference_ne_zero
  exact ⟨hz, held_threeLocals, held_variables_ignore_paging _ _ none (some 1) (some 1) hz held_threeLocals⟩

/-- The three variables of `locals()` held, a request for one variable from the second on gets
all three, where the window it asks for holds one. -/
theorem paged_variables_get_whole_list :
    ((World.asking.exec (answered 0 0 (.evaluate "locals()") (.ok (.json threeLocals)))).exec
        (discard (listVariables 0 1000 none (some 1) (some 1)))).loop.outcome? 1 =
      some (.ok (.vars (Report.variableList threeLocals))) ∧
      (Report.variableList threeLocals).length = 3 ∧
      (sliceBy (Report.variableList threeLocals) 1 (some 2)).length = 1 := by
  have hsize : (World.asking.exec (answered 0 0 (.evaluate "locals()") (.ok (.json threeLocals)))).loop.cells.size = 1 := rfl
  have hz : Double.eq 1000 0 = false := firstReference_ne_zero
  refine ⟨?_, rfl, ?_⟩
  · rw [World.exec, run_discard, listVariables_held _ _ none (some 1) (some 1) hz held_threeLocals]
    simp only [World.setLoop_loop, Loop.outcome?_done, hsize, if_true]
  · rw [show (1 : Double) = Double.ofNat 1 from rfl, show (2 : Double) = Double.ofNat 2 from rfl,
      sliceBy_ofNat _ (by norm_num) (by norm_num)]
    rfl

end Session

end DapBridge
