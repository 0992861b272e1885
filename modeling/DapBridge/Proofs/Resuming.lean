import DapBridge.Proofs.Lifecycle

/-!
# A resume that cannot be sent is not undone

`continue` and `step` on a stopped machine first run it again: the stop's threads, frames,
locals and references are forgotten, the pseudo-thread board is reset and the state is
running. Only then do they send the command to the sink. A write to a sink of any kind leaves
every machine alone (`writeSink_keeps`), so when the send fails, nothing puts the stop back.

`resume_rejected` says what a rejected promise of either command leaves:

* a machine that was not live (not started, or terminated) is refused before anything changes,
  and every machine is as it was;
* a stopped machine was run again, the send failed with the fault the promise holds, and every
  machine is as running it again left it.

`continue_without_sink_not_undone` shows the second case on the bench. A machine stopped at a
breakpoint of thread 1 has no sink and is continued. The promise is rejected with the transport
error, the machine is running, and thread 1 is no longer marked stopped. A second continue after
a sink is attached answers that not all threads continued.

The frame facts are stated for every action once (`KeepsExecs`): pure steps, reads and failures
keep the machines, and so do binds of actions that keep them.
-/

namespace DapBridge

namespace Act

/-- The machines a step leaves, whether it went through or failed. -/
def execsAfter {α : Type} : EStateM.Result Fault World α → Array Execution
  | .ok _ w => w.execs
  | .error _ w => w.execs

/-- An action that leaves every machine as it found it, whether it goes through or fails. -/
def KeepsExecs {α : Type} (a : Act α) : Prop := ∀ w, execsAfter (a.run w) = w.execs

namespace KeepsExecs

variable {α β : Type}

theorem pure (v : α) : KeepsExecs (Pure.pure v : Act α) := fun _ => rfl

theorem read : KeepsExecs (get : Act World) := fun _ => rfl

theorem fail (f : Fault) : KeepsExecs (throw f : Act α) := fun _ => rfl

theorem change {f : World → World} (hf : ∀ w, (f w).execs = w.execs) : KeepsExecs (Act.change f) := hf

theorem bind {a : Act α} {g : α → Act β} (ha : KeepsExecs a) (hg : ∀ v, KeepsExecs (g v)) :
    KeepsExecs (a >>= g) := by
  intro w
  have h := ha w
  simp only [EStateM.run_bind]
  cases hr : a.run w with
  | ok v w' =>
    rw [hr] at h
    exact (hg v w').trans h
  | error e w' =>
    rw [hr] at h
    exact h

theorem forM {xs : List α} {g : α → Act Unit} (hg : ∀ x, KeepsExecs (g x)) : KeepsExecs (xs.forM g) := by
  induction xs with
  | nil => exact pure ()
  | cons x xs ih => exact bind (hg x) fun _ => ih

end KeepsExecs

/-! ## Writing to a sink leaves the machines alone -/

theorem pipeWrite_keeps (s : Nat) (bytes : List UInt8) : KeepsExecs (pipeWrite s bytes) := by
  refine KeepsExecs.bind KeepsExecs.read fun w => ?_
  split
  · exact KeepsExecs.change fun _ => rfl
  · exact KeepsExecs.change fun _ => rfl

theorem channelWrite_keeps (c : Nat) (m : Json) : KeepsExecs (channelWrite c m) := by
  refine KeepsExecs.bind KeepsExecs.read fun w => ?_
  dsimp only
  split
  · exact KeepsExecs.fail _
  · split
    · exact KeepsExecs.fail _
    · exact pipeWrite_keeps _ _

theorem takeReaction_keeps (m : Json) : KeepsExecs (takeReaction m) := by
  refine KeepsExecs.bind KeepsExecs.read fun w => ?_
  split
  · exact KeepsExecs.bind (KeepsExecs.change fun _ => rfl) fun _ => KeepsExecs.pure _
  · exact KeepsExecs.pure _

/-- The in-process probe notes a command and refuses it or schedules its reactions. -/
theorem probeWrite_keeps (e : Nat) (m : Json) : KeepsExecs (probeWrite e m) := by
  refine KeepsExecs.bind KeepsExecs.read fun w => ?_
  split
  · refine KeepsExecs.bind (KeepsExecs.change fun _ => rfl) fun _ => ?_
    split
    · exact KeepsExecs.fail _
    · exact KeepsExecs.fail _
  · refine KeepsExecs.bind (KeepsExecs.change fun _ => rfl) fun _ => ?_
    exact KeepsExecs.bind (takeReaction_keeps m) fun _ => KeepsExecs.forM fun _ => KeepsExecs.change fun _ => rfl

/-- Every kind of sink: the probe, a channel, a gate that holds commands back, a recorder. -/
theorem writeSink_keeps (s : Sink) (m : Json) : KeepsExecs (writeSink s m) := by
  cases s with
  | probe e => exact probeWrite_keeps e m
  | channel c => exact channelWrite_keeps c m
  | gate c =>
    refine KeepsExecs.bind KeepsExecs.read fun w => ?_
    dsimp only
    split
    · exact channelWrite_keeps c m
    · exact KeepsExecs.change fun _ => rfl
  | recorder r =>
    cases r with
    | none => exact KeepsExecs.change fun _ => rfl
    | some r => exact KeepsExecs.fail _

theorem requireSink_keeps (x : Nat) : KeepsExecs (requireSink x) := by
  refine KeepsExecs.bind KeepsExecs.read fun w => ?_
  split
  · exact KeepsExecs.pure _
  · exact KeepsExecs.fail _

theorem execSend_keeps (x : Nat) (command : String) (args : Option Json) : KeepsExecs (execSend x command args) :=
  KeepsExecs.bind (requireSink_keeps x) fun s => writeSink_keeps s _

/-! ## What a rejected resume leaves -/

/-- What a rejected resuming command leaves: the machine was not live, and every machine is as
it was; or it was stopped, the send made after running it again failed with the fault, and
every machine is as running it again left it. -/
def ResumeRejected (w w' : World) (x : Nat) (operation : String) (send : Act Unit) (f : Fault) : Prop :=
  (liveFault (w.execAt x).current operation = some f ∧ w'.execs = w.execs) ∨
    ((w.execAt x).current.isStopped = true ∧ (∃ w₁, send.run (w.runAgain x) = .error f w₁) ∧
      w'.execs = (w.runAgain x).execs)

/-- A promise made with an outcome holds it, and the machines are as they were. -/
theorem done_rejected {w w' : World} {p : Nat} {o : Outcome} {f : Fault}
    (hrun : (EStateM.Result.ok w.loop.cells.size (w.setLoop (w.loop.done o).2) : EStateM.Result Fault World Nat) =
      .ok p w') (hf : w'.loop.outcome? p = some (.error f)) : o = .error f ∧ w'.execs = w.execs := by
  cases hrun
  simp only [World.setLoop, Loop.outcome?_done, if_true, Option.some.injEq] at hf
  exact ⟨hf, rfl⟩

/-- After running again, a send whose promise is rejected failed with its fault, and the
machines are as running again left them. -/
theorem send_rejected {w w' : World} {x p : Nat} {command : String} {args : Option Json} {v : Val} {f : Fault}
    (hrun : (match (execSend x command args).run (w.runAgain x) with
      | .ok () w' => (EStateM.Result.ok w'.loop.cells.size (w'.setLoop (w'.loop.done (.ok v)).2) :
          EStateM.Result Fault World Nat)
      | .error f w' => .ok w'.loop.cells.size (w'.setLoop (w'.loop.done (.error f)).2)) = .ok p w')
    (hf : w'.loop.outcome? p = some (.error f)) :
    (∃ w₁, (execSend x command args).run (w.runAgain x) = .error f w₁) ∧ w'.execs = (w.runAgain x).execs := by
  have hkeep := execSend_keeps x command args (w.runAgain x)
  cases hs : (execSend x command args).run (w.runAgain x) with
  | ok u w₁ =>
    rw [hs] at hrun
    cases (done_rejected hrun hf).1
  | error e w₁ =>
    rw [hs] at hrun hkeep
    obtain ⟨he, hexecs⟩ := done_rejected hrun hf
    cases he
    exact ⟨⟨w₁, rfl⟩, hexecs.trans hkeep⟩

theorem execContinue_rejected {w w' : World} {x p : Nat} {threadId : Option Json} {f : Fault}
    (hrun : (execContinue x threadId).run w = .ok p w') (hf : w'.loop.outcome? p = some (.error f)) :
    ResumeRejected w w' x "continue" (execSend x "continue" (some (Json.objectOpt [("threadId", threadId)]))) f := by
  rw [execContinue_run] at hrun
  cases hl : liveFault (w.execAt x).current "continue" with
  | some f' =>
    rw [hl] at hrun
    obtain ⟨ho, he⟩ := done_rejected hrun hf
    cases ho
    exact .inl ⟨hl, he⟩
  | none =>
    rw [hl] at hrun
    by_cases hs : (w.execAt x).current.isStopped = true
    · rw [if_pos hs] at hrun
      exact .inr ⟨hs, send_rejected hrun hf⟩
    · -- a live machine that is not stopped answers at once
      rw [if_neg hs] at hrun
      cases (done_rejected hrun hf).1

theorem execStep_rejected {w w' : World} {x p : Nat} {kind : String} {threadId : Option Json}
    {extra : List (String × Json)} {f : Fault}
    (hrun : (execStep x kind threadId extra).run w = .ok p w') (hf : w'.loop.outcome? p = some (.error f)) :
    ResumeRejected w w' x kind (execSend x kind (some (stepArguments threadId extra))) f := by
  rw [execStep_run] at hrun
  cases hl : liveFault (w.execAt x).current kind with
  | some f' =>
    rw [hl] at hrun
    obtain ⟨ho, he⟩ := done_rejected hrun hf
    cases ho
    exact .inl ⟨hl, he⟩
  | none =>
    rw [hl] at hrun
    by_cases hs : (w.execAt x).current.isStopped = true
    · rw [if_pos hs] at hrun
      exact .inr ⟨hs, send_rejected hrun hf⟩
    · rw [if_neg hs] at hrun
      cases (done_rejected hrun hf).1

/-- A resuming command is undone only when it is refused: in every world, for every sink, a
rejected `continue` or `step` either found the machine not live and left every machine as it
was, or found it stopped, ran it again and failed to send, leaving the machine running with the
stop forgotten. -/
theorem resume_rejected (w : World) (x : Nat) (threadId : Option Json) (kind : String)
    (extra : List (String × Json)) :
    (∀ p w' f, (execContinue x threadId).run w = .ok p w' → w'.loop.outcome? p = some (.error f) →
      ResumeRejected w w' x "continue" (execSend x "continue" (some (Json.objectOpt [("threadId", threadId)]))) f) ∧
    (∀ p w' f, (execStep x kind threadId extra).run w = .ok p w' → w'.loop.outcome? p = some (.error f) →
      ResumeRejected w w' x kind (execSend x kind (some (stepArguments threadId extra))) f) :=
  ⟨fun _ _ _ => execContinue_rejected, fun _ _ _ => execStep_rejected⟩

end Act

namespace RunStop

/-- A machine stopped at a breakpoint of thread 1 with no sink, continued: the promise is
rejected, and the rejection is of the second kind. -/
theorem resume_rejected_without_sink :
    ∃ p w' f, (Act.execContinue 0 (some (.ofNat 1))).run
        (run 0 (bench ⟨0, fun _ => "", Path.hostTree, Validator.standard⟩ .plain .null) [.start, .stopped (some (.string "breakpoint")) (some (.ofNat 1)) none]) =
          .ok p w' ∧ w'.loop.outcome? p = some (.error f) ∧
      Act.ResumeRejected (run 0 (bench ⟨0, fun _ => "", Path.hostTree, Validator.standard⟩ .plain .null)
        [.start, .stopped (some (.string "breakpoint")) (some (.ofNat 1)) none]) w' 0 "continue"
        (Act.execSend 0 "continue" (some (Json.objectOpt [("threadId", some (.ofNat 1))]))) f :=
  ⟨_, _, _, rfl, rfl, (Act.resume_rejected _ 0 (some (.ofNat 1)) "next" []).1 _ _ _ rfl rfl⟩

/-- The failed continue is not undone: before it the machine is stopped with thread 1 marked
stopped; after it the promise holds the transport error, the machine is running and thread 1 is
no longer marked stopped; a continue once a sink is attached answers that not all threads
continued. -/
theorem continue_without_sink_not_undone :
    let w := run 0 (bench ⟨0, fun _ => "", Path.hostTree, Validator.standard⟩ .plain .null) [.start, .stopped (some (.string "breakpoint")) (some (.ofNat 1)) none]
    let w' := step 0 w (.resume (some (.ofNat 1)))
    let w'' := run 0 w' [.attach none, .resume (some (.ofNat 1))]
    (w.execAt 0).current.isStopped = true ∧
      ((w.execAt 0).registry.thread? (some (.ofNat 1))).map (·.stopped) = some (some (.bool true)) ∧
      w'.loop.outcome? w.loop.cells.size = some (.error Act.noSinkFault) ∧
      (w'.execAt 0).current = .running ∧
      ((w'.execAt 0).registry.thread? (some (.ofNat 1))).map (·.stopped) = some (some (.bool false)) ∧
      w''.loop.outcome? w'.loop.cells.size = some (.ok (.json (Json.object [("allThreadsContinued", .bool false)]))) :=
  ⟨rfl, rfl, rfl, rfl, rfl, rfl⟩

end RunStop

end DapBridge
