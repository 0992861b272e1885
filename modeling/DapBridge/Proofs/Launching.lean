import DapBridge.Proofs.Inspection

/-!
# A start that fails

A launch claims the session, points the breakpoint book at the launch's directory, enables the
child watcher when subprocesses are asked for and marks the session started, all before the step
that can fail. When an in-process launch finds no way to make a probe, `abandonStart` undoes the
start: the channel, listener and probe are let go of, a held `configurationDone` is dropped and,
while the machine has not started, the mode is cleared. The directory, the watcher and the
started mark stay.

`refused_launch_leaves_directory_and_watcher` says what such a launch leaves: its promise is
rejected with the refusal, every machine and every other engine are as they were, and the engine
differs from the one before only in its breakpoint directory, its watcher and its started mark.
`refused_launch_moves_breakpoint_paths` shows it on a front end that cannot make probes: after a
refused launch from `/w/sub`, a breakpoint in `a.py` is kept under `/w/sub/a.py`, where before it
was kept under `/a.py`.

The steps are followed with total-correctness triples over the world (`Act.Triple`, and
`Act.FailsWith` for a step that fails). What each step does to the engines and machines is said
once, with `Act.KeepsSessions` for the steps that leave them alone, and a run of steps is put
together with `Triple.bind` along the code.
-/

namespace DapBridge

theorem Array.modify_modify {α : Type} (xs : Array α) (i : Nat) (f g : α → α) :
    (xs.modify i f).modify i g = xs.modify i (g ∘ f) := by
  apply Array.ext
  · simp
  · intro j h₁ h₂
    simp only [Array.getElem_modify, Function.comp]
    split <;> simp_all

theorem Array.modify_congr {α : Type} [Inhabited α] {xs : Array α} {i : Nat} {f g : α → α}
    (h : f (xs.getD i default) = g (xs.getD i default)) : xs.modify i f = xs.modify i g := by
  apply Array.ext
  · simp
  · intro j h₁ h₂
    simp only [Array.getElem_modify]
    split
    · next hij =>
      subst hij
      simpa [Array.getD_eq_getD_getElem?, Array.getElem?_eq_getElem (by simpa using h₁)] using h
    · rfl

theorem Array.getD_modify_self {α : Type} [Inhabited α] {xs : Array α} {i : Nat} (f : α → α) (h : i < xs.size) :
    (xs.modify i f).getD i default = f (xs.getD i default) := by
  rw [World.getD_modify, if_pos ⟨rfl, h⟩]

namespace World

variable (w : World)

@[simp] theorem withEngine_engines (i : Nat) (f : Engine → Engine) :
    (w.withEngine i f).engines = w.engines.modify i f := rfl

@[simp] theorem withEngine_execs (i : Nat) (f : Engine → Engine) : (w.withEngine i f).execs = w.execs := rfl

@[simp] theorem setLoop_engines (l : Loop Outcome Cont Turn) : (w.setLoop l).engines = w.engines := rfl

@[simp] theorem log_engines (d : Diagnostic) : (w.log d).engines = w.engines := by unfold log; split <;> rfl

end World

/-- The directory a launch runs in: its `cwd` read against the root, or the root. -/
def LaunchConfig.directory (config : LaunchConfig) : String :=
  match config.cwd with
  | some d => Path.resolve "/" d
  | none => "/"

/-- The engine an in-process launch leaves when no probe can be made: its breakpoints read
relative paths against the launch's directory, its child watcher is enabled when subprocesses
were asked for, it counts as started, and nothing else of the start is left. -/
def Engine.afterRefusedLaunch (config : LaunchConfig) (g : Engine) : Engine :=
  { g with book := { g.book with cwd := some (.string config.directory) },
           watcher := if config.subProcess then g.watcher.enable.1 else g.watcher, started := true,
           channel := none, listener := none, probe := false, configurationDonePending := false }

/-- The engine an undone start leaves: no channel, listener or probe, no held
`configurationDone`, and no mode while its machine has not started. -/
def Engine.abandoned (X : Array Execution) (g : Engine) : Engine :=
  { g with channel := none, listener := none, probe := false, configurationDonePending := false,
           mode := if (X.getD g.exec default).current.isNotStarted then none else g.mode }

namespace Act

/-! ## Steps between worlds -/

/-- From every world where `P` holds, `a` goes through, to a world where `Q` holds of what it
returned. -/
def Triple {α : Type} (P : World → Prop) (a : Act α) (Q : α → World → Prop) : Prop :=
  ∀ w, P w → ∃ v w', a.run w = .ok v w' ∧ Q v w'

/-- From every world where `P` holds, `a` fails with `f`, leaving a world where `Q` holds. -/
def FailsWith {α : Type} (P : World → Prop) (a : Act α) (f : Fault) (Q : World → Prop) : Prop :=
  ∀ w, P w → ∃ w', a.run w = .error f w' ∧ Q w'

/-- The worlds whose engines are `E` and whose run/stop machines are `X`. -/
def Sessions (E : Array Engine) (X : Array Execution) (w : World) : Prop := w.engines = E ∧ w.execs = X

/-- An action that goes through from every world and leaves every engine and every machine as it
found them. -/
def KeepsSessions {α : Type} (a : Act α) : Prop := ∀ E X, Triple (Sessions E X) a fun _ => Sessions E X

variable {α β : Type} {P : World → Prop} {Q : α → World → Prop} {R : β → World → Prop}

namespace Triple

theorem pure {v : α} (h : ∀ w, P w → Q v w) : Triple P (Pure.pure v) Q := fun w hw => ⟨v, w, rfl, h w hw⟩

theorem bind {a : Act α} {k : α → Act β} (ha : Triple P a Q) (hk : ∀ v, Triple (Q v) (k v) R) :
    Triple P (a >>= k) R := by
  intro w hw
  obtain ⟨v, w₁, h₁, hq⟩ := ha w hw
  obtain ⟨u, w₂, h₂, hr⟩ := hk v w₁ hq
  exact ⟨u, w₂, by rw [EStateM.run_bind, h₁]; exact h₂, hr⟩

theorem change {f : World → World} {Q : Unit → World → Prop} (h : ∀ w, P w → Q () (f w)) :
    Triple P (Act.change f) Q := fun w hw => ⟨(), f w, rfl, h w hw⟩

theorem mono {a : Act α} {Q' : α → World → Prop} (ha : Triple P a Q) (h : ∀ v w, Q v w → Q' v w) :
    Triple P a Q' := by
  intro w hw
  obtain ⟨v, w', hr, hq⟩ := ha w hw
  exact ⟨v, w', hr, h v w' hq⟩

/-- What follows a read starts from the world read. -/
theorem read_bind {k : World → Act β} (hk : ∀ w, P w → Triple (· = w) (k w) R) : Triple P (get >>= k) R := by
  intro w hw
  obtain ⟨u, w', h, hr⟩ := hk w hw w rfl
  exact ⟨u, w', by rw [EStateM.run_bind]; exact h, hr⟩

theorem set {w₀ : World} {Q : PUnit → World → Prop} (h : ∀ w, P w → Q () w₀) : Triple P (MonadStateOf.set w₀ : Act PUnit) Q :=
  fun w hw => ⟨(), w₀, rfl, h w hw⟩

/-- A fact known of the start can be taken out of the precondition. -/
theorem of_fact {a : Act α} {c : Prop} (h : c → Triple P a Q) : Triple (fun w => P w ∧ c) a Q :=
  fun w hw => h hw.2 w hw.1

/-- A step that fails with `f` is caught by `attempt`, which returns the fault. -/
theorem attempt {a : Act α} {f : Fault} {Q : World → Prop} (ha : FailsWith P a f Q) :
    Triple P (Act.attempt a) (fun r w => Q w ∧ r = .error f) := by
  intro w hw
  obtain ⟨w', hr, hq⟩ := ha w hw
  exact ⟨.error f, w', by rw [run_attempt, hr], hq, rfl⟩

end Triple

namespace FailsWith

variable {f : Fault} {S : World → Prop}

theorem fail : FailsWith P (throw f : Act α) f P := fun w hw => ⟨w, rfl, hw⟩

theorem bind {a : Act α} {k : α → Act β} (ha : Triple P a Q) (hk : ∀ v, FailsWith (Q v) (k v) f S) :
    FailsWith P (a >>= k) f S := by
  intro w hw
  obtain ⟨v, w₁, h₁, hq⟩ := ha w hw
  obtain ⟨w₂, h₂, hs⟩ := hk v w₁ hq
  exact ⟨w₂, by rw [EStateM.run_bind, h₁]; exact h₂, hs⟩

theorem bind_fail {a : Act α} {k : α → Act β} {Q : World → Prop} (ha : FailsWith P a f Q) :
    FailsWith P (a >>= k) f Q := by
  intro w hw
  obtain ⟨w', h, hq⟩ := ha w hw
  exact ⟨w', by rw [EStateM.run_bind, h], hq⟩

theorem of_fact {a : Act α} {c : Prop} (h : c → FailsWith P a f S) : FailsWith (fun w => P w ∧ c) a f S :=
  fun w hw => h hw.2 w hw.1

/-- What follows a read starts from the world read. -/
theorem read_bind {k : World → Act β} (hk : ∀ w, P w → FailsWith (· = w) (k w) f S) : FailsWith P (get >>= k) f S := by
  intro w hw
  obtain ⟨w', h, hs⟩ := hk w hw w rfl
  exact ⟨w', by rw [EStateM.run_bind]; exact h, hs⟩

theorem strengthen {a : Act α} {P' : World → Prop} (ha : FailsWith P a f S) (h : ∀ w, P' w → P w) :
    FailsWith P' a f S := fun w hw => ha w (h w hw)

theorem mono {a : Act α} {Q : World → Prop} (ha : FailsWith P a f Q) (h : ∀ w, Q w → S w) : FailsWith P a f S := by
  intro w hw
  obtain ⟨w', hr, hq⟩ := ha w hw
  exact ⟨w', hr, h w' hq⟩

end FailsWith

namespace KeepsSessions

theorem pure (v : α) : KeepsSessions (Pure.pure v : Act α) := fun _ _ => Triple.pure fun _ h => h

theorem read : KeepsSessions (get : Act World) := fun _ _ w hw => ⟨w, w, rfl, hw⟩

theorem change {f : World → World} (hf : ∀ w, (f w).engines = w.engines ∧ (f w).execs = w.execs) :
    KeepsSessions (Act.change f) :=
  fun _ _ => Triple.change fun w hw => ⟨(hf w).1.trans hw.1, (hf w).2.trans hw.2⟩

theorem bind {a : Act α} {k : α → Act β} (ha : KeepsSessions a) (hk : ∀ v, KeepsSessions (k v)) :
    KeepsSessions (a >>= k) := fun E X => Triple.bind (ha E X) fun v => hk v E X

theorem forM {xs : List α} {g : α → Act Unit} (hg : ∀ x, KeepsSessions (g x)) : KeepsSessions (xs.forM g) := by
  induction xs with
  | nil => exact pure ()
  | cons x xs ih => exact bind (hg x) fun _ => ih

end KeepsSessions

/-! ## Steps that leave every session alone -/

theorem log_keeps (d : Diagnostic) : KeepsSessions (log d) := KeepsSessions.change fun _ => ⟨by simp, by simp⟩

theorem note_keeps (n : Note) : KeepsSessions (note n) := KeepsSessions.change fun _ => ⟨rfl, rfl⟩

theorem toClient_keeps (m : Json) : KeepsSessions (toClient m) := by
  refine KeepsSessions.bind KeepsSessions.read fun w => ?_
  split
  · exact note_keeps _
  · exact KeepsSessions.pure _

/-- Numbering a message changes only the codec. -/
theorem sendEvent_keeps (event : String) (body : Option Json) : KeepsSessions (sendEvent event body) := by
  intro E X
  refine Triple.read_bind fun w hw => ?_
  refine Triple.bind (Triple.set fun _ h => ?_) fun _ => toClient_keeps _ E X
  subst h
  exact hw

theorem soon_keeps (t : Turn) : KeepsSessions (soon t) := KeepsSessions.change fun _ => ⟨rfl, rfl⟩

theorem defer_keeps (t : Turn) : KeepsSessions (defer t) := KeepsSessions.change fun _ => ⟨rfl, rfl⟩

theorem settle_keeps (p : Nat) (o : Outcome) : KeepsSessions (settle p o) := KeepsSessions.change fun _ => ⟨rfl, rfl⟩

theorem closeListener_keeps (l : Nat) : KeepsSessions (closeListener l) := KeepsSessions.change fun _ => ⟨rfl, rfl⟩

theorem destroyPipe_keeps (s : Nat) (error : Option String) : KeepsSessions (destroyPipe s error) := by
  refine KeepsSessions.bind KeepsSessions.read fun w => ?_
  dsimp only
  split
  · exact KeepsSessions.pure _
  · refine KeepsSessions.bind (KeepsSessions.change fun _ => ⟨rfl, rfl⟩) fun _ => ?_
    -- the closing turn is queued on both paths, after the error's when there is one
    split <;> refine KeepsSessions.bind (soon_keeps _) fun _ => ?_
    · refine KeepsSessions.bind (soon_keeps _) fun _ => ?_
      split
      · exact defer_keeps _
      · exact KeepsSessions.pure _
    · split
      · exact defer_keeps _
      · exact KeepsSessions.pure _

/-- Work for a session is queued on its context, or dropped with a note when the context has
closed: either way it goes through. -/
theorem postForSession_keeps (e : Nat) (x : Errand) : KeepsSessions (postForSession e x) := by
  intro E X w ⟨hE, hX⟩
  by_cases hc : (w.inboxAt (w.engineAt e).inbox).closed
  · simp [postForSession, post, hc, run_attempt, Act.fail, closedContext, isClosedContext, Sessions, hE, hX]
  · by_cases hs : (w.inboxAt (w.engineAt e).inbox).scheduled <;>
      simp [postForSession, post, hc, hs, run_attempt, Sessions, World.withInbox, hE, hX]

theorem finishChannel_keeps (c : Nat) (reason : Option AdapterError) : KeepsSessions (finishChannel c reason) := by
  refine KeepsSessions.bind KeepsSessions.read fun w => ?_
  dsimp only
  split
  · exact KeepsSessions.pure _
  refine KeepsSessions.bind (KeepsSessions.change fun _ => ⟨rfl, rfl⟩) fun _ => ?_
  -- the listener is closed and the stream destroyed, when there are some
  split <;> try refine KeepsSessions.bind (closeListener_keeps _) fun _ => ?_
  all_goals split <;> try refine KeepsSessions.bind (destroyPipe_keeps _ _) fun _ => ?_
  -- the hooks hear of an end that was not asked for
  all_goals split <;> try refine KeepsSessions.bind (log_keeps _) fun _ => ?_
  all_goals try refine KeepsSessions.bind (KeepsSessions.change fun _ => ⟨rfl, rfl⟩) fun _ => ?_
  -- each hook is told through its session's context, or by a note for the observer
  all_goals try refine KeepsSessions.bind (KeepsSessions.forM fun h => by
    cases h with
    | engine e => exact postForSession_keeps _ _
    | observer => exact note_keeps _) fun _ => ?_
  -- last, the read loop's promise is settled, when there is one
  all_goals
    split
    · exact settle_keeps _ _
    · exact KeepsSessions.pure _

theorem disableChannel_keeps (c : Nat) : KeepsSessions (disableChannel c) := by
  refine KeepsSessions.bind KeepsSessions.read fun w => ?_
  split
  · exact KeepsSessions.pure _
  · exact KeepsSessions.bind (KeepsSessions.change fun _ => ⟨rfl, rfl⟩) fun _ => finishChannel_keeps c none

end Act

namespace Session

open Act

theorem stopProbe_keeps (e : Nat) : KeepsSessions (stopProbe e) := by
  refine KeepsSessions.bind (KeepsSessions.bind KeepsSessions.read fun _ => KeepsSessions.pure _) fun g => ?_
  split
  · exact note_keeps _
  · exact KeepsSessions.pure _

theorem killChild_keeps (e : Nat) : KeepsSessions (killChild e) := by
  refine KeepsSessions.bind (KeepsSessions.bind KeepsSessions.read fun _ => KeepsSessions.pure _) fun g => ?_
  split
  · exact KeepsSessions.change fun _ => ⟨rfl, rfl⟩
  · exact KeepsSessions.pure _

variable {E : Array Engine} {X : Array Execution} (e : Nat)

/-- Reading an engine keeps whatever held of the world. -/
theorem engineOf_reads {S : World → Prop} (hS : ∀ w, S w → Sessions E X w) :
    Triple S (engineOf e) (fun g w => S w ∧ g = E.getD e default) :=
  fun w hw => ⟨_, w, rfl, hw, by rw [← (hS w hw).1]; rfl⟩

theorem engineOf_triple : Triple (Sessions E X) (engineOf e) (fun g w => Sessions E X w ∧ g = E.getD e default) :=
  engineOf_reads e fun _ h => h

theorem execStateOf_triple :
    Triple (Sessions E X) (execStateOf e) (fun s w => Sessions E X w ∧ s = (X.getD (E.getD e default).exec default).current) :=
  fun w hw => ⟨_, w, rfl, hw, by rw [← hw.1, ← hw.2]; rfl⟩

theorem withEngine_triple (f : Engine → Engine) :
    Triple (Sessions E X) (withEngine e f) (fun _ => Sessions (E.modify e f) X) :=
  Triple.change fun w hw => ⟨by rw [World.withEngine_engines, hw.1], hw.2⟩

theorem exec_modify_getD {f : Engine → Engine} (hf : ∀ g, (f g).exec = g.exec) :
    ((E.modify e f).getD e default).exec = (E.getD e default).exec := by
  rw [World.getD_modify]
  split
  · exact hf _
  · rfl

theorem abandonStart_triple :
    Triple (Sessions E X) (abandonStart e) (fun _ => Sessions (E.modify e (Engine.abandoned X)) X) := by
  refine Triple.bind (engineOf_triple e) fun g => Triple.of_fact fun _ => ?_
  dsimp only
  -- letting go of the channel and the listener touches no engine and no machine
  split <;> try refine Triple.bind (disableChannel_keeps _ E X) fun _ => ?_
  all_goals split <;> try refine Triple.bind (closeListener_keeps _ E X) fun _ => ?_
  all_goals
    refine Triple.bind (stopProbe_keeps e E X) fun _ => ?_
    refine Triple.bind (killChild_keeps e E X) fun _ => ?_
    refine Triple.bind (withEngine_triple e _) fun _ => ?_
    refine Triple.bind (execStateOf_triple e) fun s => Triple.of_fact fun hs => ?_
    -- the machine the engine runs is the one it ran before
    simp (disch := exact fun _ => rfl) only [exec_modify_getD] at hs
    subst hs
    split
    · next hn =>
      refine Triple.mono (withEngine_triple e _) fun _ w hw => ⟨?_, hw.2⟩
      rw [hw.1, Array.modify_modify]
      exact Array.modify_congr (by simp only [Function.comp, Engine.abandoned, hn, if_true])
    · next hn =>
      refine Triple.pure fun w hw => ⟨?_, hw.2⟩
      rw [hw.1]
      exact Array.modify_congr (by simp only [Engine.abandoned, hn, Bool.false_eq_true, if_false])

theorem claim_triple {m : Mode} (ht : (X.getD (E.getD e default).exec default).current.isTerminated = false)
    (hm : (E.getD e default).mode = none) :
    Triple (Sessions E X) (claim e m) (fun _ => Sessions (E.modify e fun g => { g with mode := some m }) X) := by
  refine Triple.bind (execStateOf_triple e) fun s => Triple.of_fact fun hs => ?_
  subst hs
  dsimp only
  rw [if_neg (by rw [ht]; exact Bool.false_ne_true)]
  refine Triple.bind (engineOf_triple e) fun g => Triple.of_fact fun hg => ?_
  subst hg
  rw [if_neg (by rw [hm]; exact Bool.false_ne_true)]
  exact withEngine_triple e _

/-- Without a way to make probes, an in-process start is refused before anything changes. -/
theorem launchInProcess_refused {config : LaunchConfig} (hp : (E.getD e default).canProbe = false) :
    FailsWith (Sessions E X) (launchInProcess e config) (.adapter (.operation "In-process mode is not available"))
      (Sessions E X) := by
  refine FailsWith.bind (engineOf_triple e) fun g => FailsWith.of_fact fun hg => ?_
  subst hg
  rw [if_pos (by rw [hp]; rfl)]
  exact FailsWith.bind_fail FailsWith.fail

theorem fresh_triple {V : Validator} {n : Nat} :
    Triple (fun w => (Sessions E X w ∧ w.host.validator = V) ∧ w.loop.cells.size = n) fresh
      (fun p w => (Sessions E X w ∧ w.host.validator = V) ∧ p = n) :=
  fun _ hw => ⟨_, _, rfl, hw.1, hw.2⟩

theorem launch_refused_triple {V : Validator} {raw : Option Json} {config : LaunchConfig} {n : Nat}
    (hread : LaunchConfig.read V raw (E.getD e default).defaults .posix = .ok config) (hin : config.inProcess = true)
    (hp : (E.getD e default).canProbe = false) (hm : (E.getD e default).mode = none)
    (hs : (X.getD (E.getD e default).exec default).current = .notStarted) (he : e < E.size) :
    Triple (fun w => (Sessions E X w ∧ w.host.validator = V) ∧ w.loop.cells.size = n) (launch e raw) (fun p w'' => p = n ∧
      ∃ w', w'' = w'.setLoop (w'.loop.settle p (.error (.adapter (.operation "In-process mode is not available")))) ∧
        Sessions (E.modify e (Engine.afterRefusedLaunch config)) X w') := by
  refine Triple.bind fresh_triple fun p => Triple.of_fact fun hpn => ?_
  subst hpn
  refine Triple.bind (Triple.attempt (Q := Sessions (E.modify e (Engine.afterRefusedLaunch config)) X)
    (f := .adapter (.operation "In-process mode is not available")) ?block) fun r => Triple.of_fact fun hr => ?rest
  case block =>
    refine FailsWith.bind (engineOf_reads e fun _ h => h.1) fun g => FailsWith.of_fact fun hg => ?_
    subst hg
    -- the configuration is read with the host's validator
    refine FailsWith.read_bind fun w hw => ?_
    rw [hw.2, hread]
    dsimp only
    simp only [pure_bind, hin, if_true]
    refine FailsWith.strengthen ?_ fun w' hw' => hw' ▸ hw.1
    refine FailsWith.bind (claim_triple e (by rw [hs]; rfl) hm) fun _ => ?_
    refine FailsWith.bind (withEngine_triple e _) fun _ => ?_
    by_cases hsub : config.subProcess = true
    on_goal 1 =>
      -- the child watcher is enabled, and what it has to say is said
      rw [if_pos hsub]
      refine FailsWith.bind (engineOf_triple e) fun g => FailsWith.of_fact fun hg => ?_
      subst hg
      refine FailsWith.bind (withEngine_triple e _) fun _ => ?_
      refine FailsWith.bind (KeepsSessions.forM (fun x => ?_) _ _) fun _ => ?_
      · split
        · exact sendEvent_keeps _ _
        · exact log_keeps _
    on_goal 2 => rw [if_neg hsub]
    -- started, then refused, then undone
    all_goals
      refine FailsWith.bind (withEngine_triple e _) fun _ => ?_
      refine FailsWith.bind (log_keeps _ _ _) fun _ => ?_
      refine FailsWith.bind (Triple.attempt (launchInProcess_refused e (by simp only [Array.getD_modify_self, Array.size_modify, he, hp])))
        fun r => FailsWith.of_fact fun hr => ?_
      subst hr
      refine FailsWith.mono (FailsWith.bind (abandonStart_triple e) fun _ => FailsWith.fail) fun w hw => ⟨?_, hw.2⟩
      rw [hw.1]
      simp only [Array.modify_modify]
      refine Array.modify_congr ?_
      -- the directory is worked out by a match on the launch's cwd in both places
      cases hc : config.cwd <;>
        simp only [Function.comp, Array.getD_modify_self, he, Engine.abandoned, Engine.afterRefusedLaunch,
          LaunchConfig.directory, hc, hsub, hm, hs, ExecState.isNotStarted, Bool.false_eq_true, ↓reduceIte]
  case rest =>
    -- the launch's promise is rejected with the refusal
    subst hr
    intro w hw
    exact ⟨_, _, rfl, rfl, w, rfl, hw⟩

/-! ## A launch refused for want of a probe -/

/-- A refused in-process launch rejects its promise, leaves every machine and every other engine
as they were, and leaves its engine with no mode, channel, listener or probe; but its breakpoints
now read relative paths against the launch's directory, its child watcher is enabled when the
launch asked for subprocesses, and it counts as started. -/
theorem refused_launch_leaves_directory_and_watcher {w : World} {raw : Option Json} {config : LaunchConfig}
    (he : e < w.engines.size) (hread : LaunchConfig.read w.host.validator raw (w.engineAt e).defaults .posix = .ok config)
    (hin : config.inProcess = true) (hp : (w.engineAt e).canProbe = false) (hm : (w.engineAt e).mode = none)
    (hs : (w.execAt (w.engineAt e).exec).current = .notStarted) :
    ∃ w' : World, (launch e raw).run w = .ok w.loop.cells.size (w'.setLoop
          (w'.loop.settle w.loop.cells.size (.error (.adapter (.operation "In-process mode is not available"))))) ∧
      w'.execs = w.execs ∧ (∀ j ≠ e, w'.engineAt j = w.engineAt j) ∧
      w'.engineAt e =
        { w.engineAt e with book := { (w.engineAt e).book with cwd := some (.string config.directory) },
                            watcher := if config.subProcess then (w.engineAt e).watcher.enable.1 else (w.engineAt e).watcher,
                            started := true, channel := none, listener := none, probe := false,
                            configurationDonePending := false } := by
  obtain ⟨p, w'', hrun, rfl, w', rfl, hE, hX⟩ := launch_refused_triple e hread hin hp hm hs he w ⟨⟨⟨rfl, rfl⟩, rfl⟩, rfl⟩
  refine ⟨w', hrun, hX, fun j hj => ?_, ?_⟩
  · simp only [World.engineAt, hE, World.getD_modify]
    exact if_neg fun h => hj h.1.symm
  · simp only [World.engineAt, hE, Array.getD_modify_self _ he]
    rfl

end Session

/-- The front end with its first engine, number `0`, from plain settings, where no in-process
probe can be made. -/
def World.noProbe : World :=
  World.create ⟨⟨default, .num 10000, WatchConfig.standard, false⟩, 4000, [], [], [], ⟨0, fun _ => "", Path.hostTree, Validator.standard⟩, default, false⟩

/-- An in-process launch of `/w/app.py` from `/w/sub`. -/
def subLaunch : Json := .obj [("inProcess", .bool true), ("program", .string "/w/app.py"), ("cwd", .string "/w/sub")]

/-- What that launch asks for, with the settings it leaves out. -/
def subConfig : LaunchConfig :=
  ⟨some "/w/app.py", [], some "/w/sub", none, false, false, true, false, Json.strings defaultLauncher,
    ⟨.string (Transport.default .posix).name, .string defaultIpcHost, 0, none, none, .bool true⟩⟩

theorem subLaunch_read : LaunchConfig.read World.noProbe.host.validator (some subLaunch) (World.noProbe.engineAt 0).defaults .posix = .ok subConfig := by
  have hl : (Text.ofString "/w/app.py").length = 9 := by decide +kernel
  have hd : (World.noProbe.engineAt 0).defaults = default := rfl
  rw [hd]
  have hv : World.noProbe.host.validator = .standard := rfl
  rw [hv]
  simp [LaunchConfig.read, checkArguments, Validator.read, Validator.standard, launchSchema, Schema.check, Schema.checkFields,
    Schema.checkItems, subLaunch, Json.Fields.get?, Json.string, portSchema, transportSchema, Transport.all,
    Transport.name, hl]
  rfl

namespace Session

/-- The launch of `/w/app.py` from `/w/sub` in process, on a front end that cannot make probes. -/
theorem refused_launch_leaves_directory_and_watcher_from_sub :
    0 < World.noProbe.engines.size ∧
      LaunchConfig.read World.noProbe.host.validator (some subLaunch) (World.noProbe.engineAt 0).defaults .posix =
        .ok subConfig ∧
      subConfig.inProcess = true ∧ (World.noProbe.engineAt 0).canProbe = false ∧
      (World.noProbe.engineAt 0).mode = none ∧
      (World.noProbe.execAt (World.noProbe.engineAt 0).exec).current = .notStarted ∧
      ∃ w' : World, (launch 0 (some subLaunch)).run World.noProbe = .ok World.noProbe.loop.cells.size (w'.setLoop
            (w'.loop.settle World.noProbe.loop.cells.size
              (.error (.adapter (.operation "In-process mode is not available"))))) ∧
        w'.execs = World.noProbe.execs ∧ (∀ j ≠ 0, w'.engineAt j = World.noProbe.engineAt j) ∧
        w'.engineAt 0 =
          { World.noProbe.engineAt 0 with
              book := { (World.noProbe.engineAt 0).book with cwd := some (.string subConfig.directory) },
              watcher := if subConfig.subProcess then (World.noProbe.engineAt 0).watcher.enable.1
                else (World.noProbe.engineAt 0).watcher,
              started := true, channel := none, listener := none, probe := false,
              configurationDonePending := false } :=
  ⟨by decide, subLaunch_read, rfl, rfl, rfl, rfl,
    refused_launch_leaves_directory_and_watcher 0 (by decide) subLaunch_read rfl rfl rfl rfl⟩

/-- Before an in-process launch from `/w/sub` that no probe can serve, a breakpoint in `a.py` is
kept under `/a.py`; after the refused launch, under `/w/sub/a.py`. -/
theorem refused_launch_moves_breakpoint_paths :
    (World.noProbe.engineAt 0).book.resolvePath (some (.string "a.py")) = .ok "/a.py" ∧
      ((World.noProbe.exec (discard (launch 0 (some subLaunch)))).engineAt 0).book.resolvePath
        (some (.string "a.py")) = .ok "/w/sub/a.py" := by
  obtain ⟨p, w'', hrun, rfl, w', rfl, hE, -⟩ :=
    launch_refused_triple 0 subLaunch_read rfl rfl rfl rfl (by decide) World.noProbe ⟨⟨⟨rfl, rfl⟩, rfl⟩, rfl⟩
  have hafter : (World.noProbe.exec (discard (launch 0 (some subLaunch)))).engineAt 0 =
      Engine.afterRefusedLaunch subConfig (World.noProbe.engineAt 0) := by
    rw [World.exec_discard_of_run _ hrun]
    simp only [World.engineAt, World.setLoop_engines, hE]
    exact Array.getD_modify_self _ (by decide)
  have hname : (Text.ofString "a.py").toString = "a.py" := by decide +kernel
  have hrel : Path.isAbsolute "a.py" = false := by decide +kernel
  have hnone : (World.noProbe.engineAt 0).book.cwd = none := rfl
  have hfiles : (World.noProbe.engineAt 0).book.files = Path.hostTree := rfl
  have hroot : Path.real Path.hostTree (Path.resolve "/" "a.py") = "/a.py" := by decide +kernel
  have hdir : (Text.ofString subConfig.directory).toString = "/w/sub" := by decide +kernel
  have hsub : Path.real Path.hostTree (Path.resolve "/w/sub" "a.py") = "/w/sub/a.py" := by decide +kernel
  constructor
  · simp only [BreakpointBook.resolvePath, breakpointPath, Json.string, pathText, hname, hrel, hnone, hfiles, hroot,
      bind, Except.bind, pure, Except.pure, Bool.false_eq_true, if_false]
  · rw [hafter]
    simp only [BreakpointBook.resolvePath, breakpointPath, Engine.afterRefusedLaunch, Json.string, pathText, hname,
      hrel, hdir, hfiles, hsub, bind, Except.bind, pure, Except.pure, Bool.false_eq_true, if_false]

end Session

end DapBridge
