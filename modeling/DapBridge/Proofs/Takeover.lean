import DapBridge.Child.Launcher

/-!
# Taking an interpreter command line over

While enabled, the child watcher looks at every command line the session starts. An interpreter
run is started through the probe launcher instead: the interpreter, `-m` and the launcher module,
the launcher's connection options, the entry as `--program`, `--module` or `--code` with its
value, the session ids, and each argument that followed the entry after an `--arg` of its own.
Any other command line reaches the launcher as it was given.

The arguments after the interpreter run an entry exactly when they are options the interpreter
takes before its entry (`Invocation.Skipped`), then the words of the entry
(`Invocation.EntryWords`: a program alone or after `--`, a module after `-m`, code after `-c`),
then the entry's own arguments (`Invocation.ofArgs?_eq_some_iff`). So the launcher's command line
keeps the interpreter, the entry and every argument after it, in order, and drops only the
skipped options.

* `ChildWatcher.launcherArgs_of_run`, `ChildWatcher.launcherArgs_of_not_run`: the launcher's
  command line of an interpreter run, and the command line itself otherwise;
* `ChildWatcher.candidate?_of_subprocess`: a command line that carries `--subprocess`, as every
  launcher command line does, is taken over by no watcher;
* `ProcessTable.spawnWatched_untouched`: while the watcher is disabled, under a shell, or for a
  command line it does not take over, the launcher is given the command and its arguments
  unchanged;
* `ProcessTable.spawnWatched_started`: what the launcher is given is the command line asked for,
  or one no watcher takes over, so nothing is taken over twice;
* `command_rewrite_faithful`: the four together.
-/

namespace DapBridge

namespace Invocation

/-- An option the interpreter takes before its entry, which the search for the entry passes
over: it starts with `-` and is none of `-`, `--`, `-m`, `-c`. -/
def Skipped (f : String) : Prop := f.startsWith "-" = true ∧ f ∉ ["-", "--", "-m", "-c"]

/-- The words that give a run its entry: a program alone (a word that is no option) or after
`--`, a module after `-m`, code after `-c`. -/
inductive EntryWords : Invocation → List String → Prop
  | program {v : String} {t : List String} : v.startsWith "-" = false → EntryWords ⟨.program, v, t⟩ [v]
  | afterDashes {v : String} {t : List String} : EntryWords ⟨.program, v, t⟩ ["--", v]
  | module {v : String} {t : List String} : EntryWords ⟨.module, v, t⟩ ["-m", v]
  | code {v : String} {t : List String} : EntryWords ⟨.code, v, t⟩ ["-c", v]

theorem modeOfOption?_eq_none_iff {f : String} : modeOfOption? f = none ↔ f ∉ ["--", "-m", "-c"] := by
  unfold modeOfOption?
  split <;> simp_all

theorem entryWords_of_mode {cur v : String} {mode : RunMode} {t : List String}
    (h : modeOfOption? cur = some mode) : EntryWords ⟨mode, v, t⟩ [cur, v] := by
  unfold modeOfOption? at h
  split at h <;> cases h <;> constructor

theorem ofArgs?_skip {f : String} (h : Skipped f) (rest : List String) : ofArgs? (f :: rest) = ofArgs? rest := by
  obtain ⟨hs, hn⟩ := h
  have hm : modeOfOption? f = none := modeOfOption?_eq_none_iff.2 fun hf => hn (List.mem_cons_of_mem _ hf)
  have hd : f ≠ "-" := fun hf => hn (hf ▸ List.mem_cons_self)
  rw [ofArgs?, hm]
  simp [hd, hs]

theorem ofArgs?_entry {inv : Invocation} {E : List String} (h : EntryWords inv E) :
    ofArgs? (E ++ inv.trailing) = some inv := by
  cases h with
  | program hs =>
    rename_i v t
    -- a word that is no option is none of the options that take a value, nor `-`
    have hm : modeOfOption? v = none := modeOfOption?_eq_none_iff.2 (by
      intro hv
      simp only [List.mem_cons, List.not_mem_nil, or_false] at hv
      rcases hv with rfl | rfl | rfl <;> simp at hs)
    have hd : v ≠ "-" := by rintro rfl; simp at hs
    simp [ofArgs?, hm, hd, hs]
  | afterDashes => simp [ofArgs?, modeOfOption?]
  | module => simp [ofArgs?, modeOfOption?]
  | code => simp [ofArgs?, modeOfOption?]

/-- The arguments after the interpreter run `inv` exactly when they are skipped options, the
words of its entry and its trailing arguments, in this order. -/
theorem ofArgs?_eq_some_iff {args : List String} {inv : Invocation} :
    ofArgs? args = some inv ↔
      ∃ F E, args = F ++ E ++ inv.trailing ∧ (∀ f ∈ F, Skipped f) ∧ EntryWords inv E := by
  constructor
  · intro h
    induction args with
    | nil => simp [ofArgs?] at h
    | cons cur rest ih =>
      rw [ofArgs?] at h
      cases hm : modeOfOption? cur with
      | some mode =>
        rw [hm] at h
        cases rest with
        | nil => cases h
        | cons value trailing =>
          cases h
          exact ⟨[], [cur, value], rfl, by simp, entryWords_of_mode hm⟩
      | none =>
        rw [hm] at h
        simp only at h
        split at h
        · cases h
        · split at h
          · next hs =>
            -- an option passed over: the rest runs the entry
            obtain ⟨F, E, rfl, hF, hE⟩ := ih h
            refine ⟨cur :: F, E, rfl, List.forall_mem_cons.2 ⟨⟨hs, ?_⟩, hF⟩, hE⟩
            have := modeOfOption?_eq_none_iff.1 hm
            simp_all
          · next hs =>
            cases h
            exact ⟨[], [cur], rfl, by simp, .program (by simpa using hs)⟩
  · rintro ⟨F, E, rfl, hF, hE⟩
    induction F with
    | nil => exact ofArgs?_entry hE
    | cons f F ih =>
      rw [List.cons_append, List.cons_append, ofArgs?_skip (hF f List.mem_cons_self)]
      exact ih (fun g hg => hF g (List.mem_cons_of_mem _ hg))

end Invocation

namespace ChildWatcher

/-- A flag followed by its value, when the value is given and counts as true. -/
def flagged (flag : String) (v : Option Json) : List Json :=
  match v with
  | some s => if s.truthy then [.string flag, s] else []
  | none => []

/-- The launcher's command line for an interpreter run. -/
theorem launcherArgs_of_run {w : ChildWatcher} {argv : List String} {inv : Invocation}
    (hi : isInterpreter argv = true) (hr : Invocation.ofArgv? argv = some inv) (port childId : Option Json) :
    w.launcherArgs argv port childId =
      [.string (argv.headD ""), .string "-m", w.config.launcherModule, .string "--ipc", .string "tcp",
        .string "--ipc-host", w.config.ipcHost, .string "--ipc-port", .string (Json.textOf port),
        .string "--ipc-binary", .string "--subprocess", .string ("--" ++ inv.mode.name), .string inv.value] ++
      flagged "--session-id" childId ++ flagged "--parent-session-id" w.config.sessionId ++
      inv.trailing.flatMap fun a => [.string "--arg", .string a] := by
  simp only [launcherArgs, hi, hr, if_true]
  rfl

theorem launcherArgs_of_not_run {w : ChildWatcher} {argv : List String}
    (h : isInterpreter argv = false ∨ Invocation.ofArgv? argv = none) (port childId : Option Json) :
    w.launcherArgs argv port childId = argv.map Json.string := by
  rcases h with h | h <;> simp [launcherArgs, h]

/-- A command line that carries `--subprocess` is no candidate, whatever the watcher. -/
theorem candidate?_of_subprocess {argv : List Json} (h : Json.string "--subprocess" ∈ argv)
    (w : ChildWatcher) (opts : SpawnOptions) : w.candidate? argv opts = .ok none := by
  have hs : argv.any (Json.sameKey · (.string "--subprocess")) = true :=
    List.any_eq_true.2 ⟨_, h, by simp [Json.sameKey, Json.string]⟩
  unfold candidate?
  split
  · rfl
  · rw [if_pos (by simp [hs])]

theorem candidate?_shell {opts : SpawnOptions} (h : (opts.shell.map Json.truthy).getD false = true)
    (w : ChildWatcher) (argv : List Json) : w.candidate? argv opts = .ok none := by
  simp [candidate?, h]

/-- Reading the run off the items checks each item an option is looked for in; the run it finds
is the one the items' texts describe. -/
theorem runOf?_ok {xs : List Json} {r : Option Invocation} (h : runOf? xs = .ok r) :
    r = Invocation.ofArgs? (xs.map Json.displayText) := by
  induction xs with
  | nil => cases h; rfl
  | cons x rest ih =>
    cases x with
    | str t =>
      rw [runOf?] at h
      simp only [List.map_cons, Json.displayText, Invocation.ofArgs?]
      cases hm : Invocation.modeOfOption? t.toString with
      | some mode =>
        rw [hm] at h
        cases rest with
        | nil => cases h; rfl
        | cons value trailing => cases h; rfl
      | none =>
        rw [hm] at h
        simp only at h ⊢
        split at h
        · cases h; simp_all
        · split at h
          · simp_all
          · cases h; simp_all
    | _ => cases h

theorem isInterpreter_cons (cmd : String) (rest : List String) :
    isInterpreter (cmd :: rest) = isInterpreter [cmd] := rfl

theorem interpreterRun?_ok {argv : List Json} {inv : Invocation} (h : interpreterRun? argv = .ok (some inv)) :
    isInterpreter (argv.map Json.displayText) = true ∧
      Invocation.ofArgv? (argv.map Json.displayText) = some inv := by
  match argv, h with
  | .str cmd :: rest, h =>
    rw [interpreterRun?] at h
    split at h
    · next hi =>
      refine ⟨by rw [List.map_cons, isInterpreter_cons]; exact hi, ?_⟩
      rw [runOf?_ok h]
      rfl
    · cases h

theorem candidate?_ok {w : ChildWatcher} {argv : List Json} {opts : SpawnOptions} {inv : Invocation}
    (h : w.candidate? argv opts = .ok (some inv)) : interpreterRun? argv = .ok (some inv) := by
  unfold candidate? at h
  split at h
  · cases h
  · split at h
    · cases h
    · exact h

/-- Taking over leaves the watcher and says nothing, or takes a candidate over with the
launcher's command line of its items' texts. -/
theorem takeover?_eq {w : ChildWatcher} {argv : List Json} {opts : SpawnOptions} {childId : String}
    {r : Option Takeover × ChildWatcher × List WatchNote} (h : w.takeover? argv opts childId = .ok r) :
    r.1 = none ∧ r.2 = (w, []) ∨ ∃ tk inv, r.1 = some tk ∧ w.candidate? argv opts = .ok (some inv) ∧
      tk.argv = w.launcherArgs (argv.map Json.displayText) w.nextPort (some (.string childId)) := by
  unfold takeover? at h
  split at h
  · cases h; exact .inl ⟨rfl, rfl⟩
  · cases hc : w.candidate? argv opts with
    | error e => simp [hc] at h; cases h
    | ok c =>
      cases c with
      | none => simp [hc] at h; cases h; exact .inl ⟨rfl, rfl⟩
      | some inv =>
        simp [hc] at h
        cases h
        exact .inr ⟨_, inv, rfl, rfl, rfl⟩

end ChildWatcher

namespace ProcessTable

theorem spawn_call (t : ProcessTable) (command : Json) (args : List Json) (opts : SpawnOptions) :
    (t.spawn command args opts).1.command = command ∧ (t.spawn command args opts).1.args = args := by
  rcases t with ⟨_ | _, _, _, _⟩ <;> exact ⟨rfl, rfl⟩

/-- A command line the watcher leaves alone starts as it was asked for, and the watcher is
unchanged and says nothing. -/
theorem spawnWatched_untouched {t : ProcessTable} {w : ChildWatcher} (host : Host) {command : Json}
    {args : List Json} {opts : SpawnOptions}
    (h : w.enabled = false ∨ w.candidate? (command :: args) opts = .ok none) :
    t.spawnWatched w host command args opts =
      .ok ((t.spawn command args opts).1, (t.spawn command args opts).2, w, []) := by
  have ht : w.takeover? (command :: args) opts (host.childId t.idsIssued) = .ok (none, w, []) := by
    unfold ChildWatcher.takeover?
    rcases h with h | h
    · simp only [h]
      rfl
    · cases he : w.enabled
      · rfl
      · simp only [Bool.not_true, Bool.false_eq_true, if_false, h]
        rfl
  rw [spawnWatched, ht]
  rfl

/-- The launcher is given the command line asked for, or one that no watcher takes over. -/
theorem spawnWatched_started {t : ProcessTable} {w : ChildWatcher} {host : Host} {command : Json}
    {args : List Json} {opts : SpawnOptions} {call : SpawnCall} {t' : ProcessTable} {w' : ChildWatcher}
    {notes : List WatchNote} (h : t.spawnWatched w host command args opts = .ok (call, t', w', notes)) :
    (call.command = command ∧ call.args = args) ∨
      ∀ (w'' : ChildWatcher) (opts' : SpawnOptions), w''.candidate? (call.command :: call.args) opts' = .ok none := by
  unfold spawnWatched at h
  dsimp only at h
  cases hk : w.takeover? (command :: args) opts (host.childId t.idsIssued) with
  | error e => rw [hk] at h; cases h
  | ok r =>
    obtain ⟨o, w₁, ns⟩ := r
    rcases ChildWatcher.takeover?_eq hk with ⟨ho, -⟩ | ⟨tk, inv, ho, hc, hargv⟩
    · simp only at ho
      subst ho
      rw [hk] at h
      cases h
      exact .inl (spawn_call t command args opts)
    · simp only at ho
      subst ho
      rw [hk] at h
      cases h
      -- the launcher's command line of a run carries `--subprocess`
      right
      intro w'' opts'
      obtain ⟨hcmd, hargs⟩ := spawn_call { t with idsIssued := t.idsIssued + 1 } (tk.argv.headD .null) tk.argv.tail opts
      rw [hcmd, hargs]
      obtain ⟨hi, hr⟩ := ChildWatcher.interpreterRun?_ok (ChildWatcher.candidate?_ok hc)
      rw [hargv, ChildWatcher.launcherArgs_of_run hi hr]
      exact ChildWatcher.candidate?_of_subprocess (by simp) w'' opts'

end ProcessTable

/-- Taking a command line over is a faithful encoding that is never applied twice. A command
line is left as it is unless it runs the interpreter on an entry; then it is the interpreter,
skipped options, the entry's words and the entry's arguments, and the launcher's command line
keeps the interpreter, the entry and those arguments in order, each after an `--arg`, and is
taken over by no watcher. The launcher is given a command line unchanged while the watcher is
disabled, under a shell, or when the watcher does not take it over; whatever it is given is
that command line, or one no watcher takes over. -/
theorem command_rewrite_faithful :
    (∀ (w : ChildWatcher) (argv : List String) (port childId : Option Json),
      ((isInterpreter argv = false ∨ Invocation.ofArgv? argv = none) ∧
          w.launcherArgs argv port childId = argv.map Json.string) ∨
      ∃ (cmd : String) (inv : Invocation) (F E : List String),
        isInterpreter argv = true ∧ Invocation.ofArgv? argv = some inv ∧
        argv = cmd :: (F ++ E ++ inv.trailing) ∧ (∀ f ∈ F, Invocation.Skipped f) ∧
        Invocation.EntryWords inv E ∧
        w.launcherArgs argv port childId =
          [.string cmd, .string "-m", w.config.launcherModule, .string "--ipc", .string "tcp",
            .string "--ipc-host", w.config.ipcHost, .string "--ipc-port", .string (Json.textOf port),
            .string "--ipc-binary", .string "--subprocess", .string ("--" ++ inv.mode.name),
            .string inv.value] ++
          ChildWatcher.flagged "--session-id" childId ++
          ChildWatcher.flagged "--parent-session-id" w.config.sessionId ++
          inv.trailing.flatMap (fun a => [.string "--arg", .string a]) ∧
        ∀ (w' : ChildWatcher) (opts : SpawnOptions),
          w'.candidate? (w.launcherArgs argv port childId) opts = .ok none) ∧
    (∀ (t : ProcessTable) (w : ChildWatcher) (host : Host) (command : Json) (args : List Json)
      (opts : SpawnOptions),
      w.enabled = false ∨ (opts.shell.map Json.truthy).getD false = true ∨
          w.candidate? (command :: args) opts = .ok none →
        t.spawnWatched w host command args opts =
          .ok ((t.spawn command args opts).1, (t.spawn command args opts).2, w, [])) ∧
    (∀ (t : ProcessTable) (w : ChildWatcher) (host : Host) (command : Json) (args : List Json)
      (opts : SpawnOptions) (call : SpawnCall) (t' : ProcessTable) (w' : ChildWatcher)
      (notes : List WatchNote),
      t.spawnWatched w host command args opts = .ok (call, t', w', notes) →
        (call.command = command ∧ call.args = args) ∨
          ∀ (w'' : ChildWatcher) (opts' : SpawnOptions),
            w''.candidate? (call.command :: call.args) opts' = .ok none) := by
  refine ⟨fun w argv port childId => ?_, fun t w host command args opts h => ?_,
    fun _ _ _ _ _ _ _ _ _ _ h => ProcessTable.spawnWatched_started h⟩
  · cases hi : isInterpreter argv with
    | false => exact .inl ⟨.inl rfl, ChildWatcher.launcherArgs_of_not_run (.inl hi) port childId⟩
    | true =>
      cases hr : Invocation.ofArgv? argv with
      | none => exact .inl ⟨.inr rfl, ChildWatcher.launcherArgs_of_not_run (.inr hr) port childId⟩
      | some inv =>
        -- a run needs a command: the arguments after it run the entry
        obtain ⟨cmd, rest, rfl⟩ : ∃ cmd rest, argv = cmd :: rest := by
          cases argv with
          | nil => cases hr
          | cons cmd rest => exact ⟨cmd, rest, rfl⟩
        obtain ⟨F, E, hrest, hF, hE⟩ := Invocation.ofArgs?_eq_some_iff.1 hr
        have hl := ChildWatcher.launcherArgs_of_run (w := w) hi hr port childId
        exact .inr ⟨cmd, inv, F, E, rfl, rfl, congrArg (cmd :: ·) hrest, hF, hE, hl,
          fun w' opts => ChildWatcher.candidate?_of_subprocess (by rw [hl]; simp) w' opts⟩
  · rcases h with h | h | h
    · exact ProcessTable.spawnWatched_untouched host (.inl h)
    · exact ProcessTable.spawnWatched_untouched host (.inr (ChildWatcher.candidate?_shell h w _))
    · exact ProcessTable.spawnWatched_untouched host (.inr h)

/-- A disabled watcher hands an interpreter run to the launcher as it is. -/
theorem disabled_watcher_spawns_as_given :
    (ChildWatcher.create WatchConfig.standard).enabled = false ∧
      (ProcessTable.create 4000 []).spawnWatched (ChildWatcher.create WatchConfig.standard)
          ⟨1, fun _ => "child", Path.hostTree, Validator.standard⟩ (.string "python3") [.string "app.py"] SpawnOptions.none =
        .ok (((ProcessTable.create 4000 []).spawn (.string "python3") [.string "app.py"] SpawnOptions.none).1,
          ((ProcessTable.create 4000 []).spawn (.string "python3") [.string "app.py"] SpawnOptions.none).2,
          ChildWatcher.create WatchConfig.standard, []) :=
  ⟨rfl, command_rewrite_faithful.2.1 _ _ _ _ _ _ (.inl rfl)⟩

end DapBridge
