import DapBridge.Child.Launcher
import DapBridge.Proofs.Fields
import DapBridge.Proofs.ThreadList
import DapBridge.Proofs.NumberText
import Mathlib

/-!
# What one call does to the child registry

The child watcher keeps a registry of the children it took over or was told of, under their
process ids as keys (`Json.sameValue`), and hands out ports from a range in turn. This module
says what each of its calls can do to the registry, in the terms a run of the watcher needs.

* `RegistryChange`: a call leaves the registry as it was and tells only the log, registers a
  child it has room for and announces it, forgets every record of a registered child and
  reports its end, or forgets every child silently. Starting a process through the watcher
  (`ProcessTable.spawnWatched_effect`), a process's exit (`ProcessTable.exit_effect`), a child
  detected (`RegistryChange.ofDetected`) and a child's end (`RegistryChange.ofExited`) each
  change it so.
* `RegistryChange.bounded`, `RegistryChange.apart`, `RegistryChange.records`: every change
  keeps the registry within an integral limit, its keys apart, and each record's process id the
  same as its key. A count the limit does not turn away is below it
  (`Json.count_lt_of_not_atLeast`): a count at the limit is the limit's own word.
* `ChildWatcher.allocatePort_cycle`: the ports of a range of whole numbers within `±2^53` are
  handed out in turn (`cyclePort`), since such numbers compare, and add one, exactly.
* `ProcessTable.spawnWatched_effect`: a full registry turns a taken-over child away, and no one
  waits for its exit (`ProcessTable.exit_unwatched`).
-/

namespace DapBridge

namespace Json

/-- An object from optional members finds, under its first key, that member's value, when no
other member has the key. -/
theorem member?_objectOpt_head {k : String} {rest : List (String × Option Json)} (h : k ∉ rest.map (·.1))
    (v : Option Json) : (objectOpt ((k, v) :: rest)).member? k = v := by
  have hr : k ∉ (rest.filterMap fun kv => kv.2.map (kv.1, ·)).map (·.1) := by
    intro hk
    obtain ⟨kv, hkv, rfl⟩ := List.mem_map.1 hk
    obtain ⟨kv', hkv', he⟩ := List.mem_filterMap.1 hkv
    obtain ⟨x, -, rfl⟩ := Option.map_eq_some_iff.1 he
    exact h (List.mem_map_of_mem hkv')
  cases v with
  | none => exact Fields.get?_ofList_of_not_mem hr
  | some x => exact Fields.get?_ofList_cons hr x

end Json

/-- Whether a note is a record for the log, not a notification. -/
def WatchNote.isLog : WatchNote → Bool
  | .log _ => true
  | .notify _ _ => false

namespace ChildWatcher

/-- The children as a table keyed by process id. -/
def table (w : ChildWatcher) : Table (Option Json) Json := ⟨w.children⟩

/-- Whether the registry is full: the watcher's own check that turns a child away. -/
def full (w : ChildWatcher) : Bool :=
  Json.atLeast (some (Json.ofNat w.children.length)) (some w.config.maxChildren)

theorem property_obj (fs : Json.Fields) (k : String) : Json.property (some (.obj fs)) k = .ok (fs.get? k) := rfl

theorem childDetected_full {w : ChildWatcher} (h : w.full = true) (fs : Json.Fields) :
    ∃ notes, w.childDetected (some (.obj fs)) = .ok (false, w, notes) ∧ ∀ n ∈ notes, n.isLog = true := by
  unfold full at h
  refine ⟨?_, ?eq, ?logs⟩
  case eq =>
    simp only [childDetected, h, if_true, property_obj]
    rfl
  case logs => simp [WatchNote.isLog]

/-- Setting a key of the registry's table replaces the records of the keys the same as it, or
adds the key at the end. -/
theorem table_set_entries (w : ChildWatcher) (k : Option Json) (r : Json) :
    (w.table.set k r).entries =
      if w.children.any (Json.sameValue ·.1 k) then
        w.children.map fun c => if Json.sameValue c.1 k then (c.1, r) else c
      else w.children ++ [(k, r)] := by
  unfold table Table.set Table.contains
  simp only [KeyEq.same]
  split
  · refine List.map_congr_left fun c _ => ?_
    obtain ⟨a, b⟩ := c
    rfl
  · rfl

theorem childDetected_room {w : ChildWatcher} (h : w.full = false) (fs : Json.Fields) :
    ∃ d body, w.childDetected (some (.obj fs)) =
        .ok (true, { w with children := (w.table.set (fs.get? "pid") (.obj fs)).entries },
          [.log d, .notify "childProcess" body]) ∧ body.member? "pid" = fs.get? "pid" := by
  unfold full at h
  rw [table_set_entries]
  refine ⟨?d, Json.objectOpt (["pid", "name", "ipcPort", "command", "cwd", "isPython", "parentPid", "sessionId",
    "parentSessionId"].map fun k => (k, fs.get? k)), ?eq, Json.member?_objectOpt_head (by simp) _⟩
  case eq =>
    simp only [childDetected, h, Bool.false_eq_true, if_false, property_obj]
    rfl

/-- A child's end is heard of or not: when it is, a child under a key the same as the process
id was registered, every such key is forgotten, and the notification names the process id. -/
theorem childExited_cases (w : ChildWatcher) (p : Option Json) :
    w.childExited p = (w, []) ∨
      (∃ c ∈ w.children, Json.sameValue c.1 p = true) ∧ ∃ body,
        w.childExited p = ({ w with children := (w.table.erase p).entries },
          [.notify "childProcessExited" body]) ∧ body.member? "pid" = p := by
  unfold childExited
  split
  · next k c hf =>
    split
    · refine .inr ⟨⟨(k, c), List.mem_of_find?_eq_some hf, by simpa using List.find?_some hf⟩, _, rfl, ?_⟩
      exact Json.member?_objectOpt_head (by simp) p
    · exact .inl rfl
  · exact .inl rfl

end ChildWatcher

namespace Json

theorem atLeast_ofInt {i j : Int} (hi : i.natAbs ≤ 2 ^ 53) (hj : j.natAbs ≤ 2 ^ 53) :
    atLeast (some (.num (Double.ofInt i))) (some (.num (Double.ofInt j))) = decide (j ≤ i) := by
  simp only [atLeast, lessThan, primitive, numberOf, toNumber, Double.compareNum_ofInt hi hj, Option.map_some]
  rcases lt_or_ge (i : ℚ) j with h | h
  · have hij : ¬ j ≤ i := fun h' => absurd (show (j : ℚ) ≤ i by exact_mod_cast h') (not_le.2 h)
    rw [compare_lt_iff_lt.2 h, decide_eq_false hij]
    rfl
  · have hij : j ≤ i := by exact_mod_cast h
    have hc : compare (i : ℚ) j ≠ .lt := fun hc => absurd (compare_lt_iff_lt.1 hc) (not_lt.2 h)
    rw [decide_eq_true hij]
    cases hcmp : compare (i : ℚ) j <;> simp_all

theorem plus_one (x : Double) : plus (some (.num x)) (some (.num 1)) = .num (x + 1) := rfl

end Json

/-- The `k`-th port of the range from `lo` to `hi`, counted from zero and starting again at
`lo` after `hi`. -/
def cyclePort (lo hi : Int) (k : Nat) : Option Json := some (.num (Double.ofInt (lo + k % (hi - lo + 1))))

theorem emod_succ {N : Int} (hN : 0 < N) (k : Nat) :
    ((k + 1 : Nat) : Int) % N = if (k : Int) % N + 1 = N then 0 else (k : Int) % N + 1 := by
  have h0 : 0 ≤ (k : Int) % N := Int.emod_nonneg _ hN.ne'
  have h1 : (k : Int) % N < N := Int.emod_lt_of_pos _ hN
  push_cast
  rw [← Int.emod_add_emod]
  split
  · next h => rw [h, Int.emod_self]
  · exact Int.emod_eq_of_lt (by omega) (by omega)

namespace ChildWatcher

/-- Handing out a port of a range of whole numbers within `±2^53`: the `k`-th port is handed
out and the `k+1`-th is next. -/
theorem allocatePort_cycle {w : ChildWatcher} {lo hi : Int}
    (hr : w.config.portRange = .arr [.num (Double.ofInt lo), .num (Double.ofInt hi)])
    (hle : lo ≤ hi) (hlo : -2 ^ 53 ≤ lo) (hhi : hi ≤ 2 ^ 53) {k : Nat} (hn : w.nextPort = cyclePort lo hi k) :
    w.allocatePort = (cyclePort lo hi k, { w with nextPort := cyclePort lo hi (k + 1) }) := by
  have hN : 0 < hi - lo + 1 := by omega
  have h0 : 0 ≤ (k : Int) % (hi - lo + 1) := Int.emod_nonneg _ hN.ne'
  have h1 : (k : Int) % (hi - lo + 1) < hi - lo + 1 := Int.emod_lt_of_pos _ hN
  have hnat : ∀ i : Int, -2 ^ 53 ≤ i → i ≤ 2 ^ 53 → i.natAbs ≤ 2 ^ 53 := fun i h₁ h₂ => by omega
  have hat := Json.atLeast_ofInt (i := lo + k % (hi - lo + 1)) (j := hi) (hnat _ (by omega) (by omega))
    (hnat _ (by omega) hhi)
  have hm0 : (Json.arr [.num (Double.ofInt lo), .num (Double.ofInt hi)]).member? "0" =
      some (.num (Double.ofInt lo)) := rfl
  have hm1 : (Json.arr [.num (Double.ofInt lo), .num (Double.ofInt hi)]).member? "1" =
      some (.num (Double.ofInt hi)) := rfl
  unfold allocatePort
  rw [hn, hr]
  dsimp only
  unfold cyclePort
  rw [hm1, hat, emod_succ hN k]
  by_cases hk : hi ≤ lo + k % (hi - lo + 1)
  · -- the high end was handed out: the low end is next
    have hwrap : (k : Int) % (hi - lo + 1) + 1 = hi - lo + 1 := by omega
    rw [decide_eq_true hk, if_pos rfl, hm0, if_pos hwrap, Int.add_zero]
  · have hwrap : (k : Int) % (hi - lo + 1) + 1 ≠ hi - lo + 1 := by omega
    rw [decide_eq_false hk, if_neg Bool.false_ne_true, if_neg hwrap, Json.plus_one,
      Double.ofInt_add_one (by omega) (by omega), Int.add_assoc]

end ChildWatcher

namespace Json

/-- A count below an integral limit `M`, at most `max 0 M`, that the limit does not turn away is
below it: a count at the limit is the limit's own word, and a count of zero is turned away by a
limit of at most zero. -/
theorem count_lt_of_not_atLeast {n : Nat} {m : Double} {M : Int} (hM : m.toInt? = some M)
    (hle : (n : Int) ≤ max 0 M) (hroom : atLeast (some (ofNat n)) (some (.num m)) = false) :
    (n : Int) + 1 ≤ max 0 M := by
  obtain ⟨neg, mant, exp, hd, hv⟩ := Double.value_of_toInt? hM
  -- the limit turns away every count it is not above
  have hturn : ∀ o, Double.compareNum (Double.ofNat n) m = some o → o ≠ .lt → False := by
    intro o ho hne
    cases o <;> simp_all [atLeast, lessThan, primitive, numberOf, toNumber, ofNat]
  by_contra hcon
  have hnM : (n : Int) = max 0 M := by omega
  rcases le_or_gt M 0 with hM0 | hM0
  · have hn : n = 0 := by omega
    subst hn
    refine hturn _ (Double.compareNum_finite Double.decode_zero hd) fun hlt => ?_
    have hlt' := compare_lt_iff_lt.1 hlt
    rw [hv, show Double.value false 0 Double.minExponent = 0 by simp [Double.value]] at hlt'
    exact absurd (show (0 : Int) < M by exact_mod_cast hlt') (not_lt.2 hM0)
  · -- a count at a positive limit is the limit's own word
    have hn : (n : Int) = M := by omega
    have hneg : neg = false := by
      cases neg
      · rfl
      · have : Double.value true mant exp ≤ 0 := by
          simp only [Double.value, if_true, neg_mul, Left.neg_nonpos_iff]
          positivity
        rw [hv] at this
        exact absurd (show M ≤ 0 by exact_mod_cast this) (not_le.2 hM0)
    subst hneg
    have hval : (mant : ℚ) * 2 ^ exp = n := by
      have := hv
      simp only [Double.value, Bool.false_eq_true, if_false] at this
      rw [this, ← hn]
      rfl
    obtain ⟨hc, henc⟩ := Double.decode_finite hd
    have hword : Double.ofNat n = m := by
      rw [Double.ofNat_eq_encode hc hval (by omega), henc]
    refine hturn _ (Double.compareNum_finite (hword ▸ hd) hd) fun hlt => ?_
    exact lt_irrefl _ (compare_lt_iff_lt.1 hlt)

end Json

namespace ChildWatcher

/-- Whether the watcher takes a command line over: it is enabled and the command line is a
candidate. -/
def takesOver (w : ChildWatcher) (argv : List Json) (opts : SpawnOptions) : Bool :=
  w.enabled && match w.candidate? argv opts with
    | .ok (some _) => true
    | _ => false

/-- Taking over either leaves the watcher and says nothing, or hands out the next port and
notes the command lines in the log. -/
theorem takeover?_ok {w : ChildWatcher} {argv : List Json} {opts : SpawnOptions} {childId : String}
    {r : Option Takeover × ChildWatcher × List WatchNote} (h : w.takeover? argv opts childId = .ok r) :
    w.takesOver argv opts = false ∧ r = (none, w, []) ∨
      w.takesOver argv opts = true ∧ ∃ tk note, r = (some tk, w.allocatePort.2, [note]) ∧ note.isLog = true := by
  unfold takeover? at h
  unfold takesOver
  cases he : w.enabled
  · simp only [he, Bool.not_false, if_true] at h
    cases h
    exact .inl ⟨rfl, rfl⟩
  · simp only [he, Bool.not_true, Bool.false_eq_true, if_false] at h
    cases hc : w.candidate? argv opts with
    | error e => rw [hc] at h; cases h
    | ok c =>
      rw [hc] at h
      cases c with
      | none => cases h; exact .inl ⟨rfl, rfl⟩
      | some inv => cases h; exact .inr ⟨rfl, _, _, rfl, rfl⟩

theorem runOf?_strings (xs : List String) : ∃ r, runOf? (xs.map Json.string) = .ok r := by
  induction xs with
  | nil => exact ⟨none, rfl⟩
  | cons x xs ih =>
    simp only [List.map_cons, Json.string, runOf?]
    split
    · split <;> exact ⟨_, rfl⟩
    · split
      · exact ⟨_, rfl⟩
      · split
        · exact ih
        · exact ⟨_, rfl⟩

/-- A command line of texts is always read: looking for its run fails on no item. -/
theorem candidate?_strings (w : ChildWatcher) (command : String) (args : List String) (opts : SpawnOptions) :
    ∃ r, w.candidate? (.string command :: args.map Json.string) opts = .ok r := by
  unfold candidate?
  split
  · exact ⟨_, rfl⟩
  · split
    · exact ⟨_, rfl⟩
    · simp only [interpreterRun?, Json.string]
      split
      · exact runOf?_strings args
      · exact ⟨_, rfl⟩

/-- Registering a child it adopts: turned away when the registry is full, and then nothing but
the log hears of it; registered otherwise, and announced. -/
theorem adopt_cases (w : ChildWatcher) (tk : Takeover) (opts : SpawnOptions) (pid : Option Double) (hostPid : Double) :
    ((w.adopt tk opts pid hostPid).1 = false ∧ (w.adopt tk opts pid hostPid).2.1 = w ∧
        ∀ n ∈ (w.adopt tk opts pid hostPid).2.2, n.isLog = true) ∨
      w.full = false ∧ ∃ (fs : Json.Fields) (d : Diagnostic) (body : Json), body.member? "pid" = fs.get? "pid" ∧
        w.adopt tk opts pid hostPid = (true, { w with children := (w.table.set (fs.get? "pid") (.obj fs)).entries },
          [.log d, .notify "childProcess" body]) := by
  unfold adopt
  cases pid with
  | none => exact .inl ⟨rfl, rfl, by simp⟩
  | some p =>
    simp only [Json.objectOpt]
    cases hf : w.full
    · obtain ⟨d, body, hd, hb⟩ := childDetected_room hf (Json.Fields.ofOptions [("pid", some (.num p)),
        ("name", some (.string (Path.baseName tk.invocation.value))), ("ipcPort", tk.port),
        ("command", some (.arr tk.requested)), ("cwd", opts.cwd), ("isPython", some (.bool true)),
        ("parentPid", some (.num hostPid)), ("sessionId", some (.string tk.childId)),
        ("parentSessionId", w.config.sessionId)])
      rw [hd]
      exact .inr ⟨rfl, _, d, body, hb, rfl⟩
    · obtain ⟨notes, hd, hl⟩ := childDetected_full hf (Json.Fields.ofOptions [("pid", some (.num p)),
        ("name", some (.string (Path.baseName tk.invocation.value))), ("ipcPort", tk.port),
        ("command", some (.arr tk.requested)), ("cwd", opts.cwd), ("isPython", some (.bool true)),
        ("parentPid", some (.num hostPid)), ("sessionId", some (.string tk.childId)),
        ("parentSessionId", w.config.sessionId)])
      rw [hd]
      exact .inl ⟨rfl, rfl, hl⟩

end ChildWatcher

/-- How one event changes the registry of a watcher `w`, and what the watcher says meanwhile. -/
inductive RegistryChange (w : ChildWatcher) : List (Option Json × Json) → List WatchNote → Prop
  /-- The registry stays, and only the log hears anything. -/
  | quiet {notes : List WatchNote} : (∀ n ∈ notes, n.isLog = true) → RegistryChange w w.children notes
  /-- A child is registered under its process id, and announced. -/
  | register {pre : List WatchNote} {fs : Json.Fields} {d : Diagnostic} {body : Json} :
      w.full = false → (∀ n ∈ pre, n.isLog = true) → body.member? "pid" = fs.get? "pid" →
      RegistryChange w (w.table.set (fs.get? "pid") (.obj fs)).entries (pre ++ [.log d, .notify "childProcess" body])
  /-- A registered child ended: every record under its process id is forgotten, and its end
  reported. -/
  | retire {q : Double} {body : Json} : (∃ c ∈ w.children, Json.sameValue c.1 (some (.num q)) = true) →
      body.member? "pid" = some (.num q) →
      RegistryChange w (w.table.erase (some (.num q))).entries [.notify "childProcessExited" body]
  /-- Every child is forgotten, silently. -/
  | clear : RegistryChange w [] []

namespace RegistryChange

theorem ofExited (w : ChildWatcher) (q : Double) :
    RegistryChange w (w.childExited (some (.num q))).1.children (w.childExited (some (.num q))).2 := by
  rcases ChildWatcher.childExited_cases w (some (.num q)) with h | ⟨hc, body, h, hb⟩
  · rw [h]
    exact quiet (by simp)
  · rw [h]
    exact retire hc hb

theorem ofDetected {w : ChildWatcher} {fs : Json.Fields} {r : Bool × ChildWatcher × List WatchNote}
    (h : w.childDetected (some (.obj fs)) = .ok r) : RegistryChange w r.2.1.children r.2.2 := by
  cases hf : w.full
  · obtain ⟨d, body, hd, hb⟩ := ChildWatcher.childDetected_room hf fs
    rw [hd] at h
    cases h
    exact @register w [] fs d body hf (by simp) hb
  · obtain ⟨notes, hd, hl⟩ := ChildWatcher.childDetected_full hf fs
    rw [hd] at h
    cases h
    exact quiet hl

end RegistryChange

namespace ProcessTable

theorem spawn_processes (t : ProcessTable) (command : Json) (args : List Json) (opts : SpawnOptions) :
    (t.spawn command args opts).2.processes = t.processes ++ [⟨(t.spawn command args opts).1, false⟩] := by
  rcases t with ⟨_ | _, _, _, _⟩ <;> rfl

theorem spawnWatched_effect {t t' : ProcessTable} {w w' : ChildWatcher} {host : Host} {command : Json}
    {args : List Json} {opts : SpawnOptions} {call : SpawnCall} {notes : List WatchNote}
    (h : t.spawnWatched w host command args opts = .ok (call, t', w', notes)) :
    w'.config = w.config ∧
      w'.nextPort = (if w.takesOver (command :: args) opts then w.allocatePort.2.nextPort else w.nextPort) ∧
      RegistryChange w w'.children notes ∧
      ∃ accepted, t'.processes = t.processes ++ [⟨call, accepted⟩] ∧
        (w.full = true → accepted = false ∧ w'.children = w.children ∧ ∀ n ∈ notes, n.isLog = true) := by
  unfold spawnWatched at h
  dsimp only at h
  cases ht : w.takeover? (command :: args) opts (host.childId t.idsIssued) with
  | error e => rw [ht] at h; cases h
  | ok r =>
    rw [ht] at h
    rcases ChildWatcher.takeover?_ok ht with ⟨hto, rfl⟩ | ⟨hto, tk, note, rfl, hnote⟩
    · -- left alone: started as asked, unwatched
      simp only [bind, Except.bind, pure, Except.pure, Except.ok.injEq, Prod.mk.injEq] at h
      obtain ⟨rfl, rfl, rfl, rfl⟩ := h
      exact ⟨rfl, by simp only [hto, Bool.false_eq_true, if_false], .quiet (by simp), false,
        spawn_processes t command args opts, fun _ => ⟨rfl, rfl, by simp⟩⟩
    · -- taken over: the launcher starts, and the child is adopted
      simp only [bind, Except.bind, pure, Except.pure] at h
      generalize hsp : ({ t with idsIssued := t.idsIssued + 1 } : ProcessTable).spawn (tk.argv.headD .null)
        tk.argv.tail opts = sp at h
      have hp : sp.2.processes = t.processes ++ [⟨sp.1, false⟩] := by
        rw [← hsp]
        exact spawn_processes _ _ _ _
      generalize had : w.allocatePort.2.adopt tk opts sp.1.pid host.pid = ad at h
      obtain ⟨accepted, w2, more⟩ := ad
      simp only [Except.ok.injEq, Prod.mk.injEq] at h
      obtain ⟨rfl, rfl, rfl, rfl⟩ := h
      rcases ChildWatcher.adopt_cases w.allocatePort.2 tk opts sp.1.pid host.pid with
        ⟨hacc, hw, hl⟩ | ⟨hfull, fs, d, body, hb, hadopt⟩
      · rw [had] at hacc hw hl
        subst hw
        have hlogs : ∀ n ∈ [note] ++ more, n.isLog = true := by
          intro n hn
          rcases List.mem_append.1 hn with hn | hn
          · rw [List.mem_singleton.1 hn]
            exact hnote
          · exact hl n hn
        exact ⟨rfl, by simp only [hto, if_true], .quiet hlogs, accepted, by cases accepted <;> simp [hp],
          fun _ => ⟨hacc, rfl, hlogs⟩⟩
      · rw [had] at hadopt
        cases hadopt
        exact ⟨rfl, by simp only [hto, if_true], .register hfull (by simpa using hnote) hb, true, by simp [hp],
          fun hf => absurd ((hf : w.allocatePort.2.full = true).symm.trans hfull) Bool.noConfusion⟩

end ProcessTable

namespace Json

theorem sameValue_symm (a b : Option Json) : sameValue a b = sameValue b a := KeyEq.Lawful.symm a b

theorem sameValue_trans {a b c : Option Json} (hab : sameValue a b = true) (hbc : sameValue b c = true) :
    sameValue a c = true :=
  @KeyEq.Lawful.trans (Option Json) _ _ a b c hab hbc

/-- Keys the same as each other are the same as the same keys. -/
theorem sameValue_left {a b : Option Json} (h : sameValue a b = true) (x : Option Json) :
    sameValue a x = sameValue b x :=
  Bool.eq_iff_iff.2 ⟨fun hax => sameValue_trans (by rwa [sameValue_symm]) hax, fun hbx => sameValue_trans h hbx⟩

end Json

namespace RegistryChange

variable {w : ChildWatcher} {cs : List (Option Json × Json)} {notes : List WatchNote}

/-- The registry grows only by a child it has room for, so it stays within an integral limit. -/
theorem bounded (hc : RegistryChange w cs notes) {m : Double} {M : Int} (hm : w.config.maxChildren = .num m)
    (hM : m.toInt? = some M) (hb : (w.children.length : Int) ≤ max 0 M) : (cs.length : Int) ≤ max 0 M := by
  cases hc with
  | quiet _ => exact hb
  | register hfull _ _ =>
    rw [ChildWatcher.table_set_entries]
    split
    · rw [List.length_map]
      exact hb
    · -- a new key: the registry had room for it
      unfold ChildWatcher.full at hfull
      rw [hm] at hfull
      rw [List.length_append, List.length_singleton, Nat.cast_add, Nat.cast_one]
      exact Json.count_lt_of_not_atLeast hM hb hfull
  | retire _ _ => exact le_trans (Int.ofNat_le.2 (List.length_filter_le _ _)) hb
  | clear => exact le_max_left 0 M

theorem apart (hc : RegistryChange w cs notes) (ha : w.table.KeysApart) : (Table.mk cs).KeysApart := by
  cases hc with
  | quiet _ => exact ha
  | register _ _ _ => exact ha.set _ _
  | retire _ _ => exact ha.erase _
  | clear => exact List.Pairwise.nil

/-- Every record carries a process id the same as the key it is kept under. -/
theorem records (hc : RegistryChange w cs notes)
    (hr : ∀ c ∈ w.children, ∀ x, Json.sameValue (c.2.member? "pid") x = Json.sameValue c.1 x) :
    ∀ c ∈ cs, ∀ x, Json.sameValue (c.2.member? "pid") x = Json.sameValue c.1 x := by
  cases hc with
  | quiet _ => exact hr
  | register _ _ _ =>
    refine Table.forall_set (P := fun (k : Option Json) (r : Json) => ∀ x, Json.sameValue (r.member? "pid") x =
      Json.sameValue k x) (t := w.table) hr (fun x => rfl) ?_
    intro k' hk' x
    exact (Json.sameValue_left hk' x).symm
  | retire _ _ =>
    exact Table.forall_erase (P := fun (k : Option Json) (r : Json) => ∀ x, Json.sameValue (r.member? "pid") x =
      Json.sameValue k x) (t := w.table) hr _
  | clear => exact fun c hc => absurd hc (List.not_mem_nil)

end RegistryChange

namespace ChildWatcher

/-- Registering or retiring a child keeps the configuration and the next port. -/
theorem childExited_keeps (w : ChildWatcher) (p : Option Json) :
    (w.childExited p).1.config = w.config ∧ (w.childExited p).1.nextPort = w.nextPort := by
  rcases childExited_cases w p with h | ⟨-, body, h, -⟩ <;> rw [h] <;> exact ⟨rfl, rfl⟩

theorem childDetected_keeps {w : ChildWatcher} {fs : Json.Fields} {r : Bool × ChildWatcher × List WatchNote}
    (h : w.childDetected (some (.obj fs)) = .ok r) : r.2.1.config = w.config ∧ r.2.1.nextPort = w.nextPort := by
  cases hf : w.full
  · obtain ⟨d, body, hd, -⟩ := childDetected_room hf fs
    rw [hd] at h
    cases h
    exact ⟨rfl, rfl⟩
  · obtain ⟨notes, hd, -⟩ := childDetected_full hf fs
    rw [hd] at h
    cases h
    exact ⟨rfl, rfl⟩

end ChildWatcher

namespace ProcessTable

/-- A process's exit reaches the watcher only as the end of a child. -/
theorem exit_effect (t : ProcessTable) (w : ChildWatcher) (i : Nat) :
    (t.exit w i).2.1.config = w.config ∧ (t.exit w i).2.1.nextPort = w.nextPort ∧
      RegistryChange w (t.exit w i).2.1.children (t.exit w i).2.2 := by
  unfold exit
  split
  · split
    · split
      · next pid _ =>
        exact ⟨(w.childExited_keeps _).1, (w.childExited_keeps _).2, RegistryChange.ofExited w pid⟩
      · exact ⟨rfl, rfl, .quiet (by simp)⟩
    · exact ⟨rfl, rfl, .quiet (by simp)⟩
  · exact ⟨rfl, rfl, .quiet (by simp)⟩

end ProcessTable

theorem ChildWatcher.takeover?_of_candidate? {w : ChildWatcher} {argv : List Json} {opts : SpawnOptions}
    (childId : String) {c : Option Invocation} (h : w.candidate? argv opts = .ok c) :
    ∃ r, w.takeover? argv opts childId = .ok r := by
  unfold ChildWatcher.takeover?
  cases w.enabled
  · exact ⟨_, rfl⟩
  · simp only [Bool.not_true, Bool.false_eq_true, if_false]
    rw [h]
    cases c <;> exact ⟨_, rfl⟩

theorem ProcessTable.spawnWatched_of_takeover? {t : ProcessTable} {w : ChildWatcher} {host : Host} {command : Json}
    {args : List Json} {opts : SpawnOptions} {r : Option Takeover × ChildWatcher × List WatchNote}
    (h : w.takeover? (command :: args) opts (host.childId t.idsIssued) = .ok r) :
    ∃ x, t.spawnWatched w host command args opts = .ok x := by
  unfold ProcessTable.spawnWatched
  dsimp only
  rw [h]
  rcases r with ⟨_ | tk, w', notes⟩ <;> exact ⟨_, rfl⟩

namespace ProcessTable

/-- An exit leaves the processes as they are, or marks the one that exited as no longer waited
for. -/
theorem exit_processes (t : ProcessTable) (w : ChildWatcher) (j : Nat) :
    (t.exit w j).1.processes = t.processes ∨
      ∃ p, t.processes[j]? = some p ∧ (t.exit w j).1.processes = t.processes.set j { p with exitWatched := false } := by
  unfold exit
  split
  · next p hp =>
    split
    · split
      · exact .inr ⟨p, hp, rfl⟩
      · exact .inr ⟨p, hp, rfl⟩
    · exact .inl rfl
  · exact .inl rfl

/-- The exit of a process no one waits for changes nothing and says nothing. -/
theorem exit_unwatched {t : ProcessTable} {j : Nat} {p : Process} (hp : t.processes[j]? = some p)
    (hw : p.exitWatched = false) (w : ChildWatcher) : t.exit w j = (t, w, []) := by
  unfold exit
  simp only [hp, hw, Bool.false_eq_true, if_false]

end ProcessTable

end DapBridge
