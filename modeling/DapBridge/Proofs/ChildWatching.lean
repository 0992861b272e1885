import DapBridge.Proofs.ChildRegistry

/-!
# A watcher at work

`Watching` runs a child watcher along any events: processes started through it and their exits,
children detected and ended directly, the watcher switched on, off and cleared, ports handed out.
It keeps everything the watcher said and every port it handed out.

A note is about the child with process id `p` when it announces it (`childProcess`) or reports
its end (`childProcessExited`) under an id the same as `p`; the child is `Announced` when the
last such note announces it.

* `Watching.Sound`: the registry stays within an integral limit, keeps each child under a key no
  other key is the same as and the same as its record's process id, and every child in it is
  announced; every reported end was of an announced child (`EndsAnnounced`); the ports of a
  range of whole numbers within `±2^53` are handed out in turn. Every event keeps it
  (`Watching.Sound.step`, from `Watching.step_effect` and the `RegistryChange` lemmas), no
  event fails (`Watching.step_ok`), so a whole run keeps it (`Watching.Sound.run`).
* `Watching.turnsAwayQuietly`: a full registry turns a child away with only the log hearing of
  it, and the exit of a process it turned away changes nothing, after any events
  (`Watching.Unwatched.run`).
* `child_registry_and_port_cycle`: the results together, for every run from a fresh watcher.
* `ports_stall_past_two_pow_53`: from `2^53` on, one more than a port rounds back to it, and the
  cycle stalls.
-/

namespace DapBridge

namespace WatchNote

/-- What a note says of the child with process id `p`: `some true` when it announces the child,
`some false` when it reports the child's end, `none` when it says neither. -/
def about (p : Double) : WatchNote → Option Bool
  | .notify event body =>
    if Json.sameValue (body.member? "pid") (some (.num p)) then
      if event = "childProcess" then some true
      else if event = "childProcessExited" then some false
      else none
    else none
  | .log _ => none

theorem eq_of_about_true {p : Double} {n : WatchNote} (h : n.about p = some true) :
    ∃ body, n = .notify "childProcess" body ∧ Json.sameValue (body.member? "pid") (some (.num p)) = true := by
  cases n with
  | log d => cases h
  | notify e b =>
    have h' : (if Json.sameValue (b.member? "pid") (some (.num p)) then
        (if e = "childProcess" then some true else if e = "childProcessExited" then some false else none)
        else none) = some true := h
    split at h'
    · next hs =>
      split at h'
      · next he => exact ⟨b, by rw [he], hs⟩
      · split at h' <;> cases h'
    · cases h'

theorem about_end {p : Double} (body : Json) :
    (WatchNote.notify "childProcessExited" body).about p =
      if Json.sameValue (body.member? "pid") (some (.num p)) then some false else none := by
  simp [about]

theorem about_of_isLog {n : WatchNote} (h : n.isLog = true) (p : Double) : n.about p = none := by
  cases n with
  | log d => rfl
  | notify e b => cases h

end WatchNote

/-- The last of the notes about the child with process id `p` announces it. -/
def Announced (p : Double) (h : List WatchNote) : Prop :=
  (h.filterMap (WatchNote.about p)).getLast? = some true

/-- Every notification of a child's end comes while the last note about that child announced it. -/
def EndsAnnounced (h : List WatchNote) : Prop :=
  ∀ i body p, h[i]? = some (.notify "childProcessExited" body) → body.member? "pid" = some (.num p) →
    Announced p (h.take i)

theorem announced_append_quiet {p : Double} {h ns : List WatchNote} (hq : ∀ n ∈ ns, n.about p = none) :
    Announced p (h ++ ns) ↔ Announced p h := by
  unfold Announced
  rw [List.filterMap_append, List.filterMap_eq_nil_iff.2 hq, List.append_nil]

/-- A note about `p` at the end decides whether `p` is announced. -/
theorem announced_snoc {p : Double} {h : List WatchNote} {n : WatchNote} :
    Announced p (h ++ [n]) ↔ n.about p = some true ∨ (n.about p = none ∧ Announced p h) := by
  unfold Announced
  rw [List.filterMap_append]
  cases hn : n.about p with
  | none => simp [List.filterMap_cons_none hn]
  | some b => simp [List.filterMap_cons_some hn]

theorem endsAnnounced_nil : EndsAnnounced [] := by
  intro i body p h
  simp at h

/-- Notes without the end of a child keep every end announced. -/
theorem EndsAnnounced.append_quiet {h ns : List WatchNote} (hh : EndsAnnounced h)
    (hq : ∀ n ∈ ns, ∀ body, n ≠ .notify "childProcessExited" body) : EndsAnnounced (h ++ ns) := by
  intro i body p hi hp
  rcases Nat.lt_or_ge i h.length with hlt | hge
  · rw [List.getElem?_append_left hlt] at hi
    rw [List.take_append_of_le_length (Nat.le_of_lt hlt)]
    exact hh i body p hi hp
  · rw [List.getElem?_append_right hge] at hi
    exact absurd rfl (hq _ (List.mem_of_getElem? hi) body)

/-- The end of a child announced so far keeps every end announced. -/
theorem EndsAnnounced.append_end {h : List WatchNote} (hh : EndsAnnounced h) {body : Json} {q : Double}
    (hb : body.member? "pid" = some (.num q)) (ha : Announced q h) :
    EndsAnnounced (h ++ [.notify "childProcessExited" body]) := by
  intro i b p hi hp
  rcases Nat.lt_or_ge i h.length with hlt | hge
  · rw [List.getElem?_append_left hlt] at hi
    rw [List.take_append_of_le_length (Nat.le_of_lt hlt)]
    exact hh i b p hi hp
  · rw [List.getElem?_append_right hge] at hi
    have hi0 : i - h.length = 0 := by
      cases hk : i - h.length with
      | zero => rfl
      | succ k => rw [hk] at hi; simp at hi
    simp only [hi0, List.getElem?_cons_zero, Option.some.injEq, WatchNote.notify.injEq, true_and] at hi
    subst hi
    rw [hb, Option.some.injEq, Json.num.injEq] at hp
    subst hp
    rw [show i = h.length by omega, List.take_left' rfl]
    exact ha

/-- An announced child: a note announced it, and no note since reported its end. -/
theorem Announced.exists {p : Double} {h : List WatchNote} (ha : Announced p h) :
    ∃ j < h.length, ∃ body, h[j]? = some (.notify "childProcess" body) ∧
      Json.sameValue (body.member? "pid") (some (.num p)) = true ∧
      ∀ l, j < l → l < h.length → ∀ b, h[l]? = some (.notify "childProcessExited" b) →
        Json.sameValue (b.member? "pid") (some (.num p)) = false := by
  induction h using List.reverseRecOn with
  | nil => simp [Announced] at ha
  | append_singleton h n ih =>
    rcases announced_snoc.1 ha with hn | ⟨hn, ha'⟩
    · -- the last note announces the child
      obtain ⟨body, rfl, hs⟩ := WatchNote.eq_of_about_true hn
      refine ⟨h.length, by simp, body, by simp, hs, fun l hl hl' => ?_⟩
      simp only [List.length_append, List.length_singleton] at hl'
      omega
    · obtain ⟨j, hj, body, hjb, hs, hnone⟩ := ih ha'
      refine ⟨j, by simp; omega, body, by rw [List.getElem?_append_left hj]; exact hjb, hs, ?_⟩
      intro l hl hl' b hb
      simp only [List.length_append, List.length_singleton] at hl'
      rcases Nat.lt_or_ge l h.length with hlt | hge
      · rw [List.getElem?_append_left hlt] at hb
        exact hnone l hl hlt b hb
      · -- the last note is about another child, or no end at all
        have hl0 : l = h.length := by omega
        subst hl0
        simp only [List.getElem?_append_right (Nat.le_refl _), Nat.sub_self, List.getElem?_cons_zero,
          Option.some.injEq] at hb
        subst hb
        rw [WatchNote.about_end] at hn
        cases hs' : Json.sameValue (b.member? "pid") (some (.num p))
        · rfl
        · rw [hs'] at hn; cases hn

theorem WatchNote.about_announce (body : Json) (p : Double) :
    (WatchNote.notify "childProcess" body).about p =
      if Json.sameValue (body.member? "pid") (some (.num p)) then some true else none := by
  simp [WatchNote.about]

namespace RegistryChange

variable {w : ChildWatcher} {cs : List (Option Json × Json)} {notes : List WatchNote}

/-- Every registered child is announced: registering announces, and a child's end is reported
only when every record of it is forgotten. -/
theorem announced (hc : RegistryChange w cs notes) {h : List WatchNote}
    (ha : ∀ c ∈ w.children, ∀ p, Json.sameValue c.1 (some (.num p)) = true → Announced p h) :
    ∀ c ∈ cs, ∀ p, Json.sameValue c.1 (some (.num p)) = true → Announced p (h ++ notes) := by
  cases hc with
  | quiet hl =>
    intro c hc p hp
    exact (announced_append_quiet fun n hn => WatchNote.about_of_isLog (hl n hn) p).2 (ha c hc p hp)
  | @register pre fs d body _ hpre hb =>
    have hquiet : ∀ p, Announced p (h ++ (pre ++ [.log d])) ↔ Announced p h := fun p =>
      announced_append_quiet fun n hn => WatchNote.about_of_isLog (by
        rcases List.mem_append.1 hn with hn | hn
        · exact hpre n hn
        · rw [List.mem_singleton.1 hn]
          rfl) p
    have hsplit : h ++ (pre ++ [.log d, .notify "childProcess" body]) =
        h ++ (pre ++ [.log d]) ++ [.notify "childProcess" body] := by simp
    -- the announcement names the key registered; any other child keeps its announcement
    have hnew : ∀ p, Json.sameValue (fs.get? "pid") (some (.num p)) = true →
        Announced p (h ++ (pre ++ [.log d, .notify "childProcess" body])) := by
      intro p hp
      rw [hsplit, announced_snoc, WatchNote.about_announce, hb, if_pos hp]
      exact .inl rfl
    have hold : ∀ p, Announced p h → Announced p (h ++ (pre ++ [.log d, .notify "childProcess" body])) := by
      intro p hp
      rw [hsplit, announced_snoc, WatchNote.about_announce]
      split
      · exact .inl rfl
      · exact .inr ⟨rfl, (hquiet p).2 hp⟩
    refine Table.forall_set (P := fun (k : Option Json) (_ : Json) => ∀ p, Json.sameValue k (some (.num p)) = true →
      Announced p (h ++ (pre ++ [.log d, .notify "childProcess" body]))) (t := w.table)
      (fun c hc p hp => hold p (ha c hc p hp)) hnew ?_
    intro k' hk' p hp
    exact hnew p (by rwa [← Json.sameValue_left hk'])
  | @retire q body _ hb =>
    intro c hc p hp
    have hcq : Json.sameValue c.1 (some (.num q)) = false := by
      simpa [KeyEq.same] using (List.mem_filter.1 hc).2
    have hc' : c ∈ w.children := List.mem_of_mem_filter hc
    refine announced_snoc.2 (.inr ⟨?_, ha c hc' p hp⟩)
    rw [WatchNote.about_end, hb]
    -- the end reported is of another child: `c` would be the same as it
    cases hqp : Json.sameValue (some (.num q)) (some (.num p))
    · rfl
    · have hsame := Json.sameValue_trans hp (by rwa [Json.sameValue_symm] at hqp)
      rw [hcq] at hsame
      cases hsame
  | clear => exact fun c hc => absurd hc (List.not_mem_nil)

/-- Only the end of a registered, and so announced, child is reported. -/
theorem ends (hc : RegistryChange w cs notes) {h : List WatchNote}
    (ha : ∀ c ∈ w.children, ∀ p, Json.sameValue c.1 (some (.num p)) = true → Announced p h)
    (he : EndsAnnounced h) : EndsAnnounced (h ++ notes) := by
  cases hc with
  | quiet hl =>
    refine he.append_quiet fun n hn body hnb => ?_
    have := hl n hn
    rw [hnb] at this
    cases this
  | @register pre fs d body _ hpre _ =>
    refine he.append_quiet fun n hn b hnb => ?_
    rcases List.mem_append.1 hn with hn | hn
    · have := hpre n hn
      rw [hnb] at this
      cases this
    · simp only [List.mem_cons, List.not_mem_nil, or_false] at hn
      rcases hn with rfl | rfl
      · cases hnb
      · simp at hnb
  | @retire q body hex hb =>
    obtain ⟨c, hc, hcq⟩ := hex
    exact he.append_end hb (ha c hc q hcq)
  | clear => rwa [List.append_nil]

end RegistryChange

/-- What a watcher at work is asked to do, one thing at a time: start a process through it, let
a started process exit, register or retire a child directly, switch it on or off, clear it, or
hand out a port. -/
inductive WatchEvent where
  | spawn (command : String) (args : List String) (opts : SpawnOptions)
  | exit (index : Nat)
  | detected (info : Json.Fields)
  | exited (pid : Double)
  | enable
  | disable
  | cleanup
  | allocate

/-- A watcher at work: the processes started through it, the watcher, everything it said and
every port it handed out, in order. -/
structure Watching where
  table : ProcessTable
  watcher : ChildWatcher
  notes : List WatchNote
  ports : List (Option Json)

namespace Watching

def start (config : WatchConfig) (firstPid : Double) (queued : List (Option Double)) : Watching :=
  ⟨ProcessTable.create firstPid queued, ChildWatcher.create config, [], []⟩

/-- One event. A process the watcher takes over is handed the next port. -/
def step (host : Host) (s : Watching) : WatchEvent → Except Fault Watching
  | .spawn command args opts =>
    let port := if s.watcher.takesOver (.string command :: args.map Json.string) opts then [s.watcher.nextPort] else []
    (s.table.spawnWatched s.watcher host (.string command) (args.map Json.string) opts).map fun r =>
      ⟨r.2.1, r.2.2.1, s.notes ++ r.2.2.2, s.ports ++ port⟩
  | .exit index =>
    let r := s.table.exit s.watcher index
    .ok ⟨r.1, r.2.1, s.notes ++ r.2.2, s.ports⟩
  | .detected info =>
    (s.watcher.childDetected (some (.obj info))).map fun r => { s with watcher := r.2.1, notes := s.notes ++ r.2.2 }
  | .exited pid =>
    let r := s.watcher.childExited (some (.num pid))
    .ok { s with watcher := r.1, notes := s.notes ++ r.2 }
  | .enable =>
    let r := s.watcher.enable
    .ok { s with watcher := r.1, notes := s.notes ++ r.2 }
  | .disable => .ok { s with watcher := s.watcher.disable }
  | .cleanup => .ok { s with watcher := s.watcher.cleanup }
  | .allocate =>
    let r := s.watcher.allocatePort
    .ok { s with watcher := r.2, ports := s.ports ++ [r.1] }

/-- The events one after another, stopping at the first that fails. -/
def run (host : Host) : Watching → List WatchEvent → Except Fault Watching
  | s, [] => .ok s
  | s, e :: es => (s.step host e).bind fun s' => run host s' es

end Watching

namespace Watching

/-- What one event does: the configuration stays, the registry changes as `RegistryChange`
says while the notes grow, and a port is handed out or not. -/
theorem step_effect {host : Host} {s s' : Watching} {e : WatchEvent} (h : s.step host e = .ok s') :
    s'.watcher.config = s.watcher.config ∧
      (∃ notes, s'.notes = s.notes ++ notes ∧ RegistryChange s.watcher s'.watcher.children notes) ∧
      (s'.ports = s.ports ∧ s'.watcher.nextPort = s.watcher.nextPort ∨
        s'.ports = s.ports ++ [s.watcher.nextPort] ∧ s'.watcher.nextPort = s.watcher.allocatePort.2.nextPort) := by
  cases e with
  | spawn command args opts =>
    simp only [step] at h
    cases hs : s.table.spawnWatched s.watcher host (.string command) (args.map Json.string) opts with
    | error f => rw [hs] at h; cases h
    | ok r =>
      obtain ⟨call, t', w', notes⟩ := r
      rw [hs] at h
      cases h
      obtain ⟨hc, hn, hr, -⟩ := ProcessTable.spawnWatched_effect hs
      refine ⟨hc, ⟨notes, rfl, hr⟩, ?_⟩
      -- a port is handed out exactly when the watcher takes the command line over
      cases ht : s.watcher.takesOver (.string command :: args.map Json.string) opts
      · rw [ht] at hn
        exact .inl ⟨by simp only [Bool.false_eq_true, if_false, List.append_nil], hn⟩
      · rw [ht] at hn
        exact .inr ⟨by simp only [if_true], hn⟩
  | exit index =>
    cases h
    obtain ⟨hc, hn, hr⟩ := ProcessTable.exit_effect s.table s.watcher index
    exact ⟨hc, ⟨_, rfl, hr⟩, .inl ⟨rfl, hn⟩⟩
  | detected info =>
    simp only [step] at h
    cases hd : s.watcher.childDetected (some (.obj info)) with
    | error f => rw [hd] at h; cases h
    | ok r =>
      rw [hd] at h
      cases h
      obtain ⟨hc, hn⟩ := ChildWatcher.childDetected_keeps hd
      exact ⟨hc, ⟨_, rfl, RegistryChange.ofDetected hd⟩, .inl ⟨rfl, hn⟩⟩
  | exited pid =>
    cases h
    obtain ⟨hc, hn⟩ := s.watcher.childExited_keeps (some (.num pid))
    exact ⟨hc, ⟨_, rfl, RegistryChange.ofExited s.watcher pid⟩, .inl ⟨rfl, hn⟩⟩
  | enable =>
    cases h
    unfold ChildWatcher.enable
    split
    · exact ⟨rfl, ⟨[], rfl, .quiet (by simp)⟩, .inl ⟨rfl, rfl⟩⟩
    · exact ⟨rfl, ⟨_, rfl, .quiet (by simp [WatchNote.isLog])⟩, .inl ⟨rfl, rfl⟩⟩
  | disable =>
    cases h
    exact ⟨rfl, ⟨[], (List.append_nil _).symm, .quiet (by simp)⟩, .inl ⟨rfl, rfl⟩⟩
  | cleanup =>
    cases h
    exact ⟨rfl, ⟨[], (List.append_nil _).symm, .clear⟩, .inl ⟨rfl, rfl⟩⟩
  | allocate =>
    cases h
    exact ⟨rfl, ⟨[], (List.append_nil _).symm, .quiet (by simp)⟩, .inr ⟨rfl, rfl⟩⟩

/-- What holds of a watcher at work under a configuration, after any events: the registry
stays within an integral limit, keeps each child under a key no other key is the same as and
the same as its record's process id, and every child in it is announced; every reported end
was of an announced child; and the ports handed out walk a range of whole numbers within
`±2^53` in turn. -/
structure Sound (config : WatchConfig) (s : Watching) : Prop where
  configured : s.watcher.config = config
  bounded : ∀ m M, config.maxChildren = .num m → m.toInt? = some M → (s.watcher.children.length : Int) ≤ max 0 M
  apart : s.watcher.table.KeysApart
  records : ∀ c ∈ s.watcher.children, ∀ x, Json.sameValue (c.2.member? "pid") x = Json.sameValue c.1 x
  announced : ∀ c ∈ s.watcher.children, ∀ p, Json.sameValue c.1 (some (.num p)) = true → Announced p s.notes
  ends : EndsAnnounced s.notes
  ports : ∀ lo hi, config.portRange = .arr [.num (Double.ofInt lo), .num (Double.ofInt hi)] → lo ≤ hi →
    -2 ^ 53 ≤ lo → hi ≤ 2 ^ 53 →
    s.watcher.nextPort = cyclePort lo hi s.ports.length ∧ s.ports = (List.range s.ports.length).map (cyclePort lo hi)

theorem Sound.start (config : WatchConfig) (firstPid : Double) (queued : List (Option Double)) :
    (Watching.start config firstPid queued).Sound config where
  configured := rfl
  bounded _ _ _ _ := le_max_left _ _
  apart := List.Pairwise.nil
  records _ hc := absurd hc List.not_mem_nil
  announced _ hc := absurd hc List.not_mem_nil
  ends := endsAnnounced_nil
  ports lo hi hr _ _ _ := by
    refine ⟨?_, rfl⟩
    have hlo : lo + ((0 : Nat) : Int) % (hi - lo + 1) = lo := by simp
    show config.portRange.member? "0" = some (.num (Double.ofInt (lo + ((0 : Nat) : Int) % (hi - lo + 1))))
    rw [hr, hlo]
    rfl

/-- One event keeps a watcher at work sound. -/
theorem Sound.step {config : WatchConfig} {s s' : Watching} (hs : s.Sound config) {host : Host} {e : WatchEvent}
    (h : s.step host e = .ok s') : s'.Sound config := by
  obtain ⟨hc, ⟨notes, hn, hr⟩, hp⟩ := step_effect h
  have hcfg : s.watcher.config = config := hs.configured
  refine ⟨hc.trans hcfg, fun m M hm hM => ?_, hr.apart hs.apart, hr.records hs.records, ?_, ?_, ?_⟩
  · exact hr.bounded (hcfg ▸ hm) hM (hs.bounded m M hm hM)
  · rw [hn]
    exact hr.announced hs.announced
  · rw [hn]
    exact hr.ends hs.announced hs.ends
  · intro lo hi hrange hle hlo hhi
    obtain ⟨hnext, hlist⟩ := hs.ports lo hi hrange hle hlo hhi
    rcases hp with ⟨hps, hnp⟩ | ⟨hps, hnp⟩
    · rw [hps, hnp]
      exact ⟨hnext, hlist⟩
    · -- the port handed out is the next of the cycle
      have hcyc := ChildWatcher.allocatePort_cycle (hcfg ▸ hrange) hle hlo hhi hnext
      rw [hps, hnp, hcyc, List.length_append, List.length_singleton, List.range_succ, List.map_append,
        ← hlist, hnext]
      exact ⟨rfl, rfl⟩

/-- Every event succeeds on a watcher at work: a command line of texts is always read, and a
child's details always form an object. -/
theorem step_ok (host : Host) (s : Watching) (e : WatchEvent) : ∃ s', s.step host e = .ok s' := by
  cases e with
  | spawn command args opts =>
    obtain ⟨c, hc⟩ := s.watcher.candidate?_strings command args opts
    obtain ⟨r, ht⟩ := ChildWatcher.takeover?_of_candidate? (host.childId s.table.idsIssued) hc
    obtain ⟨x, hx⟩ := ProcessTable.spawnWatched_of_takeover? ht
    simp only [step]
    rw [hx]
    exact ⟨_, rfl⟩
  | detected info =>
    simp only [step]
    cases hf : s.watcher.full
    · obtain ⟨d, body, hd, -⟩ := ChildWatcher.childDetected_room hf info
      rw [hd]
      exact ⟨_, rfl⟩
    · obtain ⟨notes, hd, -⟩ := ChildWatcher.childDetected_full hf info
      rw [hd]
      exact ⟨_, rfl⟩
  | exit | exited | enable | disable | cleanup | allocate => exact ⟨_, rfl⟩

/-- A run keeps a watcher at work sound, and no event of it fails. -/
theorem Sound.run {config : WatchConfig} (host : Host) :
    ∀ {s : Watching}, s.Sound config → ∀ es, ∃ s', Watching.run host s es = .ok s' ∧ s'.Sound config
  | s, hs, [] => ⟨s, rfl, hs⟩
  | s, hs, e :: es => by
    obtain ⟨s₁, h₁⟩ := step_ok host s e
    obtain ⟨s', h', hs'⟩ := Sound.run host (hs.step h₁) es
    exact ⟨s', by rw [Watching.run, h₁]; exact h', hs'⟩

end Watching

namespace Watching

/-- The process at `i` was started, and no one waits for its exit. -/
def Unwatched (s : Watching) (i : Nat) : Prop := (s.table.processes[i]?).map (·.exitWatched) = some false

theorem Unwatched.exit_quiet {s : Watching} {i : Nat} (h : s.Unwatched i) (host : Host) :
    s.step host (.exit i) = .ok s := by
  obtain ⟨p, hp, hw⟩ := Option.map_eq_some_iff.1 h
  show Except.ok (⟨(s.table.exit s.watcher i).1, (s.table.exit s.watcher i).2.1,
    s.notes ++ (s.table.exit s.watcher i).2.2, s.ports⟩ : Watching) = _
  rw [ProcessTable.exit_unwatched hp hw, List.append_nil]

/-- No event makes anyone wait for a process no one waited for. -/
theorem Unwatched.step {s s' : Watching} {i : Nat} (h : s.Unwatched i) {host : Host} {e : WatchEvent}
    (hs : s.step host e = .ok s') : s'.Unwatched i := by
  have hi : i < s.table.processes.length := by
    obtain ⟨p, hp, -⟩ := Option.map_eq_some_iff.1 h
    exact (List.getElem?_eq_some_iff.1 hp).1
  cases e with
  | spawn command args opts =>
    simp only [Watching.step] at hs
    cases hsw : s.table.spawnWatched s.watcher host (.string command) (args.map Json.string) opts with
    | error f => rw [hsw] at hs; cases hs
    | ok r =>
      obtain ⟨call, t', w', notes⟩ := r
      rw [hsw] at hs
      cases hs
      obtain ⟨-, -, -, accepted, hp, -⟩ := ProcessTable.spawnWatched_effect hsw
      show (t'.processes[i]?).map (·.exitWatched) = some false
      rw [hp, List.getElem?_append_left hi]
      exact h
  | exit j =>
    cases hs
    show (((s.table.exit s.watcher j).1.processes)[i]?).map (·.exitWatched) = some false
    rcases ProcessTable.exit_processes s.table s.watcher j with hp | ⟨p, -, hp⟩
    · rw [hp]
      exact h
    · rw [hp]
      by_cases hji : j = i
      · subst hji
        rw [List.getElem?_set_self hi]
        rfl
      · rw [List.getElem?_set_ne hji]
        exact h
  | detected info =>
    simp only [Watching.step] at hs
    cases hd : s.watcher.childDetected (some (.obj info)) with
    | error f => rw [hd] at hs; cases hs
    | ok r => rw [hd] at hs; cases hs; exact h
  | exited | enable | disable | cleanup | allocate => cases hs; exact h

theorem Unwatched.run {i : Nat} (host : Host) :
    ∀ {s s' : Watching} {es : List WatchEvent}, Watching.run host s es = .ok s' → s.Unwatched i → s'.Unwatched i
  | s, s', [], hr, h => by cases hr; exact h
  | s, s', e :: es, hr, h => by
    rw [Watching.run] at hr
    cases hs : s.step host e with
    | error f => rw [hs] at hr; cases hr
    | ok s₁ =>
      rw [hs] at hr
      exact Unwatched.run host hr (h.step hs)

/-- How a full registry turns a child away: the child's details reach only the log; a process
started through the watcher leaves the registry as it was, is heard of only by the log, and is
never waited for, so that its exit, after any further events, changes nothing. -/
def TurnsAwayQuietly (host : Host) (s : Watching) : Prop :=
  (∀ info, ∃ notes, s.step host (.detected info) = .ok { s with notes := s.notes ++ notes } ∧
    ∀ n ∈ notes, n.isLog = true) ∧
  ∀ command args opts, ∃ s', s.step host (.spawn command args opts) = .ok s' ∧
    s'.watcher.children = s.watcher.children ∧ (∃ notes, s'.notes = s.notes ++ notes ∧ ∀ n ∈ notes, n.isLog = true) ∧
    ∀ es s'', Watching.run host s' es = .ok s'' → s''.step host (.exit s.table.processes.length) = .ok s''

theorem turnsAwayQuietly {s : Watching} (hf : s.watcher.full = true) (host : Host) : s.TurnsAwayQuietly host := by
  refine ⟨fun info => ?_, fun command args opts => ?_⟩
  · obtain ⟨notes, hd, hl⟩ := ChildWatcher.childDetected_full hf info
    refine ⟨notes, ?_, hl⟩
    simp only [Watching.step]
    rw [hd]
    rfl
  · obtain ⟨s', hs⟩ := step_ok host s (.spawn command args opts)
    refine ⟨s', hs, ?_⟩
    simp only [Watching.step] at hs
    cases hsw : s.table.spawnWatched s.watcher host (.string command) (args.map Json.string) opts with
    | error f => rw [hsw] at hs; cases hs
    | ok r =>
      obtain ⟨call, t', w', notes⟩ := r
      rw [hsw] at hs
      cases hs
      obtain ⟨-, -, -, accepted, hp, hfull⟩ := ProcessTable.spawnWatched_effect hsw
      obtain ⟨hacc, hch, hl⟩ := hfull hf
      -- the process just started is the last, and no one waits for it
      have hnew : (t'.processes[s.table.processes.length]?).map (·.exitWatched) = some false := by
        rw [hp, List.getElem?_append_right (Nat.le_refl _), Nat.sub_self]
        simp [hacc]
      exact ⟨hch, ⟨notes, rfl, hl⟩, fun es s'' hr => (Unwatched.run host hr hnew).exit_quiet host⟩

end Watching

namespace Watching

/-- No two children listed carry process ids that are the same key. -/
theorem Sound.pids_apart {config : WatchConfig} {s : Watching} (hs : s.Sound config) :
    (s.watcher.list.map (·.member? "pid")).Pairwise (fun a b => Json.sameValue a b = false) := by
  have hkeys : s.watcher.children.Pairwise (fun c c' => Json.sameValue c.1 c'.1 = false) :=
    List.pairwise_map.1 hs.apart
  rw [ChildWatcher.list, List.map_map, List.pairwise_map]
  refine hkeys.imp_of_mem fun {c c'} hc hc' hcc' => ?_
  -- a record's process id is as good as its key, on either side
  dsimp only [Function.comp]
  rw [hs.records c hc, Json.sameValue_symm, hs.records c' hc', Json.sameValue_symm]
  exact hcc'

end Watching

/-- Every report of a child's end, for a process id `p`, comes after an announcement of a child
with process id `p`, and no other end of `p` is reported between the two. -/
def EndsFollowAnnouncements (notes : List WatchNote) : Prop :=
  ∀ (i : Nat) (body : Json) (p : Double), notes[i]? = some (.notify "childProcessExited" body) →
    body.member? "pid" = some (.num p) →
    ∃ j < i, (∃ b : Json, notes[j]? = some (.notify "childProcess" b) ∧
        Json.sameValue (b.member? "pid") (some (.num p)) = true) ∧
      ∀ (l : Nat) (b : Json), j < l → l < i → notes[l]? = some (.notify "childProcessExited" b) →
        Json.sameValue (b.member? "pid") (some (.num p)) = false

theorem EndsAnnounced.follow {h : List WatchNote} (he : EndsAnnounced h) : EndsFollowAnnouncements h := by
  intro i body p hi hp
  have hlen : i < h.length := (List.getElem?_eq_some_iff.1 hi).1
  have htake : (h.take i).length = i := List.length_take_of_le (Nat.le_of_lt hlen)
  obtain ⟨j, hj, b, hjb, hs, hnone⟩ := (he i body p hi hp).exists
  rw [htake] at hj
  refine ⟨j, hj, ⟨b, by rwa [List.getElem?_take_of_lt hj] at hjb, hs⟩, fun l b' hjl hli hl => ?_⟩
  exact hnone l hjl (by rw [htake]; exact hli) b' (by rw [List.getElem?_take_of_lt hli]; exact hl)

/-- Along any events, from a fresh watcher: the registry stays within an integral limit, the
children listed carry process ids no two of which are the same key, every reported end follows
an announcement of that process id with no other end of it between, a full registry turns a
child away quietly, and the ports of a range of whole numbers within `±2^53` are handed out in
turn. -/
theorem child_registry_and_port_cycle (host : Host) (config : WatchConfig) (firstPid : Double)
    (queued : List (Option Double)) (events : List WatchEvent) :
    ∃ s, Watching.run host (Watching.start config firstPid queued) events = .ok s ∧
      -- 1. never more children than an integral limit allows
      (∀ m M, config.maxChildren = .num m → m.toInt? = some M → (s.watcher.list.length : Int) ≤ max 0 M) ∧
      -- 2. process ids pairwise apart
      (s.watcher.list.map (·.member? "pid")).Pairwise (fun a b => Json.sameValue a b = false) ∧
      -- 3. an end is reported only of an announced child, once
      EndsFollowAnnouncements s.notes ∧
      -- 4. a child turned away for capacity is never announced, nor its end
      (s.watcher.full = true → s.TurnsAwayQuietly host) ∧
      -- 5. the `k`-th port handed out is `lo + k % (hi - lo + 1)`
      (∀ lo hi, config.portRange = .arr [.num (Double.ofInt lo), .num (Double.ofInt hi)] → lo ≤ hi →
        -2 ^ 53 ≤ lo → hi ≤ 2 ^ 53 → s.ports = (List.range s.ports.length).map (cyclePort lo hi)) := by
  obtain ⟨s, hrun, hs⟩ := (Watching.Sound.start config firstPid queued).run host events
  refine ⟨s, hrun, fun m M hm hM => ?_, hs.pids_apart, hs.ends.follow, fun hf => Watching.turnsAwayQuietly hf host,
    fun lo hi hr hle hlo hhi => (hs.ports lo hi hr hle hlo hhi).2⟩
  rw [ChildWatcher.list, List.length_map]
  exact hs.bounded m M hm hM

theorem child_registry_standard_run :
    ∃ s, Watching.run ⟨4000, fun _ => "child", Path.hostTree, Validator.standard⟩ (Watching.start WatchConfig.standard 4000 []) [.allocate, .allocate] =
        .ok s ∧ (s.watcher.list.length : Int) ≤ max 0 10 ∧
      s.ports = (List.range s.ports.length).map (cyclePort 5700 5799) := by
  obtain ⟨s, hrun, hbound, -, -, -, hports⟩ :=
    child_registry_and_port_cycle ⟨4000, fun _ => "child", Path.hostTree, Validator.standard⟩ WatchConfig.standard 4000 [] [.allocate, .allocate]
  exact ⟨s, hrun, hbound 10 10 rfl (by decide), hports 5700 5799 rfl (by decide) (by decide) (by decide)⟩

/-- From `2^53` on, the next port is the same word: adding one rounds back, and a range
`[2^53, 2^53 + 2]` hands out `2^53` again and again instead of `2^53 + 2` third. -/
theorem ports_stall_past_two_pow_53 :
    (Watching.run ⟨4000, fun _ => "child", Path.hostTree, Validator.standard⟩
        (Watching.start { WatchConfig.standard with
          portRange := .arr [.num (Double.ofNat (2 ^ 53)), .num (Double.ofNat (2 ^ 53 + 2))] } 4000 [])
        [.allocate, .allocate, .allocate]).map (·.ports) =
      .ok [some (.num (Double.ofNat (2 ^ 53))), some (.num (Double.ofNat (2 ^ 53))), some (.num (Double.ofNat (2 ^ 53)))] ∧
      cyclePort (2 ^ 53) (2 ^ 53 + 2) 2 ≠ some (.num (Double.ofNat (2 ^ 53))) := by
  have hstall : Double.ofNat (2 ^ 53) + 1 = Double.ofNat (2 ^ 53) := by decide
  have hbelow : Json.atLeast (some (.num (Double.ofNat (2 ^ 53)))) (some (.num (Double.ofNat (2 ^ 53 + 2)))) = false := by
    decide
  have hm0 : (Json.arr [.num (Double.ofNat (2 ^ 53)), .num (Double.ofNat (2 ^ 53 + 2))]).member? "0" =
      some (.num (Double.ofNat (2 ^ 53))) := rfl
  have hm1 : (Json.arr [.num (Double.ofNat (2 ^ 53)), .num (Double.ofNat (2 ^ 53 + 2))]).member? "1" =
      some (.num (Double.ofNat (2 ^ 53 + 2))) := rfl
  refine ⟨?_, fun h => ?_⟩
  · simp only [Watching.run, Watching.step, Watching.start, ChildWatcher.create, ChildWatcher.allocatePort,
      Except.bind, hm0, hm1, hbelow, Bool.false_eq_true, if_false, Json.plus_one, hstall]
    rfl
  · have hw : Double.ofInt (2 ^ 53 + (2 : Nat) % (2 ^ 53 + 2 - 2 ^ 53 + 1)) = Double.ofNat (2 ^ 53) := by
      simp only [cyclePort, Option.some.injEq, Json.num.injEq] at h
      exact h
    exact absurd hw (by decide)

end DapBridge
