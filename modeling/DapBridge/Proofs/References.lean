import DapBridge.Session.Registry
import DapBridge.Proofs.Rounding
import Mathlib.Data.List.Find

/-!
# Variable references: each handed out once, each standing for its backing while the stop lasts

A session's registry hands out variable references from a counter that starts at a positive
whole number and is never reset. A reference stands for an object, a scope of a frame or a
list of variables, until the registry drops what belongs to the stop (`resetStopState`,
`clearAll`). A frame scope asked for twice in one stop gets the same reference: it is kept
under the text `<frame id>:<scope>`.

The registry is compared with a `ReferenceLedger`, which counts references as whole numbers:
the next one to hand out, those handed out since the stop began with what each stands for,
and the reference each frame scope got since then. The ledger runs the same calls
(`ReferenceLedger.run`) as the registry (`Registry.runCalls`); along every run the registry
keeps what the ledger counts (`Tracks`, kept by each call in `tracks_call`), as long as the
references handed out stay at most `2^53`. From there:

* every call answers what the ledger answers, as a word, and the references handed out are
  `s, s + 1, …` in turn: each above all before it, across resets too;
* a reference resolves to what it stands for in the ledger, and `0` to nothing;
* a frame scope asked for twice with no reset between gets the same reference, which stands
  for that scope of a frame of the same text;
* caching a probe's variables under a reference sets a frame's locals exactly when the
  reference stands for that frame's locals scope.

The counter is a binary64 word, and counting by one is exact only up to `2^53`; one more
rounds back to `2^53` (`Double.ofNat_add_one`), so past it a reference is handed out again and
its first backing is replaced (`reference_repeats_past_two_pow_53`).
-/

namespace DapBridge

namespace Table

variable {κ α : Type} [KeyEq κ]

theorem contains_eq_isSome (t : Table κ α) (k : κ) : t.contains k = (t.get? k).isSome := by
  rw [contains, get?, Option.isSome_map, Bool.eq_iff_iff, List.any_eq_true, List.find?_isSome]

/-- Looking a key up in a table whose entries are the items of a list, each made an entry. -/
theorem get?_of_entries {β : Type} {t : Table κ α} {l : List β} {g : β → κ × α} (h : t.entries = l.map g)
    {k : κ} {p : β → Bool} (hp : ∀ x ∈ l, KeyEq.same (g x).1 k = p x) :
    t.get? k = (l.find? p).map fun x => (g x).2 := by
  rw [get?, h, List.find?_map, Option.map_map,
    @List.find?_congr _ ((fun e : κ × α => KeyEq.same e.1 k) ∘ g) p l hp]
  rfl

/-- Setting a key that is not there adds it at the end. -/
theorem set_entries_of_get?_eq_none {t : Table κ α} {k : κ} (h : t.get? k = none) (v : α) :
    (t.set k v).entries = t.entries ++ [(k, v)] := by
  rw [set, contains_eq_isSome, h]
  rfl

end Table

/-- The text a frame scope's reference is kept under: the frame's text, a colon, the scope. -/
def scopeKey (frame : String) (s : ScopeKind) : String := frame ++ ":" ++ s.name

/-- The scope's name comes after the last colon, so the key gives back the frame's text and the
scope, whatever the frame's text holds. -/
theorem scopeKey_inj {t t' : String} {s s' : ScopeKind} (h : scopeKey t s = scopeKey t' s') :
    t = t' ∧ s = s' := by
  have h' := congrArg (fun x => x.toList.reverse) h
  simp only [scopeKey, String.toList_append, List.reverse_append] at h'
  cases s <;> cases s' <;> simp [ScopeKind.name] at h' ⊢ <;> exact String.toList_inj.1 h'

theorem scopeKey_beq (t t' : String) (s s' : ScopeKind) :
    (scopeKey t s == scopeKey t' s') = ((t, s) == (t', s')) := by
  apply Bool.eq_iff_iff.2
  simp only [beq_iff_eq, Prod.mk.injEq]
  constructor
  · exact scopeKey_inj
  · rintro ⟨rfl, rfl⟩
    rfl

/-- The frame whose locals scope a backing is, if it is one. -/
def Backing.localsFrame? : Backing → Option Double
  | .scope f .locals => some f
  | _ => none

namespace Registry

/-- A call a session makes on its registry. Threads, frames and variables are passed as they
come; a reference is asked for with a backing, or with a frame id and a scope. -/
inductive Call where
  | addThread (id name : Option Json)
  | removeThread (id : Option Json)
  | markThreadStopped (id stopped : Option Json)
  | setStackFrames (threadId frames : Option Json)
  | setFrameLocals (frameId vars : Option Json)
  | allocate (backing : Backing)
  | scopeReference (frameId : Double) (scope : ScopeKind)
  | cacheProbeVariables (reference : Double) (vars : Option Json)
  | resetStopState
  | clearAll

/-- Whether a call ends the stop, dropping the references. -/
def Call.resets : Call → Bool
  | .resetStopState | .clearAll => true
  | _ => false

/-- Make one call: the registry after it, and the reference it answers. -/
def call (r : Registry) : Call → Registry × Option Double
  | .addThread id name => ((r.addThread id name).2, none)
  | .removeThread id => ((r.removeThread id).2, none)
  | .markThreadStopped id stopped => (r.markThreadStopped id stopped, none)
  | .setStackFrames threadId frames => ((r.setStackFrames threadId frames).2, none)
  | .setFrameLocals frameId vs => (r.setFrameLocals frameId vs, none)
  | .allocate b => ((r.allocate (some b.toJson)).2, some (r.allocate (some b.toJson)).1)
  | .scopeReference f s =>
    let (id, r) := r.scopeReference (some (.num f)) (some (.string s.name))
    (r, some id)
  | .cacheProbeVariables reference vs => (r.cacheProbeVariables (some (.num reference)) vs, none)
  | .resetStopState => (r.resetStopState, none)
  | .clearAll => (r.clearAll, none)

/-- Make calls in turn: the registry after them, and their answers. -/
def runCalls (r : Registry) : List Call → Registry × List (Option Double)
  | [] => (r, [])
  | c :: cs => (((r.call c).1.runCalls cs).1, (r.call c).2 :: ((r.call c).1.runCalls cs).2)

/-! ## What calls on threads and frames leave alone -/

/-- What hands out and keeps references: the backings, the scope references, the counter. -/
def referencePart (r : Registry) : Table (Option Json) (Option Json) × Table String Double × Double :=
  (r.references, r.scopeReferences, r.nextReference)

/-- A step over frames keeps the references: in the registry it returns when it goes through,
and in the one it leaves. -/
def KeepsReferences (r : Registry) (x : Except Fault Registry × Registry) : Prop :=
  (∀ r', x.1 = .ok r' → r'.referencePart = r.referencePart) ∧ x.2.referencePart = r.referencePart

theorem forgetFrames_keeps : ∀ (r : Registry) (fs : List Json), r.KeepsReferences (r.forgetFrames fs)
  | _, [] => ⟨fun _ h => (by cases h; rfl), rfl⟩
  | r, f :: fs => by
    unfold forgetFrames
    split
    · exact ⟨fun _ h => (by cases h), rfl⟩
    · exact forgetFrames_keeps _ fs

theorem recordFrames_keeps : ∀ (r : Registry) (fs : List Json), r.KeepsReferences (r.recordFrames fs)
  | _, [] => ⟨fun _ h => (by cases h; rfl), rfl⟩
  | r, f :: fs => by
    unfold recordFrames
    split
    · exact ⟨fun _ h => (by cases h), rfl⟩
    · exact recordFrames_keeps _ fs

theorem forgetThreadFrames_keeps (r : Registry) (what : String) (threadId : Option Json) :
    r.KeepsReferences (r.forgetThreadFrames what threadId) := by
  unfold forgetThreadFrames
  split
  · split
    · split
      · exact ⟨fun _ h => (by cases h), rfl⟩
      · exact forgetFrames_keeps r _
    · exact ⟨fun _ h => (by cases h; rfl), rfl⟩
  · exact ⟨fun _ h => (by cases h; rfl), rfl⟩

theorem addThread_referencePart (r : Registry) (id name : Option Json) :
    (r.addThread id name).2.referencePart = r.referencePart := by
  unfold addThread
  split <;> rfl

theorem markThreadStopped_referencePart (r : Registry) (id stopped : Option Json) :
    (r.markThreadStopped id stopped).referencePart = r.referencePart := by
  have h := addThread_referencePart r id none
  unfold markThreadStopped
  split
  next t r' heq =>
  show r'.referencePart = _
  split at heq
  · cases heq
    rfl
  · rw [heq] at h
    exact h

theorem removeThread_referencePart (r : Registry) (id : Option Json) :
    (r.removeThread id).2.referencePart = r.referencePart := by
  have h := forgetThreadFrames_keeps r "frames" id
  unfold removeThread
  split
  · next heq => rw [heq] at h; exact h.2
  · next r' _ heq =>
    rw [heq] at h
    have h' := h.1 r' rfl
    dsimp only
    split <;> exact h'

theorem setStackFrames_referencePart (r : Registry) (threadId frames : Option Json) :
    (r.setStackFrames threadId frames).2.referencePart = r.referencePart := by
  have h := forgetThreadFrames_keeps r "previous" threadId
  unfold setStackFrames
  split
  · next heq => rw [heq] at h; exact h.2
  · next r' _ heq =>
    rw [heq] at h
    have h' := h.1 r' rfl
    dsimp only
    have hr := recordFrames_keeps { r' with framesByThread := r'.framesByThread.set threadId frames }
    split
    · exact h'
    · next _ fs _ =>
      have hk := hr fs
      split
      · next heq' => rw [heq'] at hk; exact (hk.1 _ rfl).trans h'
      · next heq' => rw [heq'] at hk; exact hk.2.trans h'

theorem cacheProbeVariables_referencePart (r : Registry) (reference vs : Option Json) :
    (r.cacheProbeVariables reference vs).referencePart = r.referencePart := by
  unfold cacheProbeVariables
  dsimp only
  split
  · split <;> rfl
  · rfl

/-- Caching a probe's variables under a reference that stands for a backing: the frame locals
change only for a locals scope, at the frame it names. -/
theorem cacheProbeVariables_frameLocals {r : Registry} {reference : Option Json} {b : Backing}
    (h : r.references.get? reference = some (some b.toJson)) (vs : Option Json) :
    (r.cacheProbeVariables reference vs).frameLocals =
      match b.localsFrame? with
      | some f => r.frameLocals.set (some (.num f)) vs
      | none => r.frameLocals := by
  unfold cacheProbeVariables
  dsimp only
  rw [h]
  cases b with
  | object v => rfl
  | scope f sc => cases sc <;> rfl
  | list xs => rfl

theorem cacheProbeVariables_frameLocals_of_none {r : Registry} {reference : Option Json}
    (h : r.references.get? reference = none) (vs : Option Json) :
    (r.cacheProbeVariables reference vs).frameLocals = r.frameLocals := by
  unfold cacheProbeVariables
  dsimp only
  rw [h]

end Registry

/-! ## The ledger -/

/-- What a call answers, counted as a whole number: nothing, a reference handed out by this
call, or the reference a frame scope got earlier in the stop. -/
inductive ReferenceLedger.Answer where
  | none
  | fresh (id : Nat)
  | again (id : Nat)

namespace ReferenceLedger.Answer

/-- The reference answered, if any. -/
def ref? : Answer → Option Nat
  | .none => .none
  | .fresh id | .again id => some id

/-- The reference handed out by the call, if it handed one out. -/
def fresh? : Answer → Option Nat
  | .fresh id => some id
  | _ => .none

end ReferenceLedger.Answer

/-- References counted as whole numbers. `next` is the next one to hand out; `live` lists those
handed out since the stop began, oldest first, with what each stands for; `scopes` gives the
reference each frame scope got in this stop, the frame known by its text. -/
structure ReferenceLedger where
  next : Nat
  live : List (Nat × Backing)
  scopes : List ((String × ScopeKind) × Nat)

namespace ReferenceLedger

/-- A ledger whose first reference is `s`. -/
def start (s : Nat) : ReferenceLedger := ⟨s, [], []⟩

/-- The reference a frame scope got in this stop. -/
def scopeOf? (L : ReferenceLedger) (frame : String) (s : ScopeKind) : Option Nat :=
  (L.scopes.find? (·.1 == (frame, s))).map (·.2)

/-- Hand out the next reference for a backing. -/
def issue (L : ReferenceLedger) (b : Backing) : ReferenceLedger :=
  { L with next := L.next + 1, live := L.live ++ [(L.next, b)] }

/-- What a call does to the references: an allocation hands out the next one; a frame scope
gets the one it got in this stop, or the next one, kept for it; a reset forgets the stop. -/
def call (L : ReferenceLedger) : Registry.Call → ReferenceLedger × Answer
  | .allocate b => (L.issue b, .fresh L.next)
  | .scopeReference f s =>
    match L.scopeOf? f.render s with
    | some id => (L, .again id)
    | none => ({ L.issue (.scope f s) with scopes := L.scopes ++ [((f.render, s), L.next)] }, .fresh L.next)
  | .resetStopState | .clearAll => ({ L with live := [], scopes := [] }, .none)
  | _ => (L, .none)

/-- Make calls in turn: the ledger after them, and their answers. -/
def run (L : ReferenceLedger) : List Registry.Call → ReferenceLedger × List Answer
  | [] => (L, [])
  | c :: cs => (((L.call c).1.run cs).1, (L.call c).2 :: ((L.call c).1.run cs).2)

theorem run_append (L : ReferenceLedger) (xs ys : List Registry.Call) :
    L.run (xs ++ ys) = (((L.run xs).1.run ys).1, (L.run xs).2 ++ ((L.run xs).1.run ys).2) := by
  induction xs generalizing L with
  | nil => rfl
  | cons c cs ih => simp only [List.cons_append, run, ih]

theorem length_run (L : ReferenceLedger) (cs : List Registry.Call) : (L.run cs).2.length = cs.length := by
  induction cs generalizing L with
  | nil => rfl
  | cons c cs ih => simp only [run, List.length_cons, ih]

/-! ### Handing out references in turn -/

/-- A call hands out at most one reference, the next one. -/
theorem call_fresh (L : ReferenceLedger) (c : Registry.Call) :
    ∃ k ≤ 1, (L.call c).1.next = L.next + k ∧ (L.call c).2.fresh?.toList = List.range' L.next k := by
  cases c with
  | allocate b => exact ⟨1, le_rfl, rfl, rfl⟩
  | scopeReference f s =>
    dsimp only [call]
    split
    · exact ⟨0, Nat.zero_le 1, rfl, rfl⟩
    · exact ⟨1, le_rfl, rfl, rfl⟩
  | resetStopState | clearAll => exact ⟨0, Nat.zero_le 1, rfl, rfl⟩
  | _ => exact ⟨0, Nat.zero_le 1, rfl, rfl⟩

theorem filterMap_fresh?_cons (a : Answer) (as : List Answer) :
    (a :: as).filterMap Answer.fresh? = a.fresh?.toList ++ as.filterMap Answer.fresh? := by
  cases a <;> rfl

/-- The references a run hands out are those from the ledger's next one on, in turn. -/
theorem fresh_run (L : ReferenceLedger) (cs : List Registry.Call) :
    ∃ n, (L.run cs).1.next = L.next + n ∧ (L.run cs).2.filterMap Answer.fresh? = List.range' L.next n := by
  induction cs generalizing L with
  | nil => exact ⟨0, rfl, rfl⟩
  | cons c cs ih =>
    obtain ⟨k, -, hk, hfresh⟩ := call_fresh L c
    obtain ⟨n, hn, hrest⟩ := ih (L.call c).1
    refine ⟨k + n, by simp only [run, hn, hk, Nat.add_assoc], ?_⟩
    simp only [run, filterMap_fresh?_cons, hfresh, hrest, hk, List.range'_append_1]

theorem next_le_run (L : ReferenceLedger) (cs : List Registry.Call) : L.next ≤ (L.run cs).1.next := by
  obtain ⟨n, hn, -⟩ := fresh_run L cs
  omega

/-! ### What the ledger keeps -/

/-- What a ledger keeps along a run from `start s`: the references live are among those handed
out, in increasing order, and each frame scope's reference stands for that scope of a frame
of that text. -/
structure Sound (s : Nat) (L : ReferenceLedger) : Prop where
  start_le : s ≤ L.next
  ordered : (L.live.map Prod.fst).Pairwise (· < ·)
  bounded : ∀ p ∈ L.live, s ≤ p.1 ∧ p.1 < L.next
  scopes_live : ∀ q ∈ L.scopes, ∃ f : Double, f.render = q.1.1 ∧ (q.2, Backing.scope f q.1.2) ∈ L.live

theorem sound_start (s : Nat) : (start s).Sound s :=
  ⟨le_rfl, List.Pairwise.nil, by simp [start], by simp [start]⟩

theorem Sound.issue {s : Nat} {L : ReferenceLedger} (h : L.Sound s) (b : Backing) :
    (L.issue b).Sound s where
  start_le := Nat.le_succ_of_le h.start_le
  ordered := by
    simp only [ReferenceLedger.issue, List.map_append, List.map_cons, List.map_nil]
    refine List.pairwise_append.2 ⟨h.ordered, List.pairwise_singleton _ _, ?_⟩
    intro a ha b hb
    obtain ⟨p, hp, rfl⟩ := List.mem_map.1 ha
    rw [List.mem_singleton.1 hb]
    exact (h.bounded p hp).2
  bounded := by
    intro p hp
    rcases List.mem_append.1 hp with hp | hp
    · have := h.bounded p hp
      exact ⟨this.1, Nat.lt_succ_of_lt this.2⟩
    · rw [List.mem_singleton.1 hp]
      exact ⟨h.start_le, Nat.lt_succ_self _⟩
  scopes_live := by
    intro q hq
    obtain ⟨f, hf, hmem⟩ := h.scopes_live q hq
    exact ⟨f, hf, List.mem_append_left _ hmem⟩

theorem Sound.call {s : Nat} {L : ReferenceLedger} (h : L.Sound s) (c : Registry.Call) :
    (L.call c).1.Sound s := by
  cases c with
  | allocate b => exact h.issue b
  | scopeReference f sc =>
    dsimp only [ReferenceLedger.call]
    split
    · exact h
    · have hi := h.issue (.scope f sc)
      refine ⟨hi.start_le, hi.ordered, hi.bounded, ?_⟩
      intro q hq
      rcases List.mem_append.1 hq with hq | hq
      · exact hi.scopes_live q hq
      · rw [List.mem_singleton.1 hq]
        exact ⟨f, rfl, List.mem_append_right _ (List.mem_singleton_self _)⟩
  | resetStopState | clearAll =>
    exact ⟨h.start_le, List.Pairwise.nil, by simp [ReferenceLedger.call], by simp [ReferenceLedger.call]⟩
  | _ => exact h

theorem Sound.run {s : Nat} {L : ReferenceLedger} (h : L.Sound s) (cs : List Registry.Call) :
    (L.run cs).1.Sound s := by
  induction cs generalizing L with
  | nil => exact h
  | cons c cs ih => exact ih (h.call c)

/-- A reference live in a sound ledger is found by its number, and by nothing else. -/
theorem Sound.find?_live {s : Nat} {L : ReferenceLedger} (h : L.Sound s) {j : Nat} {b : Backing}
    (hj : (j, b) ∈ L.live) : L.live.find? (·.1 == j) = some (j, b) := by
  obtain ⟨as, bs, hl⟩ := List.append_of_mem hj
  have hord := h.ordered
  rw [hl] at hord ⊢
  simp only [List.map_append, List.map_cons, List.pairwise_append, List.pairwise_cons] at hord
  have hne : ∀ p ∈ as, (p.1 == j) = false := by
    intro p hp
    have := hord.2.2 p.1 (List.mem_map_of_mem hp) j List.mem_cons_self
    simpa using this.ne
  rw [List.find?_append, List.find?_eq_none.2 (fun p hp => by simp [hne p hp]), Option.none_or]
  simp

/-! ### Frame scopes between resets -/

theorem scopeOf?_mem {L : ReferenceLedger} {t : String} {sc : ScopeKind} {j : Nat}
    (h : L.scopeOf? t sc = some j) : ((t, sc), j) ∈ L.scopes := by
  obtain ⟨q, hq, rfl⟩ := Option.map_eq_some_iff.1 h
  have hmem := List.mem_of_find?_eq_some hq
  have hkey := List.find?_some hq
  rw [beq_iff_eq] at hkey
  rw [← hkey]
  exact hmem

/-- A call that does not reset keeps the references live and the frame scopes' references. -/
theorem call_keeps {L : ReferenceLedger} {c : Registry.Call} (hc : c.resets = false) :
    L.live <+: (L.call c).1.live ∧ L.scopes <+: (L.call c).1.scopes := by
  cases c with
  | allocate b => exact ⟨List.prefix_append _ _, List.prefix_refl _⟩
  | scopeReference f sc =>
    dsimp only [ReferenceLedger.call]
    split
    · exact ⟨List.prefix_refl _, List.prefix_refl _⟩
    · exact ⟨List.prefix_append _ _, List.prefix_append _ _⟩
  | resetStopState | clearAll => simp [Registry.Call.resets] at hc
  | _ => exact ⟨List.prefix_refl _, List.prefix_refl _⟩

theorem run_keeps {L : ReferenceLedger} {cs : List Registry.Call} (hcs : ∀ c ∈ cs, c.resets = false) :
    L.live <+: (L.run cs).1.live ∧ L.scopes <+: (L.run cs).1.scopes := by
  induction cs generalizing L with
  | nil => exact ⟨List.prefix_refl _, List.prefix_refl _⟩
  | cons c cs ih =>
    have h1 := call_keeps (L := L) (hcs c List.mem_cons_self)
    have h2 := ih (L := (L.call c).1) fun c' hc' => hcs c' (List.mem_cons_of_mem _ hc')
    exact ⟨h1.1.trans h2.1, h1.2.trans h2.2⟩

/-- A frame scope's reference is found first, so appending to the list keeps it. -/
theorem scopeOf?_of_prefix {L L' : ReferenceLedger} (h : L.scopes <+: L'.scopes) {t : String}
    {sc : ScopeKind} {j : Nat} (hj : L.scopeOf? t sc = some j) : L'.scopeOf? t sc = some j := by
  obtain ⟨rest, hrest⟩ := h
  unfold scopeOf? at hj ⊢
  obtain ⟨q, hq, rfl⟩ := Option.map_eq_some_iff.1 hj
  rw [← hrest, List.find?_append, hq]
  rfl

/-- Asking for a frame scope gives a reference that is then kept for it. -/
theorem scopeReference_kept (L : ReferenceLedger) (f : Double) (sc : ScopeKind) :
    ∃ j, (L.call (.scopeReference f sc)).2.ref? = some j ∧
      (L.call (.scopeReference f sc)).1.scopeOf? f.render sc = some j := by
  dsimp only [ReferenceLedger.call]
  split
  · next j hj => exact ⟨j, rfl, hj⟩
  · next hnone =>
    refine ⟨L.next, rfl, ?_⟩
    simp only [scopeOf?, List.find?_append]
    rw [show List.find? (·.1 == (f.render, sc)) L.scopes = none from by
      simpa [scopeOf?] using hnone]
    simp

/-- Asking again for a frame scope that has a reference changes nothing. -/
theorem call_scopeReference_of_scopeOf? {L : ReferenceLedger} {f : Double} {sc : ScopeKind} {j : Nat}
    (h : L.scopeOf? f.render sc = some j) : L.call (.scopeReference f sc) = (L, .again j) := by
  dsimp only [ReferenceLedger.call]
  rw [h]

/-- A frame scope asked for, then calls that do not reset, then the same scope again: the
second call answers the reference the first one gave, and the ledger keeps it for the scope. -/
theorem scope_again (L : ReferenceLedger) (f : Double) (sc : ScopeKind) {mid : List Registry.Call}
    (hmid : ∀ c ∈ mid, c.resets = false) :
    ∃ j, (L.call (.scopeReference f sc)).2.ref? = some j ∧
      (L.run (.scopeReference f sc :: mid ++ [.scopeReference f sc])).2.getLast? = some (.again j) ∧
      (L.run (.scopeReference f sc :: mid ++ [.scopeReference f sc])).1.scopeOf? f.render sc = some j := by
  obtain ⟨j, hj, hkept⟩ := scopeReference_kept L f sc
  -- the calls between keep the scope's reference, so the second call finds it
  have hmidkept := scopeOf?_of_prefix (run_keeps (L := (L.call (.scopeReference f sc)).1) hmid).2 hkept
  have hlast := call_scopeReference_of_scopeOf? hmidkept
  refine ⟨j, hj, ?_, ?_⟩
  · simp [run, run_append, hlast, List.getLast?_cons]
  · simpa [run, run_append, hlast] using hmidkept

end ReferenceLedger

/-! ## The registry keeps the ledger -/

open ReferenceLedger in
/-- A registry keeps what a ledger counts: its counter is the ledger's next reference, and its
references and scope references are the ledger's, in the same order, as words. -/
structure Tracks (r : Registry) (L : ReferenceLedger) : Prop where
  next : r.nextReference = Double.ofNat L.next
  references : r.references.entries = L.live.map fun p => (some (.num (Double.ofNat p.1)), some p.2.toJson)
  scopes : r.scopeReferences.entries = L.scopes.map fun q => (scopeKey q.1.1 q.1.2, Double.ofNat q.2)

namespace Tracks

variable {s : Nat} {r : Registry} {L : ReferenceLedger}

theorem of_referencePart {r' : Registry} (ht : Tracks r L) (h : r'.referencePart = r.referencePart) :
    Tracks r' L := by
  simp only [Registry.referencePart, Prod.mk.injEq] at h
  exact ⟨h.2.2.trans ht.next, h.1 ▸ ht.references, h.2.1 ▸ ht.scopes⟩

theorem create (s : Nat) : Tracks (Registry.create (Double.ofNat s)) (ReferenceLedger.start s) :=
  ⟨rfl, rfl, rfl⟩

/-- A key of a reference is one key with a word exactly when they are numerically equal: the
references counted stay below `2^53`, so none is NaN. -/
theorem references_get? (ht : Tracks r L) (hL : L.Sound s) (hfit : L.next ≤ 2 ^ 53 + 1) (x : Double) :
    r.references.get? (some (.num x)) =
      (L.live.find? fun p => Double.eq (Double.ofNat p.1) x).map fun p => some p.2.toJson := by
  refine Table.get?_of_entries ht.references fun p hp => ?_
  have hnan := Double.isNaN_ofNat (n := p.1) (by have := (hL.bounded p hp).2; omega)
  simp [KeyEq.same, Json.sameValue, Json.sameKey, hnan]

/-- No reference counted is `0`, and `resolve?` answers nothing for it; for any other word it
looks the reference up. -/
theorem resolve? (ht : Tracks r L) (hL : L.Sound s) (hs : 0 < s) (hfit : L.next ≤ 2 ^ 53 + 1) (x : Double) :
    r.resolve? (some (.num x)) =
      (L.live.find? fun p => Double.eq (Double.ofNat p.1) x).map fun p => some p.2.toJson := by
  unfold Registry.resolve?
  split
  · next h0 =>
    -- `x` is zero, and no live reference is
    have hx0 : Double.eq x 0 = true := h0
    obtain ⟨b, n, f, hx, hv0⟩ := (Double.eq_finite_right Double.decode_zero).1 hx0
    rw [List.find?_eq_none.2, Option.map_none]
    intro p hp
    have hle : p.1 ≤ 2 ^ 53 := by have := (hL.bounded p hp).2; omega
    obtain ⟨m, e, hd, hv⟩ := Double.decode_ofNat hle
    intro hpx
    obtain ⟨b', n', f', hx', hv'⟩ := (Double.eq_finite_left hd).1 hpx
    rw [hx] at hx'
    cases hx'
    have hval : (p.1 : ℚ) = 0 := by
      have := hv'.trans hv0
      simp only [Double.value, Bool.false_eq_true, if_false, Nat.cast_zero, zero_mul] at this
      rw [← hv, this]
    have := (hL.bounded p hp).1
    have : p.1 = 0 := by exact_mod_cast hval
    omega
  · exact ht.references_get? hL hfit x

/-- The reference counted `j`, live, stands for its backing. -/
theorem resolve?_live (ht : Tracks r L) (hL : L.Sound s) (hs : 0 < s) (hfit : L.next ≤ 2 ^ 53 + 1)
    {j : Nat} {b : Backing} (hj : (j, b) ∈ L.live) :
    r.resolve? (some (.num (Double.ofNat j))) = some (some b.toJson) := by
  have hcongr : ∀ p ∈ L.live, Double.eq (Double.ofNat p.1) (Double.ofNat j) = (p.1 == j) := by
    intro p hp
    have hp' := (hL.bounded p hp).2
    have hj' := (hL.bounded _ hj).2
    simp only at hj'
    exact Bool.eq_iff_iff.2 ((Double.eq_ofNat_iff (by omega) (by omega)).trans beq_iff_eq.symm)
  rw [ht.resolve? hL hs hfit, List.find?_congr hcongr, hL.find?_live hj]
  rfl

theorem scopeReferences_get? (ht : Tracks r L) (t : String) (sc : ScopeKind) :
    r.scopeReferences.get? (scopeKey t sc) = (L.scopeOf? t sc).map Double.ofNat := by
  rw [Table.get?_of_entries ht.scopes fun q _ => scopeKey_beq q.1.1 t q.1.2 sc, ReferenceLedger.scopeOf?,
    Option.map_map]
  rfl

/-- The key a frame scope is kept under, as the registry builds it. -/
theorem key_text (f : Double) (s : ScopeKind) :
    s!"{Json.textOf (some (.num f))}:{Json.textOf (some (Json.string s.name))}" = scopeKey f.render s := by
  cases s <;> rfl

/-- The backing the registry builds for a frame scope. -/
theorem scope_backing (f : Double) (s : ScopeKind) :
    Json.objectOpt [("kind", some (.string "scope")), ("frameId", some (.num f)), ("scope", some (Json.string s.name))] =
      (Backing.scope f s).toJson := by
  cases s <;> rfl

/-- Handing out the next reference for a backing: the word is not among the references live,
since they are smaller and all at most `2^53`. -/
theorem allocate (ht : Tracks r L) (hL : L.Sound s) (hfit : L.next ≤ 2 ^ 53) (b : Backing) :
    (r.allocate (some b.toJson)).1 = Double.ofNat L.next ∧ Tracks (r.allocate (some b.toJson)).2 (L.issue b) := by
  have hnone : r.references.get? (some (.num r.nextReference)) = none := by
    rw [ht.references_get? hL (by omega), List.find?_eq_none.2, Option.map_none]
    intro p hp
    have hp' := (hL.bounded p hp).2
    rw [ht.next, Bool.not_eq_true, ← Bool.not_eq_true, Double.eq_ofNat_iff (by omega) hfit]
    omega
  refine ⟨ht.next, ?_, ?_, ht.scopes⟩
  · simp only [Registry.allocate, ht.next, ReferenceLedger.issue]
    exact Double.ofNat_add_one hfit
  · simp only [Registry.allocate, ReferenceLedger.issue, ht.next, List.map_append, List.map_cons, List.map_nil]
    rw [← ht.next, Table.set_entries_of_get?_eq_none hnone, ht.references, ht.next]

/-- One call: the registry keeps the ledger and answers what the ledger answers. -/
theorem call (ht : Tracks r L) (hL : L.Sound s) (c : Registry.Call)
    (hfit : (L.call c).1.next ≤ 2 ^ 53 + 1) :
    Tracks (r.call c).1 (L.call c).1 ∧ (r.call c).2 = (L.call c).2.ref?.map Double.ofNat := by
  cases c with
  | addThread id name => exact ⟨ht.of_referencePart (Registry.addThread_referencePart r id name), rfl⟩
  | removeThread id => exact ⟨ht.of_referencePart (Registry.removeThread_referencePart r id), rfl⟩
  | markThreadStopped id stopped =>
    exact ⟨ht.of_referencePart (Registry.markThreadStopped_referencePart r id stopped), rfl⟩
  | setStackFrames threadId frames =>
    exact ⟨ht.of_referencePart (Registry.setStackFrames_referencePart r threadId frames), rfl⟩
  | setFrameLocals frameId vs => exact ⟨ht.of_referencePart rfl, rfl⟩
  | allocate b =>
    have hfit' : L.next ≤ 2 ^ 53 := by
      simp only [ReferenceLedger.call, ReferenceLedger.issue] at hfit
      omega
    obtain ⟨hid, ht'⟩ := ht.allocate hL hfit' b
    exact ⟨ht', by simp only [Registry.call, hid]; rfl⟩
  | scopeReference f sc =>
    simp only [Registry.call, Registry.scopeReference, key_text, ht.scopeReferences_get?, ReferenceLedger.call]
    cases hj : L.scopeOf? f.render sc with
    | some j =>
      simp only [Option.map_some]
      exact ⟨ht, rfl⟩
    | none =>
      simp only [Option.map_none, scope_backing]
      have hfit' : L.next ≤ 2 ^ 53 := by
        simp only [ReferenceLedger.call, hj, ReferenceLedger.issue] at hfit
        omega
      obtain ⟨hid, ht'⟩ := ht.allocate hL hfit' (.scope f sc)
      refine ⟨⟨ht'.next, ht'.references, ?_⟩, by rw [hid]; rfl⟩
      have hnone : r.scopeReferences.get? (scopeKey f.render sc) = none := by
        rw [ht.scopeReferences_get?, hj, Option.map_none]
      show (r.scopeReferences.set (scopeKey f.render sc) _).entries = _
      rw [Table.set_entries_of_get?_eq_none hnone, ht.scopes, hid]
      simp
  | cacheProbeVariables reference vs =>
    exact ⟨ht.of_referencePart (Registry.cacheProbeVariables_referencePart r _ vs), rfl⟩
  | resetStopState => exact ⟨⟨ht.next, rfl, rfl⟩, rfl⟩
  | clearAll => exact ⟨⟨ht.next, rfl, rfl⟩, rfl⟩

/-- A run of calls: the registry keeps the ledger and answers what the ledger answers. -/
theorem run (ht : Tracks r L) (hL : L.Sound s) (cs : List Registry.Call)
    (hfit : (L.run cs).1.next ≤ 2 ^ 53 + 1) :
    Tracks (r.runCalls cs).1 (L.run cs).1 ∧
      (r.runCalls cs).2 = (L.run cs).2.map fun a => a.ref?.map Double.ofNat := by
  induction cs generalizing r L with
  | nil => exact ⟨ht, rfl⟩
  | cons c cs ih =>
    have hle := ReferenceLedger.next_le_run (L.call c).1 cs
    have hstep := ht.call hL c (by simp only [ReferenceLedger.run] at hfit; omega)
    obtain ⟨ht', hans⟩ := ih hstep.1 (hL.call c) hfit
    exact ⟨ht', by simp only [Registry.runCalls, ReferenceLedger.run, List.map_cons, hans, hstep.2]⟩

end Tracks

/-! ## Every run from a positive counter -/

open ReferenceLedger in
/-- What a run of `calls` from counter `s` does with references, against the ledger's run: `R`
is the registry after the run with the answers, `L` the ledger after it with its answers. -/
structure FollowsLedger (s : Nat) (calls : List Registry.Call) (R : Registry × List (Option Double))
    (L : ReferenceLedger × List Answer) : Prop where
  /-- Each call answers the ledger's reference, as a word. -/
  answers : R.2 = L.2.map fun a => a.ref?.map Double.ofNat
  /-- The references handed out are `s, s + 1, …` in turn, across resets. -/
  fresh : L.2.filterMap Answer.fresh? = List.range' s (L.1.next - s)
  /-- As words, each reference handed out is above every one handed out before it. -/
  increasing : ((L.2.filterMap Answer.fresh?).map Double.ofNat).Pairwise
    fun x y => Double.compareNum x y = some .lt
  /-- A word resolves to what the reference equal to it, handed out since the stop began,
  stands for; to nothing when there is none. -/
  resolve : ∀ x, R.1.resolve? (some (.num x)) =
    (L.1.live.find? fun p => Double.eq (Double.ofNat p.1) x).map fun p => some p.2.toJson
  resolve_zero : R.1.resolve? (some (.num 0)) = none
  /-- A frame scope asked for twice with no reset between: the same reference both times,
  standing for that scope of a frame of the same text. -/
  scope_again : ∀ pre mid (f : Double) (sc : ScopeKind),
    calls = pre ++ .scopeReference f sc :: mid ++ [.scopeReference f sc] → (∀ c ∈ mid, c.resets = false) →
    R.2[pre.length]? = R.2.getLast? ∧ ∃ x f', R.2.getLast? = some (some x) ∧ f'.render = f.render ∧
      R.1.resolve? (some (.num x)) = some (some (Backing.scope f' sc).toJson)
  /-- Caching under a reference that stands for a frame's locals sets that frame's locals. -/
  cache_locals : ∀ ρ vs f, R.1.resolve? (some (.num ρ)) = some (some (Backing.scope f .locals).toJson) →
    (R.1.cacheProbeVariables (some (.num ρ)) vs).frameLocals = R.1.frameLocals.set (some (.num f)) vs
  /-- Caching under any other reference leaves the frame locals alone. -/
  cache_other : ∀ ρ vs, (∀ f, R.1.resolve? (some (.num ρ)) ≠ some (some (Backing.scope f .locals).toJson)) →
    (R.1.cacheProbeVariables (some (.num ρ)) vs).frameLocals = R.1.frameLocals

namespace Tracks

variable {s : Nat} {r : Registry} {L : ReferenceLedger}

/-- Under a ledger, `resolve?` reads the references as the registry keeps them. -/
theorem get?_eq_resolve? (ht : Tracks r L) (hL : L.Sound s) (hs : 0 < s) (hfit : L.next ≤ 2 ^ 53 + 1)
    (x : Double) : r.references.get? (some (.num x)) = r.resolve? (some (.num x)) := by
  rw [ht.references_get? hL hfit, ht.resolve? hL hs hfit]

theorem cache_locals (ht : Tracks r L) (hL : L.Sound s) (hs : 0 < s) (hfit : L.next ≤ 2 ^ 53 + 1)
    {ρ : Double} {f : Double} (h : r.resolve? (some (.num ρ)) = some (some (Backing.scope f .locals).toJson))
    (vs : Option Json) :
    (r.cacheProbeVariables (some (.num ρ)) vs).frameLocals = r.frameLocals.set (some (.num f)) vs :=
  Registry.cacheProbeVariables_frameLocals (b := .scope f .locals)
    ((ht.get?_eq_resolve? hL hs hfit ρ).trans h) vs

theorem cache_other (ht : Tracks r L) (hL : L.Sound s) (hs : 0 < s) (hfit : L.next ≤ 2 ^ 53 + 1)
    {ρ : Double} (h : ∀ f, r.resolve? (some (.num ρ)) ≠ some (some (Backing.scope f .locals).toJson))
    (vs : Option Json) : (r.cacheProbeVariables (some (.num ρ)) vs).frameLocals = r.frameLocals := by
  have hget := ht.references_get? hL hfit ρ
  cases hp : L.live.find? fun p => Double.eq (Double.ofNat p.1) ρ with
  | none =>
    rw [hp, Option.map_none] at hget
    exact Registry.cacheProbeVariables_frameLocals_of_none hget vs
  | some p =>
    rw [hp, Option.map_some] at hget
    rw [Registry.cacheProbeVariables_frameLocals hget]
    -- only a locals scope would change the locals, and the reference does not stand for one
    rcases hb : p.2 with _ | ⟨f, _ | _⟩ | _ <;> simp only [Backing.localsFrame?]
    exact absurd ((ht.get?_eq_resolve? hL hs hfit ρ).symm.trans (hb ▸ hget)) (h f)

end Tracks

open ReferenceLedger in
/-- A registry whose counter starts at a positive whole number `s` follows the ledger along
every run of calls, as long as the references it hands out stay at most `2^53`. -/
theorem registry_follows_ledger {s : Nat} (hs : 0 < s) (calls : List Registry.Call)
    (hfit : ((start s).run calls).1.next ≤ 2 ^ 53 + 1) :
    FollowsLedger s calls ((Registry.create (Double.ofNat s)).runCalls calls) ((start s).run calls) := by
  obtain ⟨ht, hans⟩ := (Tracks.create s).run (sound_start s) calls hfit
  have hL := (sound_start s).run calls
  obtain ⟨n, hn, hfresh⟩ := fresh_run (start s) calls
  have hn' : ((start s).run calls).1.next - s = n := by
    rw [hn]
    exact Nat.add_sub_cancel_left s n
  refine ⟨hans, by rw [hfresh, hn']; rfl, ?_, ht.resolve? hL hs hfit, ?_, ?_,
    fun ρ vs f h => ht.cache_locals hL hs hfit h vs, fun ρ vs h => ht.cache_other hL hs hfit h vs⟩
  · -- the references handed out stay below `2^53 + 1`, where words keep the order of numbers
    rw [hfresh, List.pairwise_map]
    refine (List.pairwise_lt_range' (s := (start s).next) (n := n)).imp_of_mem ?_
    intro a b _ hb hab
    have hb' : b < ((start s).run calls).1.next := by
      rw [hn]
      exact (List.mem_range'_1.1 hb).2
    exact Double.compareNum_ofNat_lt hab (by omega)
  · unfold Registry.resolve?
    rw [if_pos (by decide +kernel)]
  · intro pre mid f sc hcalls hmid
    obtain ⟨j, hj, hlast, hkept⟩ := scope_again ((start s).run pre).1 f sc hmid
    have hrun := run_append (start s) pre (.scopeReference f sc :: mid ++ [.scopeReference f sc])
    rw [← List.append_assoc, ← hcalls] at hrun
    rw [← congrArg Prod.fst hrun] at hkept
    have hsnd := congrArg Prod.snd hrun
    refine ⟨?_, Double.ofNat j, ?_⟩
    · rw [hans, List.getElem?_map, List.getLast?_map, hsnd, List.getLast?_append, hlast,
        List.getElem?_append_right (by rw [length_run]), length_run, Nat.sub_self]
      simp only [List.cons_append, run, List.getElem?_cons_zero, Option.map_some, Option.some_or, hj]
      rfl
    -- the scope's reference stands for that scope of a frame of the same text
    obtain ⟨f', hf', hmem⟩ := hL.scopes_live _ (scopeOf?_mem hkept)
    refine ⟨f', ?_, hf', ht.resolve?_live hL hs hfit hmem⟩
    rw [hans, List.getLast?_map, hsnd, List.getLast?_append, hlast]
    rfl

/-- A run from the default first reference: an allocation, then a frame's locals asked for
twice. -/
theorem registry_follows_ledger_locals_twice :
    FollowsLedger 1000 [.allocate (.object .null), .scopeReference 1 .locals, .scopeReference 1 .locals]
      ((Registry.create (Double.ofNat 1000)).runCalls
        [.allocate (.object .null), .scopeReference 1 .locals, .scopeReference 1 .locals])
      ((ReferenceLedger.start 1000).run
        [.allocate (.object .null), .scopeReference 1 .locals, .scopeReference 1 .locals]) :=
  registry_follows_ledger (by decide) _ (by decide +kernel)

/-- Past `2^53` the counter stalls: from `2^53 - 1`, the second and third allocations both hand
out `2^53`, and that reference then stands for the third object, the second one lost. -/
theorem reference_repeats_past_two_pow_53 :
    let R := (Registry.create (Double.ofNat (2 ^ 53 - 1))).runCalls
      [.allocate (.object (.num 1)), .allocate (.object (.num 2)), .allocate (.object (.num 3))]
    R.2 = [some (Double.ofNat (2 ^ 53 - 1)), some (Double.ofNat (2 ^ 53)), some (Double.ofNat (2 ^ 53))] ∧
      R.1.resolve? (some (.num (Double.ofNat (2 ^ 53)))) = some (some (Backing.object (.num 3)).toJson) := by
  have h₁ : Double.ofNat (2 ^ 53 - 1) + 1 = Double.ofNat (2 ^ 53) := by decide
  have h₂ : Double.ofNat (2 ^ 53) + 1 = Double.ofNat (2 ^ 53) := by decide
  -- the two words are different keys, and `2^53` is not `0`
  have hne : KeyEq.same (some (Json.num (Double.ofNat (2 ^ 53 - 1)))) (some (Json.num (Double.ofNat (2 ^ 53)))) =
      false := by decide
  have hsame : KeyEq.same (some (Json.num (Double.ofNat (2 ^ 53)))) (some (Json.num (Double.ofNat (2 ^ 53)))) =
      true := by decide
  have hzero : Json.identical (some (Json.num (Double.ofNat (2 ^ 53)))) (some (Json.num 0)) = false := by
    decide +kernel
  simp only [Registry.runCalls, Registry.call, Registry.allocate, Registry.create, h₁, h₂, Registry.resolve?, hzero,
    Table.set, Table.contains, Table.empty, Table.get?, List.any_nil, List.any_cons, hne, hsame, Bool.false_eq_true,
    ↓reduceIte, Bool.or_false, Bool.false_or, List.map_cons, List.map_nil, List.find?_cons, List.nil_append,
    List.cons_append, Option.map_some, and_true]

end DapBridge
