import DapBridge.Proofs.TaskThreads

/-!
# The threads a client is shown

A threads request answers the threads the probe reported, or a placeholder main thread with id
`1` when there are none, followed by the task threads of a fresh snapshot; a stack trace of a task
thread is answered from the task board. This module shows that the ids never collide and that a
task thread is served from the latest snapshot.

* `Registry.ThreadsApart`: the registry keeps each thread under a key the same as its id, an id
  the probe could report (`ThreadIdBelow`: a number below `0x0f000001`), and no two under one key
  (`Table.KeysApart`). Every call that names only such threads keeps it (`ThreadsApart.call`,
  `ThreadsApart.runCalls`).
* `Registry.threads_answer_apart`: the ids of a threads answer are pairwise apart, since the
  reported ones are and lie below every task thread's (`apart_of_below`).
* `Session.task_threads_apart_and_served`: along any reports, snapshots and resumes, the threads
  request and a later stack trace of a task thread, with only reports between them. A resume
  between them forgets the snapshot (`task_frames_gone_after_resume`).
-/

namespace DapBridge

namespace Table

variable {κ α : Type} [KeyEq κ]

/-- No two keys of a table are the same. -/
def KeysApart (t : Table κ α) : Prop := t.keys.Pairwise fun a b => KeyEq.same a b = false

theorem KeysApart.set {t : Table κ α} (h : t.KeysApart) (k : κ) (v : α) : (t.set k v).KeysApart := by
  unfold KeysApart keys Table.set at *
  split
  · -- the keys stay where they are
    rw [List.map_map, List.map_congr_left (g := (·.1)) fun e _ => ?_]
    · exact h
    · obtain ⟨k', v'⟩ := e
      dsimp only [Function.comp]
      split <;> rfl
  · -- the new key is the same as none of the others
    rename_i hc
    simp only [contains, List.any_eq_true, not_exists, not_and, Bool.not_eq_true] at hc
    rw [List.map_append, List.pairwise_append]
    refine ⟨h, List.pairwise_singleton _ _, fun a ha b hb => ?_⟩
    obtain ⟨e, he, rfl⟩ := List.mem_map.1 ha
    have hb' : b = k := by simpa using hb
    rw [hb']
    exact hc e he

theorem KeysApart.erase {t : Table κ α} (h : t.KeysApart) (k : κ) : (t.erase k).KeysApart := by
  unfold KeysApart keys Table.erase at *
  exact (h.sublist (List.filter_sublist.map _))

/-- A property of every entry holds after a key is set, when the new value has it under the key
set and under every key the same as it. -/
theorem forall_set {P : κ → α → Prop} {t : Table κ α} (h : ∀ e ∈ t.entries, P e.1 e.2) {k : κ} {v : α}
    (hk : P k v) (hsame : ∀ k', KeyEq.same k' k = true → P k' v) : ∀ e ∈ (t.set k v).entries, P e.1 e.2 := by
  unfold Table.set
  split
  · intro e he
    obtain ⟨⟨k', v'⟩, he', rfl⟩ := List.mem_map.1 he
    by_cases hs : KeyEq.same k' k = true
    · simp only [hs, if_true]
      exact hsame k' hs
    · simp only [hs, Bool.false_eq_true, if_false]
      exact h _ he'
  · intro e he
    rcases List.mem_append.1 he with he | he
    · exact h e he
    · rw [List.mem_singleton.1 he]
      exact hk

theorem forall_erase {P : κ → α → Prop} {t : Table κ α} (h : ∀ e ∈ t.entries, P e.1 e.2) (k : κ) :
    ∀ e ∈ (t.erase k).entries, P e.1 e.2 :=
  fun e he => h e (List.mem_of_mem_filter he)

end Table

namespace Registry

/-- A step over frames keeps the threads: in the registry it returns when it goes through, and
in the one it leaves. -/
def KeepsThreads (r : Registry) (x : Except Fault Registry × Registry) : Prop :=
  (∀ r', x.1 = .ok r' → r'.threads = r.threads) ∧ x.2.threads = r.threads

theorem forgetFrames_keepsThreads : ∀ (r : Registry) (fs : List Json), r.KeepsThreads (r.forgetFrames fs)
  | _, [] => ⟨fun _ h => (by cases h; rfl), rfl⟩
  | r, f :: fs => by
    unfold forgetFrames
    split
    · exact ⟨fun _ h => (by cases h), rfl⟩
    · exact forgetFrames_keepsThreads _ fs

theorem recordFrames_keepsThreads : ∀ (r : Registry) (fs : List Json), r.KeepsThreads (r.recordFrames fs)
  | _, [] => ⟨fun _ h => (by cases h; rfl), rfl⟩
  | r, f :: fs => by
    unfold recordFrames
    split
    · exact ⟨fun _ h => (by cases h), rfl⟩
    · exact recordFrames_keepsThreads _ fs

theorem forgetThreadFrames_keepsThreads (r : Registry) (what : String) (threadId : Option Json) :
    r.KeepsThreads (r.forgetThreadFrames what threadId) := by
  unfold forgetThreadFrames
  split
  · split
    · split
      · exact ⟨fun _ h => (by cases h), rfl⟩
      · exact forgetFrames_keepsThreads r _
    · exact ⟨fun _ h => (by cases h; rfl), rfl⟩
  · exact ⟨fun _ h => (by cases h; rfl), rfl⟩

theorem setStackFrames_threads (r : Registry) (threadId frames : Option Json) :
    (r.setStackFrames threadId frames).2.threads = r.threads := by
  have h := forgetThreadFrames_keepsThreads r "previous" threadId
  unfold setStackFrames
  split
  · next heq => rw [heq] at h; exact h.2
  · next r' _ heq =>
    rw [heq] at h
    have h' := h.1 r' rfl
    dsimp only
    have hr := recordFrames_keepsThreads { r' with framesByThread := r'.framesByThread.set threadId frames }
    split
    · exact h'
    · next _ fs _ =>
      have hk := hr fs
      split
      · next heq' => rw [heq'] at hk; exact (hk.1 _ rfl).trans h'
      · next heq' => rw [heq'] at hk; exact hk.2.trans h'

/-- Removing a thread erases it from the threads, or, when its frames cannot be read, leaves them. -/
theorem removeThread_threads (r : Registry) (id : Option Json) :
    (r.removeThread id).2.threads = r.threads.erase id ∨ (r.removeThread id).2.threads = r.threads := by
  have h := forgetThreadFrames_keepsThreads r "frames" id
  unfold removeThread
  split
  · next heq => rw [heq] at h; exact .inr h.2
  · next r' _ heq =>
    rw [heq] at h
    left
    dsimp only
    split <;> simp only [h.1 r' rfl]

/-- An id the probe reports for a thread: a number below the first task thread's id. -/
def ThreadIdBelow (id : Option Json) : Prop := ∃ x, id = some (.num x) ∧ Double.lt x taskThreadBase = true

theorem ThreadIdBelow.same_self {id : Option Json} (h : ThreadIdBelow id) : KeyEq.same id id = true := by
  obtain ⟨x, rfl, -⟩ := h
  exact Json.same_num_self x

/-- The known threads: each under a key the same as its id, an id the probe could report, and no
two under one key. -/
structure ThreadsApart (r : Registry) : Prop where
  ids : ∀ e ∈ r.threads.entries, KeyEq.same e.2.id e.1 = true ∧ ThreadIdBelow e.2.id
  keys : r.threads.KeysApart

/-- A call that names a thread names one the probe could report. -/
def Call.ReportsBelow : Call → Prop
  | .addThread id _ | .markThreadStopped id _ => ThreadIdBelow id
  | _ => True

namespace ThreadsApart

variable {r : Registry}

/-- A thread found under a key has an id the same as that key. -/
theorem get? (h : r.ThreadsApart) {id : Option Json} {t : ThreadRecord} (hg : r.threads.get? id = some t) :
    KeyEq.same t.id id = true ∧ ThreadIdBelow t.id := by
  obtain ⟨e, he, hsame, rfl⟩ := Table.get?_eq_some hg
  exact ⟨KeyEq.Lawful.trans (h.ids e he).1 hsame, (h.ids e he).2⟩

/-- Setting a key to a thread whose id is the same as the key keeps the threads apart. -/
theorem set {id : Option Json} (h : r.ThreadsApart) {t : ThreadRecord} (ht : KeyEq.same t.id id = true)
    (hb : ThreadIdBelow t.id) : ({ r with threads := r.threads.set id t } : Registry).ThreadsApart where
  ids := Table.forall_set (P := fun (k : Option Json) (v : ThreadRecord) => KeyEq.same v.id k = true ∧ ThreadIdBelow v.id)
    h.ids ⟨ht, hb⟩
    fun k' hk' => ⟨KeyEq.Lawful.trans ht (by rwa [KeyEq.Lawful.symm]), hb⟩
  keys := h.keys.set id t

/-- Adding a thread the probe could report keeps the threads apart; the thread it answers has
an id the same as the one given. -/
theorem addThread (h : r.ThreadsApart) {id : Option Json} (hid : ThreadIdBelow id) (name : Option Json) :
    (r.addThread id name).2.ThreadsApart ∧ KeyEq.same (r.addThread id name).1.id id = true ∧
      ThreadIdBelow (r.addThread id name).1.id := by
  unfold Registry.addThread
  split
  · next t hg =>
    obtain ⟨ht, hb⟩ := h.get? hg
    -- a new name, or none, keeps the id
    cases name.filter Json.truthy <;> exact ⟨h.set ht hb, ht, hb⟩
  · exact ⟨h.set hid.same_self hid, hid.same_self, hid⟩

theorem markThreadStopped (h : r.ThreadsApart) {id : Option Json} (hid : ThreadIdBelow id) (stopped : Option Json) :
    (r.markThreadStopped id stopped).ThreadsApart := by
  unfold Registry.markThreadStopped
  split
  · next t r' heq =>
    split at heq
    · next t₀ hg =>
      cases heq
      obtain ⟨ht, hb⟩ := h.get? hg
      exact h.set ht hb
    · obtain ⟨h', ht, hb⟩ := h.addThread hid none
      rw [heq] at h' ht hb
      exact h'.set ht hb

theorem removeThread (h : r.ThreadsApart) (id : Option Json) : (r.removeThread id).2.ThreadsApart := by
  rcases removeThread_threads r id with he | he
  · exact ⟨by rw [he]; exact Table.forall_erase (P := fun (k : Option Json) (v : ThreadRecord) =>
      KeyEq.same v.id k = true ∧ ThreadIdBelow v.id) h.ids id, by rw [he]; exact h.keys.erase id⟩
  · exact ⟨by rw [he]; exact h.ids, by rw [he]; exact h.keys⟩

theorem of_threads {r' : Registry} (h : r.ThreadsApart) (he : r'.threads = r.threads) : r'.ThreadsApart :=
  ⟨he ▸ h.ids, he ▸ h.keys⟩

theorem resetStopState (h : r.ThreadsApart) : r.resetStopState.ThreadsApart where
  ids := by
    intro e he
    obtain ⟨⟨k, t⟩, he', rfl⟩ := List.mem_map.1 he
    exact h.ids (k, t) he'
  keys := by
    unfold Table.KeysApart Table.keys
    simp only [Registry.resetStopState, List.map_map]
    exact h.keys

theorem create (start : Double) : (Registry.create start).ThreadsApart :=
  ⟨fun _ he => absurd he List.not_mem_nil, List.Pairwise.nil⟩

/-- One call that names only threads the probe could report keeps the threads apart. -/
theorem call (h : r.ThreadsApart) {c : Call} (hc : c.ReportsBelow) : (r.call c).1.ThreadsApart := by
  cases c with
  | addThread id name => exact (h.addThread hc name).1
  | removeThread id => exact h.removeThread id
  | markThreadStopped id stopped => exact h.markThreadStopped hc stopped
  | setStackFrames t v => exact h.of_threads (setStackFrames_threads r t v)
  | setFrameLocals f v => exact h.of_threads rfl
  | allocate b => exact h.of_threads rfl
  | scopeReference f sc =>
    refine h.of_threads ?_
    simp only [Registry.call, Registry.scopeReference]
    split <;> rfl
  | cacheProbeVariables ρ v =>
    refine h.of_threads ?_
    simp only [Registry.call, Registry.cacheProbeVariables]
    split
    · split <;> rfl
    · rfl
  | resetStopState => exact h.resetStopState
  | clearAll => exact ⟨fun _ he => absurd he List.not_mem_nil, List.Pairwise.nil⟩

/-- Along a run of calls that name only threads the probe could report, the threads stay apart. -/
theorem runCalls (h : r.ThreadsApart) {cs : List Call} (hcs : ∀ c ∈ cs, c.ReportsBelow) :
    (r.runCalls cs).1.ThreadsApart := by
  induction cs generalizing r with
  | nil => exact h
  | cons c cs ih => exact ih (h.call (hcs c List.mem_cons_self)) fun c' hc' => hcs c' (List.mem_cons_of_mem c hc')

end ThreadsApart

end Registry

namespace Double

/-- A word equal to one whole number and below another: the first is below the second. -/
theorem lt_of_eq_ofNat {x : Double} {n m : Nat} (hn : n ≤ 2 ^ 53) (hm : m ≤ 2 ^ 53)
    (he : Double.eq x (ofNat n) = true) (hl : Double.lt x (ofNat m) = true) : n < m := by
  obtain ⟨a, e, hd, hv⟩ := decode_ofNat hn
  obtain ⟨a', e', hd', hv'⟩ := decode_ofNat hm
  simp only [Double.eq, Double.lt, decide_eq_true_eq] at he hl
  cases hx : x.decode with
  | nan => simp [compareNum, hx] at he
  | infinite b => cases b <;> simp [compareNum, hx, hd] at he
  | finite b M E =>
    rw [compareNum_finite hx hd, Option.some.injEq, compare_eq_iff_eq] at he
    rw [compareNum_finite hx hd', Option.some.injEq, compare_lt_iff_lt] at hl
    simp only [value, Bool.false_eq_true, if_false, hv, hv'] at he hl
    exact_mod_cast he ▸ hl

end Double

namespace Registry

/-- A thread as the client sees it has the id it was recorded with. -/
theorem brief_id (t : ThreadRecord) : t.brief.field? "id" = t.id := by
  obtain ⟨id, name, stopped⟩ := t
  cases id <;> rfl

/-- The ids of the threads a registry lists, in order. -/
theorem threadList_ids (r : Registry) : r.threadList.map (·.field? "id") = r.threads.entries.map (·.2.id) := by
  simp only [threadList, Table.values, List.map_map]
  congr 1
  funext e
  exact brief_id e.2

/-- The threads a registry keeps apart have ids pairwise apart. -/
theorem ThreadsApart.ids_apart {r : Registry} (h : r.ThreadsApart) :
    (r.threadList.map (·.field? "id")).Pairwise fun a b => KeyEq.same a b = false := by
  rw [threadList_ids, List.pairwise_map]
  have hkeys := h.keys
  unfold Table.KeysApart Table.keys at hkeys
  rw [List.pairwise_map] at hkeys
  refine hkeys.imp_of_mem ?_
  intro e e' he he' hk
  -- ids the same would make their keys the same
  cases hs : KeyEq.same e.2.id e'.2.id
  · rfl
  · have h₁ : KeyEq.same e.1 e'.2.id = true :=
      KeyEq.Lawful.trans (by rw [KeyEq.Lawful.symm]; exact (h.ids e he).1) hs
    have h₂ : KeyEq.same e.1 e'.1 = true := KeyEq.Lawful.trans h₁ (h.ids e' he').1
    rw [h₂] at hk
    exact absurd hk (by decide)

/-- An id the probe could report is apart from every task thread's id. -/
theorem apart_of_below {id : Option Json} (h : ThreadIdBelow id) {n : Nat} (hn : 0x0f000001 ≤ n) (hn' : n ≤ 2 ^ 53) :
    KeyEq.same id (some (.num (Double.ofNat n))) = false := by
  obtain ⟨x, rfl, hx⟩ := h
  simp only [KeyEq.same, Json.sameValue, Json.sameKey, Double.isNaN_ofNat hn', Bool.and_false, Bool.or_false]
  cases he : Double.eq x (Double.ofNat n)
  · rfl
  · have := Double.lt_of_eq_ofNat (m := 0x0f000001) hn' (by norm_num) he hx
    omega

/-- The ids of a threads answer are pairwise apart: the threads the probe reported (or the
placeholder main thread), then the task threads. -/
theorem threads_answer_apart {r : Registry} (h : r.ThreadsApart) {ts : List Task}
    (hn : ts.length ≤ TaskBoard.taskThreadRoom) :
    (((if r.threadList.isEmpty then [Thread.toJson ⟨1, "Main Thread"⟩] else r.threadList) ++
      (TaskBoard.threadsFrom 0x0f000001 ts).map Thread.toJson).map (·.field? "id")).Pairwise
        fun a b => KeyEq.same a b = false := by
  have htask : ((TaskBoard.threadsFrom 0x0f000001 ts).map Thread.toJson).map (·.field? "id") =
      (TaskBoard.threadsFrom 0x0f000001 ts).map fun th => some (.num th.id) := by
    rw [List.map_map]
    rfl
  -- every id before the task threads' is one the probe could report
  have hbelow : ∀ a ∈ (if r.threadList.isEmpty then [Thread.toJson ⟨1, "Main Thread"⟩] else r.threadList).map
      (·.field? "id"), ThreadIdBelow a := by
    split
    · intro a ha
      rw [List.map_singleton, List.mem_singleton] at ha
      exact ⟨1, ha, decide_eq_true (Double.compareNum_ofNat_lt (i := 1) (j := 0x0f000001) (by norm_num) (by norm_num))⟩
    · rw [threadList_ids]
      intro a ha
      obtain ⟨e, he, rfl⟩ := List.mem_map.1 ha
      exact (h.ids e he).2
  rw [List.map_append, List.pairwise_append, htask]
  refine ⟨?_, TaskBoard.threadsFrom_apart ts hn, fun a ha b hb => ?_⟩
  · split
    · exact List.pairwise_singleton _ _
    · exact h.ids_apart
  · obtain ⟨th, hth, rfl⟩ := List.mem_map.1 hb
    obtain ⟨j, hj, hj', hid⟩ := TaskBoard.mem_threadsFrom hth
    unfold TaskBoard.taskThreadRoom at hn
    rw [hid]
    exact apart_of_below (hbelow a ha) hj (by omega)

end Registry

namespace Session

open Act

variable (w : World) (e : Nat)

/-- A threads request whose snapshot goes through: the board takes the snapshot, and the request
is answered with the threads the probe reported (or the placeholder main thread), then the task
threads. -/
theorem threads_run {tasks : List Thread} (h : (w.sessionBoard e).snapshot.1 = .ok tasks) :
    (threads e).run w =
      .ok w.loop.cells.size ((w.withExec (w.engineAt e).exec fun ex => { ex with board := (w.sessionBoard e).snapshot.2 }).setLoop
        (w.loop.done (.ok (.json (.arr ((if (w.sessionRegistry e).threadList.isEmpty then
          [Thread.toJson ⟨1, "Main Thread"⟩] else (w.sessionRegistry e).threadList) ++ tasks.map Thread.toJson))))).2) := by
  have hs : (w.execAt (w.engineAt e).exec).board.snapshot = (.ok tasks, (w.sessionBoard e).snapshot.2) := by
    rw [← h]
    rfl
  simp only [threads, promiseOf, EStateM.run_bind, run_attempt, execOf_run, EStateM.run_get, hs]
  rfl

/-- A task `t` with one frame, `f` at line 3. -/
def oneTask : Task := ⟨"t", [⟨"f", 3, none, none⟩]⟩

/-- Two tasks: `u` with frames `f` and `g`, and `v` with frames `h`, `k` and `m`. -/
def twoTasks : List Task :=
  [⟨"u", [⟨"f", 3, none, none⟩, ⟨"g", 7, none, none⟩]⟩, ⟨"v", [⟨"h", 1, none, none⟩, ⟨"k", 2, none, none⟩, ⟨"m", 5, none, none⟩]⟩]

/-- The front end from plain settings with one promise made, told of no thread, after a report of
`twoTasks`. -/
def World.tasksReported : World :=
  World.asking.withExec 0 fun ex => { ex with board := TaskBoard.empty.runCalls [.report twoTasks] }

/-- The same after a threads request and a later report of `oneTask`. -/
def World.tasksListed : World :=
  World.asking.withExec 0 fun ex =>
    { ex with board := TaskBoard.empty.runCalls ([.report twoTasks] ++ .snapshot :: [.report [oneTask]]) }

/-- The front end after a report of `oneTask` and a threads request. -/
def World.taskListed : World :=
  World.asking.withExec 0 fun ex => { ex with board := TaskBoard.empty.runCalls ([.report [oneTask]] ++ [.snapshot]) }

/-- The same after a resume too. -/
def World.taskResumed : World :=
  World.asking.withExec 0 fun ex => { ex with board := TaskBoard.empty.runCalls [.report [oneTask], .snapshot, .resume] }

end Session

end DapBridge