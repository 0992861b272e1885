import DapBridge.Proofs.Inspection

/-!
# Tasks shown as threads

A task board keeps the probe's last report of tasks and the threads its last snapshot made of
them. Reports come from the probe's `asyncTasks` events as lists of task records, each with a
list of frame records; a snapshot, taken at every threads request, numbers the tasks as threads
from `0x0f000001` and their frames, across all tasks, from `0x7fff0000`; a resume forgets both.
Frames are counted by one in doubles, so from `2^53` on they all get the id `2^53`
(`countedId`). For a report whose tasks fit between the two bases:

* `snapshot_report`: the snapshot's threads are `threadsFrom 0x0f000001`, and the `i`-th thread
  has the `i`-th task's frames, numbered (`framesFrom 0x7fff0000`); `snapshot_eq_of_tasks`: two
  snapshots of one report are one;
* `threadsFrom_apart`, `threadsFrom_task_ids`: the threads' ids are pairwise apart and all
  task thread ids; `framesFrom_task_ids`: the frames' ids are task frame ids and no task thread
  ids; `framesFrom_apart_iff`: they are pairwise apart exactly when there are at most
  `taskFrameRoom` frames, so that the count stays within `2^53`;
* `frames_latest_snapshot`: along any calls (`TaskBoard.Call`), after the latest snapshot with
  only reports since, a task thread's frames are those it numbered; `stackTrace_task` answers a
  stack trace of a task thread from the board.

Underneath, whole numbers up to `2^53` compare as numbers (`Double.compareNum_ofNat`), so the
id ranges are read as ranges of whole numbers (`isTaskThreadId_ofNat`, `isTaskFrameId_ofNat`).
-/

namespace DapBridge

namespace Double

/-- Whole numbers up to `2^53` compare as words as they do as numbers. -/
theorem compareNum_ofNat {i j : Nat} (hi : i ≤ 2 ^ 53) (hj : j ≤ 2 ^ 53) :
    compareNum (ofNat i) (ofNat j) = some (compare i j) := by
  obtain ⟨m, e, hd, hv⟩ := decode_ofNat hi
  obtain ⟨m', e', hd', hv'⟩ := decode_ofNat hj
  rw [compareNum_finite hd hd']
  simp only [value, Bool.false_eq_true, if_false, hv, hv', Option.some.injEq]
  rcases lt_trichotomy i j with h | rfl | h
  · rw [compare_lt_iff_lt.2 h, compare_lt_iff_lt.2 (by exact_mod_cast h)]
  · rw [compare_eq_iff_eq.2 rfl, compare_eq_iff_eq.2 rfl]
  · rw [compare_gt_iff_gt.2 h, compare_gt_iff_gt.2 (by exact_mod_cast h)]

end Double

namespace Json

/-- Whole numbers up to `2^53` are below one another as numbers. -/
theorem lessThan_ofNat {i j : Nat} (hi : i ≤ 2 ^ 53) (hj : j ≤ 2 ^ 53) :
    lessThan (some (.num (Double.ofNat i))) (some (.num (Double.ofNat j))) = some (decide (i < j)) := by
  simp only [lessThan, primitive, numberOf, toNumber, Double.compareNum_ofNat hi hj, Option.map_some,
    Option.some.injEq]
  rcases lt_trichotomy i j with h | rfl | h
  · simp [compare_lt_iff_lt.2 h, h]
  · simp
  · simp [compare_gt_iff_gt.2 h, Nat.lt_asymm h]

end Json

/-- A whole number up to `2^53` is a task thread's id exactly when it lies from `0x0f000001` up
to, not including, `0x7fff0000`. -/
theorem isTaskThreadId_ofNat {n : Nat} (h : n ≤ 2 ^ 53) :
    isTaskThreadId (some (.num (Double.ofNat n))) = (decide (0x0f000001 ≤ n) && decide (n < 0x7fff0000)) := by
  simp only [isTaskThreadId, Json.atLeast, taskThreadBase, taskFrameBase]
  rw [show (0x0f000001 : Double) = Double.ofNat 0x0f000001 from rfl, show (0x7fff0000 : Double) = Double.ofNat 0x7fff0000 from rfl,
    Json.lessThan_ofNat h (by norm_num), Json.lessThan_ofNat h (by norm_num)]
  by_cases h1 : n < 0x0f000001
  · simp [h1, Nat.not_le.2 h1]
  · simp [h1, Nat.le_of_not_lt h1]

/-- A whole number up to `2^53` is a task frame's id exactly when it is at least `0x7fff0000`. -/
theorem isTaskFrameId_ofNat {n : Nat} (h : n ≤ 2 ^ 53) :
    isTaskFrameId (some (.num (Double.ofNat n))) = decide (0x7fff0000 ≤ n) := by
  simp only [isTaskFrameId, Json.atLeast, taskFrameBase]
  rw [show (0x7fff0000 : Double) = Double.ofNat 0x7fff0000 from rfl, Json.lessThan_ofNat h (by norm_num)]
  by_cases h1 : n < 0x7fff0000
  · simp [h1, Nat.not_le.2 h1]
  · simp [h1, Nat.le_of_not_lt h1]

/-- A task frame as a snapshot shows it, with its id: a missing column is `0`. -/
def TaskFrame.shown (f : TaskFrame) (id : Double) : Json :=
  Json.objectOpt [("id", some (.num id)), ("name", some (.string f.name)), ("line", some (.num f.line)),
    ("column", some (.num (f.column.getD 0))), ("source", f.source.map Source.toJson)]

namespace TaskBoard

/-- The id the frame count `k` gives: `k` itself up to `2^53`, where counting by one stalls. -/
def countedId (k : Nat) : Double := Double.ofNat (min k (2 ^ 53))

theorem countedId_of_le {k : Nat} (h : k ≤ 2 ^ 53) : countedId k = Double.ofNat k := by
  rw [countedId, Nat.min_eq_left h]

/-- Counting on by one from a frame id gives the next, or stays at `2^53`. -/
theorem countedId_add_one (k : Nat) : countedId k + 1 = countedId (k + 1) := by
  by_cases hk : k < 2 ^ 53
  · rw [countedId_of_le hk.le, countedId_of_le hk, Double.ofNat_add_one_of_lt hk]
  · have hstall : Double.ofNat (2 ^ 53) + 1 = Double.ofNat (2 ^ 53) := by decide
    rw [countedId, countedId, Nat.min_eq_right (by omega), Nat.min_eq_right (by omega), hstall]

/-- A task's frames as a snapshot shows them, numbered from the count `k`. -/
def numbered : Nat → List TaskFrame → List Json
  | _, [] => []
  | k, f :: fs => f.shown (countedId k) :: numbered (k + 1) fs

/-- The threads a snapshot makes of tasks, numbered from `a`. -/
def threadsFrom : Nat → List Task → List Thread
  | _, [] => []
  | a, t :: ts => ⟨Double.ofNat a, "Task: " ++ Json.textOf (some (.string t.name))⟩ :: threadsFrom (a + 1) ts

/-- The frames of the threads a snapshot makes of tasks, numbered from `k` across all of them. -/
def framesFrom : Nat → List Task → List (List Json)
  | _, [] => []
  | k, t :: ts => numbered k t.frames :: framesFrom (k + t.frames.length) ts

/-- The number of frames of all the tasks. -/
def frameTotal : List Task → Nat
  | [] => 0
  | t :: ts => t.frames.length + frameTotal ts

theorem frameOf_toJson (f : TaskFrame) (id : Double) : frameOf id f.toJson = .ok (f.shown id) := by
  obtain ⟨name, line, column, source⟩ := f
  cases column <;> cases source <;> rfl

theorem framesOf_toJson (t : Task) : framesOf t.toJson = .ok (t.frames.map TaskFrame.toJson) := rfl

/-- Frames numbered from a count get the ids of the counts that follow it. -/
theorem numberFrames_toJson (k : Nat) (fs : List TaskFrame) :
    numberFrames (countedId k) (fs.map TaskFrame.toJson) = .ok (numbered k fs, countedId (k + fs.length)) := by
  induction fs generalizing k with
  | nil => rfl
  | cons f fs ih =>
    simp only [List.map_cons, numberFrames, frameOf_toJson, countedId_add_one, ih (k + 1)]
    simp only [List.length_cons, numbered, Nat.add_assoc, Nat.add_comm 1]
    rfl

/-- Task `t`, numbered as a thread from `a` with its frames from `k`: one step of a snapshot. -/
theorem numberTasks_cons_toJson (a k : Nat) (b : TaskBoard) (t : Task) (ts : List Task) (ha : a ≤ 2 ^ 53) :
    numberTasks (Double.ofNat a) (countedId k) b ((t :: ts).map Task.toJson) =
      (((numberTasks (Double.ofNat (a + 1)) (countedId (k + t.frames.length))
          { b with framesByThread := b.framesByThread.set (some (.num (Double.ofNat a))) (numbered k t.frames) }
          (ts.map Task.toJson)).1.map (⟨Double.ofNat a, "Task: " ++ Json.textOf (some (.string t.name))⟩ :: ·)),
        (numberTasks (Double.ofNat (a + 1)) (countedId (k + t.frames.length))
          { b with framesByThread := b.framesByThread.set (some (.num (Double.ofNat a))) (numbered k t.frames) }
          (ts.map Task.toJson)).2) := by
  simp only [List.map_cons, numberTasks, framesOf_toJson, bind, Except.bind, numberFrames_toJson k t.frames,
    ← Double.ofNat_add_one ha]
  rfl

/-- A snapshot reads the report and leaves it as it was. -/
theorem numberTasks_tasks (x y : Double) (b : TaskBoard) (ts : List Json) : (numberTasks x y b ts).2.tasks = b.tasks := by
  induction ts generalizing x y b with
  | nil => rfl
  | cons t ts ih =>
    simp only [numberTasks]
    split
    · rfl
    · exact ih _ _ _

/-- Tasks numbered from `a` become the threads numbered from `a`. -/
theorem numberTasks_threads (a k : Nat) (b : TaskBoard) (ts : List Task) (ha : a + ts.length ≤ 2 ^ 53) :
    (numberTasks (Double.ofNat a) (countedId k) b (ts.map Task.toJson)).1 = .ok (threadsFrom a ts) := by
  induction ts generalizing a k b with
  | nil => rfl
  | cons t ts ih =>
    simp only [List.length_cons] at ha
    rw [numberTasks_cons_toJson a k b t ts (by omega), ih (a + 1) _ _ (by omega)]
    rfl

/-- Whole numbers up to `2^53` are one key exactly when they are equal. -/
theorem same_ofNat {m n : Nat} (hm : m ≤ 2 ^ 53) (hn : n ≤ 2 ^ 53) :
    KeyEq.same (some (Json.num (Double.ofNat m))) (some (.num (Double.ofNat n))) = decide (m = n) := by
  simp only [KeyEq.same, Json.sameValue, Json.sameKey, Double.isNaN_ofNat hm, Bool.false_and, Bool.or_false]
  exact Bool.eq_iff_iff.2 ((Double.eq_ofNat_iff hm hn).trans decide_eq_true_iff.symm)

/-- A snapshot leaves alone the frames of a thread none of its task threads is numbered as. -/
theorem get?_numberTasks_of_ne (a k : Nat) (b : TaskBoard) (ts : List Task) (ha : a + ts.length ≤ 2 ^ 53)
    {q : Option Json} (hq : ∀ j < ts.length, KeyEq.same (some (.num (Double.ofNat (a + j)))) q = false) :
    (numberTasks (Double.ofNat a) (countedId k) b (ts.map Task.toJson)).2.framesByThread.get? q =
      b.framesByThread.get? q := by
  induction ts generalizing a k b with
  | nil => rfl
  | cons t ts ih =>
    simp only [List.length_cons] at ha
    rw [numberTasks_cons_toJson a k b t ts (by omega),
      ih (a + 1) _ _ (by omega) fun j hj => by simpa [Nat.add_assoc, Nat.add_comm 1] using hq (j + 1) (by simpa using hj)]
    simp only [Table.get?_set, show KeyEq.same (some (.num (Double.ofNat a))) q = false by simpa using hq 0 (by simp), Bool.false_eq_true, if_false]

/-- The `i`-th task thread of a snapshot has the `i`-th task's frames. -/
theorem get?_numberTasks (a k : Nat) (b : TaskBoard) (ts : List Task) (ha : a + ts.length ≤ 2 ^ 53)
    {i : Nat} (hi : i < ts.length) :
    (numberTasks (Double.ofNat a) (countedId k) b (ts.map Task.toJson)).2.framesByThread.get?
      (some (.num (Double.ofNat (a + i)))) = (framesFrom k ts)[i]? := by
  induction ts generalizing a k b i with
  | nil => simp at hi
  | cons t ts ih =>
    simp only [List.length_cons] at ha hi
    rw [numberTasks_cons_toJson a k b t ts (by omega)]
    cases i with
    | zero =>
      -- the later task threads have larger numbers, so they leave the first one's frames alone
      rw [get?_numberTasks_of_ne (a + 1) _ _ ts (by omega) fun j hj => by
        rw [same_ofNat (by omega) (by omega), decide_eq_false_iff_not]
        omega]
      simp only [Table.get?_set, Nat.add_zero, Json.same_num_self, if_true, framesFrom, List.getElem?_cons_zero]
    | succ i =>
      rw [show a + (i + 1) = a + 1 + i by omega, ih (a + 1) _ _ (by omega) (by omega)]
      rfl

/-- How many task threads fit between the two bases. -/
def taskThreadRoom : Nat := 0x7fff0000 - 0x0f000001

/-- How many task frames get ids apart: those counted up to `2^53`. -/
def taskFrameRoom : Nat := 2 ^ 53 + 1 - 0x7fff0000

/-- A snapshot of a report of tasks that fit: the threads numbered from `0x0f000001`, each with
its task's frames numbered from `0x7fff0000` across all of them; the report stays. -/
theorem snapshot_report (b : TaskBoard) {ts : List Task} (hb : b.tasks = some (.arr (ts.map Task.toJson)))
    (hn : ts.length ≤ taskThreadRoom) :
    b.snapshot.1 = .ok (threadsFrom 0x0f000001 ts) ∧ b.snapshot.2.tasks = b.tasks ∧
      ∀ i < ts.length, b.snapshot.2.framesByThread.get? (some (.num (Double.ofNat (0x0f000001 + i)))) =
        (framesFrom 0x7fff0000 ts)[i]? := by
  unfold taskThreadRoom at hn
  have ha : 0x0f000001 + ts.length ≤ 2 ^ 53 := by omega
  simp only [snapshot, hb, reported, taskThreadBase, taskFrameBase]
  rw [show (0x0f000001 : Double) = Double.ofNat 0x0f000001 from rfl,
    show (0x7fff0000 : Double) = countedId 0x7fff0000 from (countedId_of_le (by norm_num)).symm]
  exact ⟨numberTasks_threads _ _ _ ts ha, numberTasks_tasks _ _ _ _, fun i hi => get?_numberTasks _ _ _ ts ha hi⟩

/-- Two snapshots of one report are the same: a snapshot forgets the numbering before it. -/
theorem snapshot_eq_of_tasks {b b' : TaskBoard} (h : b.tasks = b'.tasks) : b.snapshot = b'.snapshot := by
  unfold snapshot
  rw [h]

theorem threadsFrom_ids (a : Nat) (ts : List Task) :
    (threadsFrom a ts).map Thread.id = (List.range' a ts.length).map Double.ofNat := by
  induction ts generalizing a with
  | nil => rfl
  | cons t ts ih => simp [threadsFrom, ih, List.range'_succ]

/-- A frame as a snapshot shows it has the id it was given. -/
theorem shown_id (f : TaskFrame) (id : Double) : (f.shown id).field? "id" = some (.num id) := by
  obtain ⟨name, line, column, source⟩ := f
  cases source <;> rfl

theorem numbered_ids (k : Nat) (fs : List TaskFrame) :
    (numbered k fs).map (·.field? "id") = (List.range' k fs.length).map fun j => some (.num (countedId j)) := by
  induction fs generalizing k with
  | nil => rfl
  | cons f fs ih =>
    simp only [numbered, List.map_cons, ih, List.length_cons, List.range'_succ, shown_id]

/-- The frames of a snapshot's threads, in turn, have the ids from `k` on, one each. -/
theorem framesFrom_ids (k : Nat) (ts : List Task) :
    (framesFrom k ts).flatten.map (·.field? "id") = (List.range' k (frameTotal ts)).map fun j => some (.num (countedId j)) := by
  induction ts generalizing k with
  | nil => rfl
  | cons t ts ih =>
    simp only [framesFrom, List.flatten_cons, List.map_append, numbered_ids, ih, frameTotal]
    rw [← List.map_append, List.range'_append_1]

/-- Whole numbers up to `2^53` from `a`, as keys, are pairwise apart. -/
theorem range'_apart (a n : Nat) (h : a + n ≤ 2 ^ 53 + 1) :
    ((List.range' a n).map fun j => some (Json.num (Double.ofNat j))).Pairwise fun x y => KeyEq.same x y = false := by
  rw [List.pairwise_map]
  refine (List.pairwise_lt_range' (s := a) (n := n)).imp_of_mem ?_
  intro x y hx hy hxy
  have hy' := (List.mem_range'_1.1 hy).2
  rw [same_ofNat (by omega) (by omega), decide_eq_false_iff_not]
  omega

/-- For whole numbers, the window of a task thread's frames is the plain one: `levels` frames
from `start`, or all from `start` on when `levels` is `0`. -/
theorem frames_ofNat (b : TaskBoard) (q : Option Json) {s l : Nat} (h : s + l ≤ 2 ^ 53) :
    b.frames q (some (.num (Double.ofNat s))) (some (.num (Double.ofNat l))) =
      if l = 0 then ((b.framesByThread.get? q).getD []).drop s
      else (((b.framesByThread.get? q).getD []).drop s).take l := by
  have hs : s ≤ 2 ^ 53 := by omega
  have hlt : Json.lessThan (some (.num 0)) (some (.num (Double.ofNat l))) = some (decide (0 < l)) :=
    Json.lessThan_ofNat (i := 0) (by norm_num) (by omega)
  simp only [frames, Option.getD_some, Json.toNumber, hlt]
  rcases Nat.eq_zero_or_pos l with rfl | hpos
  · simp [sliceBy_ofNat_none _ hs]
  · simp only [hpos, decide_true, beq_self_eq_true, if_true, Nat.pos_iff_ne_zero.1 hpos, if_false, Json.plus,
      Json.primitive, Json.isText, Bool.or_false, Bool.false_eq_true, Json.numberOf, Json.toNumber,
      Double.ofNat_add_ofNat h, sliceBy_ofNat _ hs h, Nat.add_sub_cancel_left]

theorem length_numbered (k : Nat) (fs : List TaskFrame) : (numbered k fs).length = fs.length := by
  induction fs generalizing k with
  | nil => rfl
  | cons f fs ih => simp [numbered, ih]

theorem length_framesFrom (k : Nat) (ts : List Task) : (framesFrom k ts).length = ts.length := by
  induction ts generalizing k with
  | nil => rfl
  | cons t ts ih => simp [framesFrom, ih]

/-- The `i`-th thread of a snapshot has as many frames as the `i`-th task. -/
theorem length_framesFrom_getElem? (k : Nat) (ts : List Task) (i : Nat) :
    ((framesFrom k ts)[i]?).map List.length = ts[i]?.map (·.frames.length) := by
  induction ts generalizing k i with
  | nil => rfl
  | cons t ts ih =>
    cases i with
    | zero => simp [framesFrom, length_numbered]
    | succ i => simp [framesFrom, ih]

/-- The threads of a snapshot of tasks that fit have ids pairwise apart. -/
theorem threadsFrom_apart (ts : List Task) (hn : ts.length ≤ taskThreadRoom) :
    ((threadsFrom 0x0f000001 ts).map fun th => some (Json.num th.id)).Pairwise fun x y => KeyEq.same x y = false := by
  have hids := congrArg (List.map fun x => some (Json.num x)) (threadsFrom_ids 0x0f000001 ts)
  simp only [List.map_map] at hids
  rw [show (fun th : Thread => some (Json.num th.id)) = (fun x => some (Json.num x)) ∘ Thread.id from rfl, hids]
  exact range'_apart _ _ (by unfold taskThreadRoom at hn; omega)

/-- A thread numbered from `a` has the id of a whole number from `a` on, below `a` and the
number of tasks. -/
theorem mem_threadsFrom {a : Nat} {ts : List Task} {th : Thread} (hth : th ∈ threadsFrom a ts) :
    ∃ j, a ≤ j ∧ j < a + ts.length ∧ th.id = Double.ofNat j := by
  have hmem : th.id ∈ (List.range' a ts.length).map Double.ofNat := by
    rw [← threadsFrom_ids]
    exact List.mem_map_of_mem hth
  obtain ⟨j, hj, hid⟩ := List.mem_map.1 hmem
  exact ⟨j, (List.mem_range'_1.1 hj).1, (List.mem_range'_1.1 hj).2, hid.symm⟩

/-- Every thread of a snapshot of tasks that fit has a task thread's id. -/
theorem threadsFrom_task_ids (ts : List Task) (hn : ts.length ≤ taskThreadRoom) :
    ∀ th ∈ threadsFrom 0x0f000001 ts, isTaskThreadId (some (.num th.id)) = true := by
  intro th hth
  obtain ⟨j, hj, hj', hid⟩ := mem_threadsFrom hth
  unfold taskThreadRoom at hn
  rw [hid, isTaskThreadId_ofNat (by omega)]
  simp only [Bool.and_eq_true, decide_eq_true_eq]
  omega

/-- The frames of a snapshot have ids pairwise apart exactly when there are at most
`taskFrameRoom` of them: past that, the counts `2^53` and `2^53 + 1` both give the id `2^53`. -/
theorem framesFrom_apart_iff (ts : List Task) :
    ((framesFrom 0x7fff0000 ts).flatten.map (·.field? "id")).Pairwise (fun x y => KeyEq.same x y = false) ↔
      frameTotal ts ≤ taskFrameRoom := by
  unfold taskFrameRoom
  rw [framesFrom_ids]
  constructor
  · intro h
    by_contra hgt
    rw [List.pairwise_map, List.pairwise_iff_getElem] at h
    have hsame := h (2 ^ 53 - 0x7fff0000) (2 ^ 53 + 1 - 0x7fff0000) (by simp; omega) (by simp; omega) (by omega)
    rw [List.getElem_range', List.getElem_range', countedId, countedId, Nat.min_eq_right (by omega),
      Nat.min_eq_right (by omega), same_ofNat le_rfl le_rfl] at hsame
    simp at hsame
  · intro h
    -- every count is at most `2^53`, so each id is its count
    rw [List.map_congr_left fun j hj => by rw [countedId_of_le (by have := (List.mem_range'_1.1 hj).2; omega)]]
    exact range'_apart _ _ (by omega)

/-- Every frame of a snapshot has a task frame's id, and no task thread's: the ids stay from
`0x7fff0000` up to `2^53`. -/
theorem framesFrom_task_ids (ts : List Task) :
    ∀ x ∈ (framesFrom 0x7fff0000 ts).flatten.map (·.field? "id"), isTaskFrameId x = true ∧ isTaskThreadId x = false := by
  intro x hx
  rw [framesFrom_ids] at hx
  obtain ⟨j, hj, rfl⟩ := List.mem_map.1 hx
  have hlow : 0x7fff0000 ≤ min j (2 ^ 53) := le_min (List.mem_range'_1.1 hj).1 (by norm_num)
  rw [countedId, isTaskFrameId_ofNat (Nat.min_le_right _ _), isTaskThreadId_ofNat (Nat.min_le_right _ _)]
  simp only [decide_eq_true_eq, Bool.and_eq_false_imp, decide_eq_false_iff_not, Nat.not_lt]
  omega

/-! ## Along a session -/

/-- What happens to a task board: a report of tasks arrives, the threads are listed (and the
report numbered afresh), or the debuggee resumes. -/
inductive Call where
  | report (tasks : List Task)
  | snapshot
  | resume

/-- Whether a call is a report, which leaves the numbered threads alone. -/
def Call.IsReport : Call → Prop
  | .report _ => True
  | _ => False

def call (b : TaskBoard) : Call → TaskBoard
  | .report ts => b.report (some (.arr (ts.map Task.toJson)))
  | .snapshot => b.snapshot.2
  | .resume => b.reset

/-- Make calls in turn. -/
def runCalls (b : TaskBoard) (cs : List Call) : TaskBoard := cs.foldl call b

/-- Reports leave the numbered threads alone. -/
theorem framesByThread_runCalls_reports (b : TaskBoard) {cs : List Call} (h : ∀ c ∈ cs, c.IsReport) :
    (b.runCalls cs).framesByThread = b.framesByThread := by
  induction cs generalizing b with
  | nil => rfl
  | cons c cs ih =>
    obtain ⟨ts, rfl⟩ : ∃ ts, c = .report ts := by
      have hc := h c List.mem_cons_self
      cases c with
      | report ts => exact ⟨ts, rfl⟩
      | snapshot => exact hc.elim
      | resume => exact hc.elim
    exact ih _ fun c hc => h c (List.mem_cons_of_mem _ hc)

/-- After the latest snapshot, with only reports since, the threads are numbered as it
numbered them. -/
theorem framesByThread_latest_snapshot (b : TaskBoard) (pre : List Call) {post : List Call}
    (h : ∀ c ∈ post, c.IsReport) :
    (b.runCalls (pre ++ .snapshot :: post)).framesByThread = (b.runCalls pre).snapshot.2.framesByThread := by
  rw [runCalls, List.foldl_append, List.foldl_cons]
  exact framesByThread_runCalls_reports _ h

/-- After the latest snapshot of a report of tasks that fit, with only reports since, the `i`-th
task thread has the `i`-th task's frames: a window of them for whole numbers, and their number. -/
theorem frames_latest_snapshot {pre post : List Call} {ts : List Task} (hpost : ∀ c ∈ post, c.IsReport)
    (hrep : (empty.runCalls pre).tasks = some (.arr (ts.map Task.toJson)))
    (hn : ts.length ≤ taskThreadRoom) {i : Nat} (hi : i < ts.length)
    {s l : Nat} (hsl : s + l ≤ 2 ^ 53) :
    (empty.runCalls (pre ++ .snapshot :: post)).frames (some (.num (Double.ofNat (0x0f000001 + i))))
        (some (.num (Double.ofNat s))) (some (.num (Double.ofNat l))) =
      (if l = 0 then ((framesFrom 0x7fff0000 ts)[i]?.getD []).drop s
       else (((framesFrom 0x7fff0000 ts)[i]?.getD []).drop s).take l) ∧
    (empty.runCalls (pre ++ .snapshot :: post)).frameCount (some (.num (Double.ofNat (0x0f000001 + i)))) =
      (ts[i]?.map (·.frames.length)).getD 0 := by
  have hget := (snapshot_report _ hrep hn).2.2 i hi
  rw [← framesByThread_latest_snapshot empty pre hpost] at hget
  refine ⟨by rw [frames_ofNat _ _ hsl, hget], ?_⟩
  -- the `i`-th frames are the `i`-th task's, numbered, so there are as many
  obtain ⟨fs, hfs⟩ : ∃ fs, (framesFrom 0x7fff0000 ts)[i]? = some fs :=
    ⟨_, List.getElem?_eq_getElem (by rw [length_framesFrom]; exact hi)⟩
  have hlen := length_framesFrom_getElem? 0x7fff0000 ts i
  rw [hfs, Option.map_some] at hlen
  simp only [frameCount, hget, hfs, Option.getD_some, ← hlen]

end TaskBoard

/-- The task board of an engine's session. -/
def World.sessionBoard (w : World) (e : Nat) : TaskBoard := (w.execAt (w.engineAt e).exec).board

namespace Session

open Act

variable (w : World) (e : Nat)

/-- A stack trace of a task thread is answered at once from the task board: the window asked for
of the frames the last snapshot gave it, with their number as the total. -/
theorem stackTrace_task {t : Double} (start levels : Option Double) (ht : isTaskThreadId (some (.num t)) = true) :
    (stackTrace e t start levels).run w =
      .ok w.loop.cells.size (w.setLoop (w.loop.done (.ok (.json (framesJson
        ((w.sessionBoard e).frames (some (.num t)) (some (.num (start.getD 0))) (some (.num (levels.getD 0))))
        ((w.sessionBoard e).frameCount (some (.num t))))))).2) := by
  simp only [stackTrace, EStateM.run_bind, execOf_run, EStateM.run_get]
  rw [if_pos ht]
  rfl

end Session

end DapBridge
