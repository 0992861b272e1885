import DapBridge.Proofs.ThreadList
import DapBridge.Proofs.FrameIndex
import Mathlib.Data.List.TakeDrop

/-!
# Breakpoint book: each setter replaces its own kind

A breakpoint book keeps four kinds of breakpoints: line breakpoints by source file, function
breakpoints, the chosen exception filters and the data watches. Each setter replaces its own
kind wholesale and leaves the others alone; line and function breakpoints share one counter
of ids.

Calls are taken as the book's callers make them (`Setter`, `Call`): a file path or none,
records of requested breakpoints, filter names, ids and data ids. The numbering is an
invariant of every run of calls (`Numbered`): the counter is the word of a whole number `N`,
each live list of line or function breakpoints holds the words of consecutive numbers below
`N`, handed out by the call that made it, and two lists never share an id. It holds while at
most `2^53` ids are handed out in all: the counter is a double, and one past `2^53` it rounds
back and stays, so ids repeat from there on (`setFunctions_repeats_past_two_pow_53`).

* `Numbered.after`, `Numbered.afterAll`: every call keeps the numbering, moving the counter past
  the ids it hands out.
* `Numbered.liveIds_apart`, `Numbered.ids_increasing`: the live ids are pairwise apart and
  increase along each list.
* `Setter.obeys`: what each setter answers, one result per request in order, and what it
  leaves (`LinesReplaced`, `FunctionsReplaced`, `FiltersChosen`, `WatchesReplaced`).
* `setters_replace_their_kind`: all of it after any run of calls on a new book.
-/

namespace DapBridge

instance : KeyEq.Lawful String where
  symm a b := by simp only [KeyEq.same, Bool.beq_comm]
  trans h₁ h₂ := by
    simp only [KeyEq.same, beq_iff_eq] at h₁ h₂ ⊢
    exact h₁.trans h₂

@[simp]
theorem same_string (a b : String) : KeyEq.same a b = decide (a = b) :=
  Bool.eq_iff_iff.2 (by simp [KeyEq.same])

namespace Table

variable {κ α β : Type} [KeyEq κ]

/-- The table with each value replaced by its image under `f`. -/
def mapValues (f : α → β) (t : Table κ α) : Table κ β := ⟨t.entries.map fun e => (e.1, f e.2)⟩

theorem contains_mapValues (f : α → β) (t : Table κ α) (k : κ) : (t.mapValues f).contains k = t.contains k := by
  simp only [contains, mapValues, List.any_map, Function.comp_def]

theorem mapValues_set (f : α → β) (t : Table κ α) (k : κ) (v : α) :
    (t.set k v).mapValues f = (t.mapValues f).set k (f v) := by
  unfold set
  rw [contains_mapValues]
  split
  · simp only [mapValues, List.map_map, Table.mk.injEq]
    refine List.map_congr_left fun e _ => ?_
    by_cases h : KeyEq.same e.1 k = true <;> simp [h]
  · simp [mapValues]

theorem mapValues_erase (f : α → β) (t : Table κ α) (k : κ) :
    (t.erase k).mapValues f = (t.mapValues f).erase k := by
  simp only [erase, mapValues, List.filter_map, Function.comp_def]

/-- Entries under different keys whose values are related both ways stay so when a key is set to
a value related both ways to the value of every entry under another key. -/
theorem pairwise_set {R : β → β → Prop} {t : Table String β}
    (h : t.entries.Pairwise fun e f => e.1 ≠ f.1 ∧ R e.2 f.2) (k : String) {v : β}
    (hv : ∀ e ∈ t.entries, e.1 ≠ k → R e.2 v ∧ R v e.2) :
    (t.set k v).entries.Pairwise fun e f => e.1 ≠ f.1 ∧ R e.2 f.2 := by
  unfold set
  split
  · -- in place: at most one of two entries is the key's, since keys differ
    rw [List.pairwise_map]
    refine List.Pairwise.imp_of_mem (fun {a b} ha hb hab => ?_) h
    obtain ⟨ka, va⟩ := a
    obtain ⟨kb, vb⟩ := b
    obtain ⟨hne, hR⟩ := hab
    by_cases hka : ka = k
    · subst hka
      have hkb : kb ≠ ka := fun h => hne h.symm
      simpa [hkb, hne] using (hv _ hb hkb).2
    · by_cases hkb : kb = k
      · subst hkb
        simpa [hka, hne] using (hv _ ha hka).1
      · simpa [hka, hkb, hne] using hR
  · -- at the end: the key is none of the others
    rename_i hc
    rw [List.pairwise_append]
    refine ⟨h, List.pairwise_singleton _ _, fun a ha b hb => ?_⟩
    rw [List.mem_singleton] at hb
    subst hb
    have hak : a.1 ≠ k := fun hak => hc (List.any_eq_true.2 ⟨a, ha, by simp [hak]⟩)
    exact ⟨hak, (hv a ha hak).1⟩

end Table

namespace Double

/-- Whole numbers up to `2^53` are below one another as words as they are as numbers. -/
theorem lt_ofNat {i j : Nat} (hi : i ≤ 2 ^ 53) (hj : j ≤ 2 ^ 53) :
    Double.lt (ofNat i) (ofNat j) = decide (i < j) := by
  simp only [Double.lt, compareNum_ofNat hi hj, Option.some.injEq, compare_lt_iff_lt]

/-- A word below another is not equal to it. -/
theorem eq_false_of_lt {x y : Double} (h : Double.lt x y = true) : Double.eq x y = false := by
  simp only [Double.lt, decide_eq_true_eq] at h
  simp only [Double.eq, h, Option.some.injEq, reduceCtorEq, decide_false]

end Double

namespace BreakpointBook

/-! ## Ids handed out in a run -/

/-- The ids of `k` breakpoints numbered from `s` on: the words of `s`, `s + 1`, … -/
def idsFrom (s k : Nat) : List Double := (List.range' s k).map Double.ofNat

/-- No id of one list is equal, as a number, to an id of the other. -/
def Apart (xs ys : List Double) : Prop := ∀ x ∈ xs, ∀ y ∈ ys, Double.eq x y = false

/-- A list of ids handed out by one call, before the number `N`: the words of consecutive
numbers that end at or below `N`. -/
def RunBelow (ids : List Double) (N : Nat) : Prop := ∃ s, s + ids.length ≤ N ∧ ids = idsFrom s ids.length

theorem idsFrom_succ (s k : Nat) : idsFrom s (k + 1) = Double.ofNat s :: idsFrom (s + 1) k := by
  simp [idsFrom, List.range'_succ]

@[simp]
theorem length_idsFrom (s k : Nat) : (idsFrom s k).length = k := by simp [idsFrom]

theorem mem_idsFrom {s k : Nat} {x : Double} : x ∈ idsFrom s k ↔ ∃ i, s ≤ i ∧ i < s + k ∧ x = Double.ofNat i := by
  simp only [idsFrom, List.mem_map, List.mem_range'_1]
  constructor
  · rintro ⟨i, hi, rfl⟩
    exact ⟨i, hi.1, hi.2, rfl⟩
  · rintro ⟨i, h₁, h₂, rfl⟩
    exact ⟨i, ⟨h₁, h₂⟩, rfl⟩

theorem Apart.symm {xs ys : List Double} (h : Apart xs ys) : Apart ys xs :=
  fun y hy x hx => by rw [Double.eq_comm_num]; exact h x hx y hy

/-- The ids of a run increase along it. -/
theorem idsFrom_increasing {s k : Nat} (hfit : s + k ≤ 2 ^ 53) :
    (idsFrom s k).Pairwise fun x y => Double.lt x y = true := by
  rw [idsFrom, List.pairwise_map]
  refine List.Pairwise.imp_of_mem (fun hi hj hij => ?_) List.pairwise_lt_range'
  rw [List.mem_range'_1] at hi hj
  rw [Double.lt_ofNat (by omega) (by omega)]
  exact decide_eq_true hij

theorem RunBelow.mono {ids : List Double} {N M : Nat} (h : RunBelow ids N) (hNM : N ≤ M) : RunBelow ids M := by
  obtain ⟨s, hs, hids⟩ := h
  exact ⟨s, by omega, hids⟩

/-- Every id of a run below `N` is below every id from `N` on. -/
theorem RunBelow.lt {ids : List Double} {N : Nat} (h : RunBelow ids N) {k : Nat} (hfit : N + k ≤ 2 ^ 53) :
    ∀ x ∈ ids, ∀ y ∈ idsFrom N k, Double.lt x y = true := by
  obtain ⟨s, hs, hids⟩ := h
  intro x hx y hy
  rw [hids] at hx
  obtain ⟨i, -, hi, rfl⟩ := mem_idsFrom.1 hx
  obtain ⟨j, hj, hj', rfl⟩ := mem_idsFrom.1 hy
  rw [Double.lt_ofNat (by omega) (by omega)]
  exact decide_eq_true (by omega)

/-- A run below `N` is apart from a run from `N` on. -/
theorem RunBelow.apart {ids : List Double} {N : Nat} (h : RunBelow ids N) {k : Nat} (hfit : N + k ≤ 2 ^ 53) :
    Apart ids (idsFrom N k) :=
  fun x hx y hy => Double.eq_false_of_lt (h.lt hfit x hx y hy)

theorem RunBelow.increasing {ids : List Double} {N : Nat} (h : RunBelow ids N) (hfit : N ≤ 2 ^ 53) :
    ids.Pairwise fun x y => Double.lt x y = true := by
  obtain ⟨s, hs, hids⟩ := h
  rw [hids]
  exact idsFrom_increasing (by omega)

theorem RunBelow.apart_self {ids : List Double} {N : Nat} (h : RunBelow ids N) (hfit : N ≤ 2 ^ 53) :
    ids.Pairwise fun x y => Double.eq x y = false :=
  (h.increasing hfit).imp Double.eq_false_of_lt

theorem runBelow_idsFrom (N k : Nat) : RunBelow (idsFrom N k) (N + k) := ⟨N, by simp, by simp⟩

/-! ## The numbering -/

/-- The ids of each file's line breakpoints, by file. -/
def lineIds (b : BreakpointBook) : Table String (List Double) := b.lines.mapValues (·.map (·.id))

/-- The ids of the function breakpoints. -/
def functionIds (b : BreakpointBook) : List Double := b.functions.map (·.id)

/-- The ids of every live line and function breakpoint: file by file, then the functions. -/
def liveIds (b : BreakpointBook) : List Double := b.allLines.map (·.id) ++ b.functionIds

theorem liveIds_eq (b : BreakpointBook) :
    b.liveIds = (b.lineIds.entries.map (·.2)).flatten ++ b.functionIds := by
  simp [liveIds, allLines, lineIds, Table.mapValues, Table.values, List.map_flatten, Function.comp_def]

/-- The numbering of a book whose next id is the word of `N`: each file's line breakpoints and
the function breakpoints carry a run of ids below `N`, no file is listed twice, and no two
lists share an id. -/
structure Numbered (b : BreakpointBook) (N : Nat) : Prop where
  fits : N ≤ 2 ^ 53
  next : b.nextId = Double.ofNat N
  lineRuns : ∀ e ∈ b.lineIds.entries, RunBelow e.2 N
  functionRun : RunBelow b.functionIds N
  files : b.lineIds.entries.Pairwise fun e f => e.1 ≠ f.1 ∧ Apart e.2 f.2
  linesFunctions : ∀ e ∈ b.lineIds.entries, Apart e.2 b.functionIds

/-- No two live ids are equal as numbers. -/
theorem Numbered.liveIds_apart {b : BreakpointBook} {N : Nat} (h : Numbered b N) :
    b.liveIds.Pairwise fun x y => Double.eq x y = false := by
  rw [liveIds_eq, List.pairwise_append, List.pairwise_flatten, List.pairwise_map]
  refine ⟨⟨fun l hl => ?_, h.files.imp fun hef => hef.2⟩, h.functionRun.apart_self h.fits, ?_⟩
  · obtain ⟨e, he, rfl⟩ := List.mem_map.1 hl
    exact (h.lineRuns e he).apart_self h.fits
  · intro x hx y hy
    obtain ⟨l, hl, hxl⟩ := List.mem_flatten.1 hx
    obtain ⟨e, he, rfl⟩ := List.mem_map.1 hl
    exact h.linesFunctions e he x hxl y hy

/-- The ids of each file's list and of the function list increase along it. -/
theorem Numbered.ids_increasing {b : BreakpointBook} {N : Nat} (h : Numbered b N) :
    (∀ e ∈ b.lineIds.entries, e.2.Pairwise fun x y => Double.lt x y = true) ∧
      b.functionIds.Pairwise fun x y => Double.lt x y = true :=
  ⟨fun e he => (h.lineRuns e he).increasing h.fits, h.functionRun.increasing h.fits⟩

/-- Every live id is below every id handed out from `N` on. -/
theorem Numbered.lt_idsFrom {b : BreakpointBook} {N : Nat} (h : Numbered b N) {k : Nat}
    (hfit : N + k ≤ 2 ^ 53) : ∀ x ∈ b.liveIds, ∀ y ∈ idsFrom N k, Double.lt x y = true := by
  intro x hx
  rw [liveIds_eq, List.mem_append] at hx
  rcases hx with hx | hx
  · obtain ⟨l, hl, hxl⟩ := List.mem_flatten.1 hx
    obtain ⟨e, he, rfl⟩ := List.mem_map.1 hl
    exact (h.lineRuns e he).lt hfit x hxl
  · exact h.functionRun.lt hfit x hx

/-! ## Requests and the breakpoints they make -/

/-- A line breakpoint made from the request `j`: the line as requested, verified when it is a
positive integer, and no hits yet. -/
def LineMade (bp : LineBreakpoint) (j : Json) : Prop :=
  bp.line = j.member? "line" ∧ bp.verified = validLine (j.member? "line") ∧ bp.hits = 0

/-- A requested function breakpoint as callers make it: its name is a text (of at most `2^53`
units, as every text is). -/
def FunctionRequest (j : Json) : Prop := ∃ t : Text, j.member? "name" = some (.str t) ∧ t.length ≤ 2 ^ 53

/-- A function breakpoint made from the request `j`: its name as requested, verified when the
name is not empty. -/
def FunctionMade (f : FunctionBreakpoint) (j : Json) : Prop :=
  ∃ t : Text, j.member? "name" = some (.str t) ∧ f.name = .str t ∧ f.verified = !t.isEmpty

/-- A requested data breakpoint as callers make it: a record whose data id, when it has one, is
a text or `null`. -/
def DataRequest (j : Json) : Prop := j ≠ .null ∧ ∀ d, j.member? "dataId" = some d → d = .null ∨ ∃ t, d = .str t

/-- The data id a request asks to watch: a text that is not empty and has the form of data ids. -/
def requestedId (j : Json) : Option String :=
  match j.member? "dataId" with
  | some (.str t) => if !t.isEmpty && (parseDataId t.toString).isSome then some t.toString else none
  | _ => none

/-- The watch a request sets on `id`: the access it asks for (`write` when it asks none), its
conditions, and no hits yet. -/
def watchFor (id : String) (j : Json) : DataWatch :=
  ⟨id, (match j.member? "accessType" with
    | none | some .null => .string "write"
    | some a => a), j.member? "condition", j.member? "hitCondition", 0⟩

@[simp]
theorem watchFor_dataId (id : String) (j : Json) : (watchFor id j).dataId = id := rfl

theorem property_of_ne_null {j : Json} (hj : j ≠ .null) (k : String) :
    Json.property (some j) k = .ok (j.member? k) := by
  cases j with
  | null => exact absurd rfl hj
  | _ => rfl

theorem lineSpec_read {j : Json} (hj : j ≠ .null) :
    LineSpec.read j = .ok ⟨j.member? "line", j.member? "condition", j.member? "hitCondition",
      j.member? "logMessage"⟩ := by
  simp only [LineSpec.read, property_of_ne_null hj]
  rfl

/-- Readable requests make their line breakpoints in order, numbered from `n` on, and move the
counter past them. -/
theorem trackLines_ofNat : ∀ (n : Nat) (specs : List Json), (∀ j ∈ specs, j ≠ .null) →
    n + specs.length ≤ 2 ^ 53 →
    ∃ bps, trackLines (Double.ofNat n) specs = (.ok bps, bps, Double.ofNat (n + specs.length)) ∧
      List.Forall₂ LineMade bps specs ∧ bps.map (·.id) = idsFrom n specs.length
  | n, [], _, _ => ⟨[], rfl, .nil, rfl⟩
  | n, j :: rest, hs, hfit => by
    have hrest : n + 1 + rest.length ≤ 2 ^ 53 := by simp only [List.length_cons] at hfit; omega
    obtain ⟨bps, hrun, hmade, hids⟩ :=
      trackLines_ofNat (n + 1) rest (fun j hj => hs j (List.mem_cons_of_mem _ hj)) hrest
    -- the breakpoint made first is read off the step, then checked against its request
    refine ⟨?bp :: bps, ?step, .cons ?made hmade, ?ids⟩
    case step =>
      rw [show n + (j :: rest).length = n + 1 + rest.length by simp only [List.length_cons]; omega]
      simp only [trackLines, lineSpec_read (hs j List.mem_cons_self), Double.ofNat_add_one (by omega : n ≤ 2 ^ 53),
        hrun]
      rfl
    case made => exact ⟨rfl, rfl, rfl⟩
    case ids => rw [List.map_cons, hids, List.length_cons, idsFrom_succ]

/-- A working directory as the book's callers give it: none, `null` or a text. -/
def CwdGiven (cwd : Option Json) : Prop := ∀ c ∈ cwd, c = .null ∨ ∃ u, c = .str u

/-- Every path that is a text has a key. -/
theorem resolvePath_text {b : BreakpointBook} (hcwd : CwdGiven b.cwd) (t : Text) :
    ∃ path, b.resolvePath (some (.str t)) = .ok path := by
  unfold resolvePath
  cases hp : Path.isAbsolute t.toString with
  | true => exact ⟨Path.real b.files (Path.normalize t.toString), by simp [breakpointPath, pathText, hp, bind, Except.bind, pure, Except.pure]⟩
  | false =>
    -- a relative path needs the working directory, which is absent, `null` or a text
    rcases hc : b.cwd with _ | c
    · exact ⟨Path.real b.files (Path.resolve "/" t.toString),
        by simp [breakpointPath, pathText, hp, bind, Except.bind, pure, Except.pure]⟩
    · rcases hcwd c hc with rfl | ⟨u, rfl⟩
      · exact ⟨Path.real b.files (Path.resolve "/" t.toString),
          by simp [breakpointPath, pathText, hp, bind, Except.bind, pure, Except.pure]⟩
      · exact ⟨Path.real b.files (Path.resolve u.toString t.toString),
          by simp [breakpointPath, pathText, hp, bind, Except.bind, pure, Except.pure]⟩

/-- The answer to a line request: its breakpoint's id, verdict, message and line, in the file
`path`. -/
def lineResult (path : String) (bp : LineBreakpoint) : BreakpointResult :=
  ⟨some bp.id, bp.verified, bp.message, bp.line, some ⟨some (Path.baseName path), some path, none⟩⟩

/-- Setting the line breakpoints of a file with a path: the requests make their breakpoints,
numbered from `N` on, the answer lists them, and they replace the file's list. -/
theorem setLines_path {b : BreakpointBook} {N : Nat} (hnext : b.nextId = Double.ofNat N) {t : Text}
    (ht : t.isEmpty = false) {path : String} (hpath : b.resolvePath (some (.str t)) = .ok path)
    {specs : List Json} (hspecs : ∀ j ∈ specs, j ≠ .null) (hfit : N + specs.length ≤ 2 ^ 53) :
    ∃ bps notes, b.setLines (some (.str t)) (some (.arr specs)) =
        (.ok (bps.map (lineResult path)),
          { b with lines := if bps.isEmpty then b.lines.erase path else b.lines.set path bps,
                   nextId := Double.ofNat (N + specs.length) }, notes) ∧
      List.Forall₂ LineMade bps specs ∧ bps.map (·.id) = idsFrom N specs.length := by
  obtain ⟨bps, hrun, hmade, hids⟩ := trackLines_ofNat N specs hspecs hfit
  refine ⟨bps, ?notes, ?step, hmade, hids⟩
  case step =>
    simp only [setLines, Option.getD_some, Json.truthy, ht, Bool.not_false, Bool.not_true, Bool.false_eq_true,
      if_false, hpath, Json.itemsFor, bind, Except.bind, pure, Except.pure, hnext, hrun]
    rfl

theorem functionSpec_read {j : Json} (hj : j ≠ .null) :
    FunctionSpec.read j = .ok ⟨j.member? "name", j.member? "condition", j.member? "hitCondition"⟩ := by
  simp only [FunctionSpec.read, property_of_ne_null hj]
  rfl

theorem FunctionRequest.ne_null {j : Json} (hj : FunctionRequest j) : j ≠ .null := by
  obtain ⟨t, hname, -⟩ := hj
  rintro rfl
  simp [Json.member?] at hname

/-- A name that is a text is filled when it is not empty. -/
theorem nameFilled_text {t : Text} (ht : t.length ≤ 2 ^ 53) : nameFilled (some (.str t)) = .ok (!t.isEmpty) := by
  have h0 : Json.lessThan (some (.num 0)) (some (Json.ofNat t.length)) = some (decide (0 < t.length)) :=
    @Json.lessThan_ofNat 0 t.length (by norm_num) ht
  simp only [nameFilled, Json.property, Json.member?, if_true, bind, Except.bind, pure, Except.pure, h0]
  obtain ⟨units⟩ := t
  cases units <;> simp [Text.isEmpty, Text.length]

/-- Requests with text names make their function breakpoints in order, numbered from `n` on,
and move the counter past them. -/
theorem trackFunctions_ofNat : ∀ (n : Nat) (specs : List Json), (∀ j ∈ specs, FunctionRequest j) →
    n + specs.length ≤ 2 ^ 53 →
    ∃ fs, trackFunctions (Double.ofNat n) specs = (.ok fs, Double.ofNat (n + specs.length)) ∧
      List.Forall₂ FunctionMade fs specs ∧ fs.map (·.id) = idsFrom n specs.length
  | n, [], _, _ => ⟨[], rfl, .nil, rfl⟩
  | n, j :: rest, hs, hfit => by
    obtain ⟨t, hname, hlen⟩ := hs j List.mem_cons_self
    have hj : j ≠ .null := FunctionRequest.ne_null ⟨t, hname, hlen⟩
    have hrest : n + 1 + rest.length ≤ 2 ^ 53 := by simp only [List.length_cons] at hfit; omega
    obtain ⟨fs, hrun, hmade, hids⟩ :=
      trackFunctions_ofNat (n + 1) rest (fun j hj => hs j (List.mem_cons_of_mem _ hj)) hrest
    refine ⟨?f :: fs, ?step, .cons ?made hmade, ?ids⟩
    case step =>
      rw [show n + (j :: rest).length = n + 1 + rest.length by simp only [List.length_cons]; omega]
      simp only [trackFunctions, functionSpec_read hj, hname, nameFilled_text hlen, bind, Except.bind, pure,
        Except.pure, Double.ofNat_add_one (by omega : n ≤ 2 ^ 53), hrun]
      rfl
    case made => exact ⟨t, hname, rfl, rfl⟩
    case ids => rw [List.map_cons, hids, List.length_cons, idsFrom_succ]

/-- The answer to a function request: its breakpoint's id and verdict, and why a name is needed
when it is refused. -/
def functionResult (f : FunctionBreakpoint) : BreakpointResult :=
  ⟨some f.id, f.verified, if f.verified then none else some "Function name is required", none, none⟩

/-- Setting the function breakpoints: the requests make their breakpoints, numbered from `N` on,
the answer lists them, and they replace the old ones. -/
theorem setFunctions_ofNat {b : BreakpointBook} {N : Nat} (hnext : b.nextId = Double.ofNat N)
    {specs : List Json} (hspecs : ∀ j ∈ specs, FunctionRequest j) (hfit : N + specs.length ≤ 2 ^ 53) :
    ∃ fs, b.setFunctions (some (.arr specs)) =
        (.ok (fs.map functionResult), { b with functions := fs, nextId := Double.ofNat (N + specs.length) }) ∧
      List.Forall₂ FunctionMade fs specs ∧ fs.map (·.id) = idsFrom N specs.length := by
  obtain ⟨fs, hrun, hmade, hids⟩ := trackFunctions_ofNat N specs hspecs hfit
  refine ⟨fs, ?_, hmade, hids⟩
  simp only [setFunctions, Json.itemsFor, hnext, hrun]
  rfl

theorem sameKey_str (s t : Text) : Json.sameKey (.str s) (.str t) = decide (s = t) := rfl

/-- Texts are the same key exactly when they are equal, so a list of texts holds a text as a key
exactly when it holds it. -/
theorem any_sameKey_texts (us : List Text) (t : Text) :
    (us.map Json.str).any (Json.sameKey (.str t)) = decide (t ∈ us) := by
  rw [Bool.eq_iff_iff, List.any_eq_true, decide_eq_true_iff]
  constructor
  · rintro ⟨x, hx, h⟩
    obtain ⟨u, hu, rfl⟩ := List.mem_map.1 hx
    rw [sameKey_str, decide_eq_true_iff] at h
    exact h ▸ hu
  · intro h
    exact ⟨.str t, List.mem_map_of_mem h, by rw [sameKey_str]; exact decide_eq_true rfl⟩

/-- Collecting texts, each unless it is there already: the texts collected and those added, each
once. -/
theorem foldl_collect : ∀ (us ts : List Text), us.Nodup → ∃ vs : List Text,
    (ts.map Json.str).foldl (fun acc f => if acc.any (Json.sameKey f) then acc else acc ++ [f]) (us.map Json.str) =
      vs.map Json.str ∧ vs.Nodup ∧ ∀ v, v ∈ vs ↔ v ∈ us ∨ v ∈ ts
  | us, [], hus => ⟨us, rfl, hus, by simp⟩
  | us, t :: ts, hus => by
    by_cases ht : t ∈ us
    · -- a text already collected is skipped
      obtain ⟨vs, hrun, hvs, hmem⟩ := foldl_collect us ts hus
      refine ⟨vs, ?_, hvs, fun v => ?_⟩
      · rw [List.map_cons, List.foldl_cons, any_sameKey_texts, if_pos (decide_eq_true ht)]
        exact hrun
      · rw [hmem v, List.mem_cons]
        constructor
        · rintro (h | h)
          · exact .inl h
          · exact .inr (.inr h)
        · rintro (h | rfl | h)
          · exact .inl h
          · exact .inl ht
          · exact .inr h
    · have hnodup : (us ++ [t]).Nodup :=
        List.nodup_append.2 ⟨hus, List.nodup_singleton t, fun a ha b hb hab => by
          rw [List.mem_singleton] at hb
          exact ht (hb ▸ hab ▸ ha)⟩
      obtain ⟨vs, hrun, hvs, hmem⟩ := foldl_collect (us ++ [t]) ts hnodup
      refine ⟨vs, ?_, hvs, fun v => ?_⟩
      · rw [List.map_cons, List.foldl_cons, any_sameKey_texts, if_neg (by simpa using ht)]
        rw [List.map_append] at hrun
        exact hrun
      · rw [hmem v]
        simp only [List.mem_append, List.mem_cons]
        tauto

/-- Choosing exception filters among texts: each is answered by whether it is known, the known
ones are chosen, each once, and nothing else changes. -/
theorem setExceptions_texts (b : BreakpointBook) (filters : List Text) :
    List.Forall₂ (fun a t => a.verified = b.knowsFilter (.str t)) (b.setExceptions (filters.map .str)).1 filters ∧
      (∃ vs : List Text, (b.setExceptions (filters.map .str)).2.exceptionFilters = vs.map .str ∧ vs.Nodup ∧
        ∀ t, t ∈ vs ↔ t ∈ filters ∧ b.knowsFilter (.str t) = true) ∧
      (b.setExceptions (filters.map .str)).2 =
        { b with exceptionFilters := (b.setExceptions (filters.map .str)).2.exceptionFilters } := by
  refine ⟨?_, ?_, rfl⟩
  · simp only [setExceptions, List.map_map, List.forall₂_map_left_iff, Function.comp_def, List.forall₂_same]
    intro t _
    split <;> simp_all [BreakpointResult.ok, BreakpointResult.refused]
  · obtain ⟨vs, hrun, hvs, hmem⟩ := foldl_collect [] (filters.filter fun t => b.knowsFilter (.str t)) List.nodup_nil
    refine ⟨vs, ?_, hvs, fun t => ?_⟩
    · simpa [setExceptions, List.filter_map, Function.comp_def] using hrun
    · simp [hmem t]

theorem dataSpec_read {j : Json} (hj : j ≠ .null) :
    DataSpec.read j = .ok ⟨j.member? "dataId", j.member? "accessType", j.member? "condition",
      j.member? "hitCondition"⟩ := by
  simp only [DataSpec.read, property_of_ne_null hj]
  rfl

/-- A requested data breakpoint sets the watch of the data id it asks for, if it asks for a
well-formed one, and is answered by whether it does. -/
theorem dataWatchOf_request {j : Json} (hj : DataRequest j) :
    ∃ r, dataWatchOf j = .ok ((requestedId j).map (watchFor · j), r) ∧ r.verified = (requestedId j).isSome := by
  obtain ⟨hne, hid⟩ := hj
  simp only [dataWatchOf, dataSpec_read hne, bind, Except.bind]
  cases hd : j.member? "dataId" with
  | none => exact ⟨.refused "Missing dataId", by simp [keptIfTrue, requestedId, hd],
      by simp [BreakpointResult.refused, requestedId, hd]⟩
  | some d =>
    rcases hid d hd with rfl | ⟨t, rfl⟩
    · exact ⟨.refused "Missing dataId", by simp [keptIfTrue, Option.filter_some, Json.truthy, requestedId, hd],
        by simp [BreakpointResult.refused, requestedId, hd]⟩
    · cases he : t.isEmpty with
      | true =>
        exact ⟨.refused "Missing dataId", by simp [keptIfTrue, Option.filter_some, Json.truthy, requestedId, hd, he],
          by simp [BreakpointResult.refused, requestedId, hd, he]⟩
      | false =>
        -- a text that is not empty is matched against the form of data ids
        cases hp : parseDataId t.toString with
        | none =>
          exact ⟨.refused s!"Malformed dataId: {t.toString}", by
            simp [keptIfTrue, Option.filter_some, Json.truthy, requestedId, hd, he, parseDataIdOf, hp,
              Json.displayText], by simp [BreakpointResult.refused, requestedId, hd, he, hp]⟩
        | some x =>
          refine ⟨.ok, ?_, by simp [BreakpointResult.ok, requestedId, hd, he, hp]⟩
          simp [keptIfTrue, Option.filter_some, Json.truthy, requestedId, hd, he, parseDataIdOf, hp,
            Json.displayText]
          rfl

/-- Requested data breakpoints set their watches in turn over the table `W`: each is answered by
whether it asks for a well-formed id, and an id asked for finds the watch of the last request
for it; any other finds what it found in `W`. -/
theorem trackData_requests : ∀ (W : Table String DataWatch) (specs : List Json), (∀ j ∈ specs, DataRequest j) →
    ∃ rs, (trackData W specs).1 = .ok rs ∧
      List.Forall₂ (fun a j => a.verified = (requestedId j).isSome) rs specs ∧
      ∀ id, (trackData W specs).2.get? id =
        ((specs.reverse.find? fun j => requestedId j == some id).map (watchFor id)).or (W.get? id)
  | W, [], _ => ⟨[], rfl, .nil, fun id => by simp [trackData]⟩
  | W, j :: rest, hs => by
    obtain ⟨r, hw, hr⟩ := dataWatchOf_request (hs j List.mem_cons_self)
    have hrest : ∀ j ∈ rest, DataRequest j := fun j hj => hs j (List.mem_cons_of_mem _ hj)
    cases hreq : requestedId j with
    | none =>
      obtain ⟨rs, h1, h2, h3⟩ := trackData_requests W rest hrest
      rw [hreq] at hw
      refine ⟨r :: rs, by simp [trackData, hw, h1, Except.map], .cons hr h2, fun id => ?_⟩
      simp [trackData, hw, h3 id, List.find?_append, hreq]
    | some id' =>
      -- the watch is set under its id before the rest are read
      obtain ⟨rs, h1, h2, h3⟩ := trackData_requests (W.set id' (watchFor id' j)) rest hrest
      rw [hreq] at hw
      refine ⟨r :: rs, by simp [trackData, hw, h1, Except.map], .cons hr h2, fun id => ?_⟩
      have hset : (trackData W (j :: rest)).2 = (trackData (W.set id' (watchFor id' j)) rest).2 := by
        simp [trackData, hw]
      rw [hset, h3 id, Table.get?_set, same_string, List.reverse_cons, List.find?_append]
      cases hf : rest.reverse.find? fun j => requestedId j == some id with
      | some k => simp
      | none =>
        by_cases hid : id' = id
        · subst hid
          simp [hreq]
        · simp [hreq, hid]

/-- Setting data breakpoints from records as callers make them: each is answered by whether it
asks for a well-formed id, an id asked for finds the watch of the last request for it and no
other id finds one, and nothing else changes. -/
theorem setData_requests (b : BreakpointBook) {specs : List Json} (hspecs : ∀ j ∈ specs, DataRequest j) :
    (∃ rs, (b.setData (some (.arr specs))).1 = .ok rs ∧
      List.Forall₂ (fun a j => a.verified = (requestedId j).isSome) rs specs) ∧
    (∀ id, (b.setData (some (.arr specs))).2.dataWatch? id =
      (specs.reverse.find? fun j => requestedId j == some id).map (watchFor id)) ∧
    (b.setData (some (.arr specs))).2 = { b with dataWatches := (b.setData (some (.arr specs))).2.dataWatches } := by
  obtain ⟨rs, h1, h2, h3⟩ := trackData_requests .empty specs hspecs
  refine ⟨⟨rs, by simpa [setData, Json.itemsFor] using h1, h2⟩, fun id => ?_, rfl⟩
  simpa [setData, Json.itemsFor, dataWatch?, Table.get?_empty] using h3 id

/-! ## Each call keeps the numbering -/

/-- Counting a hit changes no id and no file. -/
theorem bump_ids (id : Double) : ∀ es : List (String × List LineBreakpoint),
    (hitOnce.bump id es).map (fun e => (e.1, e.2.map (·.id))) = es.map fun e => (e.1, e.2.map (·.id))
  | [] => rfl
  | (k, bps) :: rest => by
    simp only [hitOnce.bump]
    split
    · -- the hit goes to the first breakpoint with the id, whose id stays
      have hsplit : bps = bps.takeWhile (fun bp => !Double.eq bp.id id) ++
          bps.dropWhile (fun bp => !Double.eq bp.id id) :=
        List.takeWhile_append_dropWhile.symm
      simp only [List.map_cons, List.span_eq_takeWhile_dropWhile]
      conv => rhs; rw [hsplit]
      cases bps.dropWhile (fun bp => !Double.eq bp.id id) <;> simp
    · simp only [List.map_cons, bump_ids id rest]

theorem lineIds_hitOnce (b : BreakpointBook) (id : Double) : (b.hitOnce id).lineIds = b.lineIds := by
  simp only [lineIds, hitOnce, Table.mapValues, Table.mk.injEq]
  exact bump_ids id b.lines.entries

/-- Recording hits keeps whatever each single hit keeps. -/
theorem recordHits_keeps {α : Type} (f : BreakpointBook → α) (hf : ∀ b id, f (b.hitOnce id) = f b)
    (b : BreakpointBook) (ids : List Double) : f (b.recordHits ids).2 = f b := by
  simp only [recordHits]
  generalize ids.filter (fun id => (b.findLine? id).isSome) = counted
  induction counted generalizing b with
  | nil => rfl
  | cons id rest ih => rw [List.foldl_cons, ih, hf]

/-- The numbering reads only the counter and the ids of the line and function breakpoints. -/
theorem Numbered.of_ids {b b' : BreakpointBook} {N : Nat} (h : Numbered b N) (hn : b'.nextId = b.nextId)
    (hl : b'.lineIds = b.lineIds) (hf : b'.functionIds = b.functionIds) : Numbered b' N where
  fits := h.fits
  next := hn.trans h.next
  lineRuns := by rw [hl]; exact h.lineRuns
  functionRun := by rw [hf]; exact h.functionRun
  files := by rw [hl]; exact h.files
  linesFunctions := by rw [hl, hf]; exact h.linesFunctions

theorem Numbered.recordHits {b : BreakpointBook} {N : Nat} (h : Numbered b N) (ids : List Double) :
    Numbered (b.recordHits ids).2 N :=
  h.of_ids (recordHits_keeps (·.nextId) (fun _ _ => rfl) b ids) (recordHits_keeps lineIds lineIds_hitOnce b ids)
    (recordHits_keeps functionIds (fun _ _ => rfl) b ids)

theorem Numbered.clear {b : BreakpointBook} {N : Nat} (h : Numbered b N) : Numbered b.clear N where
  fits := h.fits
  next := h.next
  lineRuns := fun _ he => absurd he List.not_mem_nil
  functionRun := ⟨0, by simp [functionIds, BreakpointBook.clear], by simp [functionIds, BreakpointBook.clear, idsFrom]⟩
  files := List.Pairwise.nil
  linesFunctions := fun _ he => absurd he List.not_mem_nil

/-- Replacing a file's line breakpoints by a run from `N` on, or dropping the file when the run is
empty, keeps the numbering with the counter past the run. -/
theorem Numbered.replaceLines {b : BreakpointBook} {N k : Nat} (h : Numbered b N) (hfit : N + k ≤ 2 ^ 53)
    (path : String) {bps : List LineBreakpoint} (hids : bps.map (·.id) = idsFrom N k) :
    Numbered { b with lines := if bps.isEmpty then b.lines.erase path else b.lines.set path bps,
                      nextId := Double.ofNat (N + k) } (N + k) := by
  have hmono : ∀ e ∈ b.lineIds.entries, RunBelow e.2 (N + k) := fun e he => (h.lineRuns e he).mono (by omega)
  split
  · -- the file is dropped
    have hL : ({ b with lines := b.lines.erase path, nextId := Double.ofNat (N + k) } : BreakpointBook).lineIds =
        b.lineIds.erase path := by
      simp only [lineIds, Table.mapValues_erase]
    refine ⟨hfit, rfl, ?_, h.functionRun.mono (by omega), ?_, ?_⟩
    · rw [hL]
      exact @Table.forall_erase String (List Double) _ (fun _ ids => RunBelow ids (N + k)) _ hmono path
    · rw [hL]
      exact h.files.filter _
    · rw [hL]
      exact fun e he => h.linesFunctions e (List.mem_of_mem_filter he)
  · -- the file gets the run, apart from every other list since those lie below `N`
    have hL : ({ b with lines := b.lines.set path bps, nextId := Double.ofNat (N + k) } : BreakpointBook).lineIds =
        b.lineIds.set path (idsFrom N k) := by
      simp only [lineIds, Table.mapValues_set, hids]
    refine ⟨hfit, rfl, ?_, h.functionRun.mono (by omega), ?_, ?_⟩
    · rw [hL]
      exact @Table.forall_set String (List Double) _ (fun _ ids => RunBelow ids (N + k)) _ hmono _ _
        (runBelow_idsFrom N k) fun _ _ => runBelow_idsFrom N k
    · rw [hL]
      exact Table.pairwise_set h.files path fun e he _ =>
        ⟨(h.lineRuns e he).apart hfit, ((h.lineRuns e he).apart hfit).symm⟩
    · rw [hL]
      exact @Table.forall_set String (List Double) _ (fun _ ids => Apart ids b.functionIds) _ h.linesFunctions _ _
        (h.functionRun.apart hfit).symm fun _ _ => (h.functionRun.apart hfit).symm

/-- Replacing the function breakpoints by a run from `N` on keeps the numbering with the counter
past the run. -/
theorem Numbered.replaceFunctions {b : BreakpointBook} {N k : Nat} (h : Numbered b N) (hfit : N + k ≤ 2 ^ 53)
    {fs : List FunctionBreakpoint} (hids : fs.map (·.id) = idsFrom N k) :
    Numbered { b with functions := fs, nextId := Double.ofNat (N + k) } (N + k) where
  fits := hfit
  next := rfl
  lineRuns := fun e he => (h.lineRuns e he).mono (by omega)
  functionRun := by
    simp only [functionIds, hids]
    exact runBelow_idsFrom N k
  files := h.files
  linesFunctions := fun e he => by
    simp only [functionIds, hids]
    exact (h.lineRuns e he).apart hfit

theorem numbered_create (cwd : Option Json) (known : List Json) : Numbered (create cwd known) 1 where
  fits := by norm_num
  next := rfl
  lineRuns := fun _ he => absurd he List.not_mem_nil
  functionRun := ⟨0, by simp [functionIds, create], by simp [functionIds, create, idsFrom]⟩
  files := List.Pairwise.nil
  linesFunctions := fun _ he => absurd he List.not_mem_nil

/-- The ids of the line breakpoints of any file increase along its list. -/
theorem Numbered.linesOf_increasing {b : BreakpointBook} {N : Nat} (h : Numbered b N) {file : Option Json}
    {bps : List LineBreakpoint} (hbps : b.linesOf file = .ok bps) :
    (bps.map (·.id)).Pairwise fun x y => Double.lt x y = true := by
  simp only [linesOf, bind, Except.bind, pure, Except.pure] at hbps
  split at hbps
  · cases hbps
  · rename_i path _
    cases hbps
    cases hget : b.lines.get? path with
    | none => simp
    | some v =>
      obtain ⟨e, he, -, rfl⟩ := Table.get?_eq_some hget
      exact (h.ids_increasing).1 (e.1, e.2.map (·.id)) (List.mem_map_of_mem he)

/-! ## Runs of calls -/

/-- A setter called with requests as the book's callers make them. -/
inductive Setter where
  /-- Set the line breakpoints of a file, named by its path, or not named at all. -/
  | lines (file : Option Text) (specs : List Json)
  | functions (specs : List Json)
  | exceptions (filters : List Text)
  | data (specs : List Json)

/-- A call on a book: a setter, counting a stop against line breakpoints by id, counting a hit of
a data watch, or forgetting every breakpoint. -/
inductive Call where
  | set (s : Setter)
  | hits (ids : List Double)
  | dataHit (dataId : String)
  | clear

namespace Setter

/-- The requests are of the kinds callers make: records for line breakpoints, records with a
text name for function breakpoints, records whose data id is a text or `null` for data
breakpoints. -/
def Typed : Setter → Prop
  | .lines _ specs => ∀ j ∈ specs, j ≠ .null
  | .functions specs => ∀ j ∈ specs, FunctionRequest j
  | .exceptions _ => True
  | .data specs => ∀ j ∈ specs, DataRequest j

/-- How many ids a setter hands out: one for each line breakpoint requested for a file with a
path, one for each function breakpoint. -/
def handedOut : Setter → Nat
  | .lines (some t) specs => if t.isEmpty then 0 else specs.length
  | .lines none _ => 0
  | .functions specs => specs.length
  | .exceptions _ => 0
  | .data _ => 0

/-- The book a setter leaves. -/
def apply (b : BreakpointBook) : Setter → BreakpointBook
  | .lines file specs => (b.setLines (file.map .str) (some (.arr specs))).2.1
  | .functions specs => (b.setFunctions (some (.arr specs))).2
  | .exceptions filters => (b.setExceptions (filters.map .str)).2
  | .data specs => (b.setData (some (.arr specs))).2

end Setter

def Call.Typed : Call → Prop
  | .set s => s.Typed
  | _ => True

def Call.handedOut : Call → Nat
  | .set s => s.handedOut
  | _ => 0

/-- The book a call leaves. -/
def after (b : BreakpointBook) : Call → BreakpointBook
  | .set s => Setter.apply b s
  | .hits ids => (b.recordHits ids).2
  | .dataHit d => (b.recordDataHit d).2
  | .clear => b.clear

/-- The book a run of calls leaves. -/
def afterAll (b : BreakpointBook) (cs : List Call) : BreakpointBook := cs.foldl after b

/-- How many ids a run of calls hands out. -/
def handedOutAll (cs : List Call) : Nat := (cs.map Call.handedOut).sum

/-! ## What each setter does -/

/-- What setting the line breakpoints of a file with a path does, from a book whose next id is
`N`: the file's key is `path`; the requests make `bps`, one for each in order, numbered from `N`
on, above every live id; the answer lists them; the file's list becomes `bps` (the file is
dropped when nothing is requested); every other file keeps its list, hits included; and nothing
else changes but the counter. -/
structure LinesReplaced (b : BreakpointBook) (N : Nat) (file : Option Json) (specs : List Json)
    (path : String) (bps : List LineBreakpoint)
    (r : Except Fault (List BreakpointResult) × BreakpointBook × List Diagnostic) : Prop where
  key : b.resolvePath file = .ok path
  answer : r.1 = .ok (bps.map (lineResult path))
  made : List.Forall₂ LineMade bps specs
  numbered : bps.map (·.id) = idsFrom N specs.length
  newer : ∀ x ∈ b.liveIds, ∀ bp ∈ bps, Double.lt x bp.id = true
  replaced : r.2.1.linesOf file = .ok bps
  dropped : specs = [] → path ∉ r.2.1.sourceFiles
  others : ∀ q, q ≠ path → r.2.1.lines.get? q = b.lines.get? q
  rest : r.2.1 = { b with lines := r.2.1.lines, nextId := Double.ofNat (N + specs.length) }

/-- What setting the function breakpoints does, from a book whose next id is `N`: the requests
make `fs`, one for each in order, numbered from `N` on, above every live id; the answer lists
them; they replace the function breakpoints, and nothing else changes but the counter. -/
structure FunctionsReplaced (b : BreakpointBook) (N : Nat) (specs : List Json) (fs : List FunctionBreakpoint)
    (r : Except Fault (List BreakpointResult) × BreakpointBook) : Prop where
  answer : r.1 = .ok (fs.map functionResult)
  made : List.Forall₂ FunctionMade fs specs
  numbered : fs.map (·.id) = idsFrom N specs.length
  newer : ∀ x ∈ b.liveIds, ∀ f ∈ fs, Double.lt x f.id = true
  rest : r.2 = { b with functions := fs, nextId := Double.ofNat (N + specs.length) }

/-- What choosing exception filters does: each requested filter is answered by whether it is
known, the chosen filters are the known ones requested, each once, and nothing else changes. -/
structure FiltersChosen (b : BreakpointBook) (filters : List Text) (r : List BreakpointResult × BreakpointBook) :
    Prop where
  answer : List.Forall₂ (fun a t => a.verified = b.knowsFilter (.str t)) r.1 filters
  chosen : ∃ vs : List Text, r.2.exceptionFilters = vs.map .str ∧ vs.Nodup ∧
    ∀ t, t ∈ vs ↔ t ∈ filters ∧ b.knowsFilter (.str t) = true
  rest : r.2 = { b with exceptionFilters := r.2.exceptionFilters }

/-- What setting data breakpoints does: each request is answered by whether it asks for a
well-formed data id; the watched ids are exactly those asked for, each with the watch of the last
request for it, with no hits; and nothing else changes. -/
structure WatchesReplaced (b : BreakpointBook) (specs : List Json)
    (r : Except Fault (List BreakpointResult) × BreakpointBook) : Prop where
  answer : ∃ rs, r.1 = .ok rs ∧ List.Forall₂ (fun a j => a.verified = (requestedId j).isSome) rs specs
  watched : ∀ id, r.2.dataWatch? id = (specs.reverse.find? fun j => requestedId j == some id).map (watchFor id)
  rest : r.2 = { b with dataWatches := r.2.dataWatches }

/-- What a setter answers and leaves, from a book whose next id is `N`. Setting line breakpoints
without a path (none, or an empty one) is refused once and changes nothing. -/
def Setter.Obeys (b : BreakpointBook) (N : Nat) : Setter → Prop
  | .lines none specs => b.setLines none (some (.arr specs)) = (.ok [.refused "Source path is required"], b, [])
  | .lines (some t) specs =>
    if t.isEmpty then
      b.setLines (some (.str t)) (some (.arr specs)) = (.ok [.refused "Source path is required"], b, [])
    else ∃ path bps, LinesReplaced b N (some (.str t)) specs path bps (b.setLines (some (.str t)) (some (.arr specs)))
  | .functions specs => ∃ fs, FunctionsReplaced b N specs fs (b.setFunctions (some (.arr specs)))
  | .exceptions filters => FiltersChosen b filters (b.setExceptions (filters.map .str))
  | .data specs => WatchesReplaced b specs (b.setData (some (.arr specs)))

/-- Without a path, setting line breakpoints is refused once and changes nothing. -/
theorem setLines_refused (b : BreakpointBook) {file : Option Json} (hfile : Json.truthy (file.getD .null) = false)
    (specs : Option Json) : b.setLines file specs = (.ok [.refused "Source path is required"], b, []) := by
  simp [setLines, hfile]

/-- After a file's list is replaced, the file finds the new list. -/
theorem linesOf_replace {b : BreakpointBook} {file : Option Json} {path : String}
    (hpath : b.resolvePath file = .ok path) (bps : List LineBreakpoint) (x : Double) :
    ({ b with lines := if bps.isEmpty then b.lines.erase path else b.lines.set path bps,
               nextId := x } : BreakpointBook).linesOf file = .ok bps := by
  simp only [linesOf, resolvePath] at hpath ⊢
  rw [hpath]
  cases bps with
  | nil => simp [bind, Except.bind, pure, Except.pure, Table.get?_erase]
  | cons bp rest => simp [bind, Except.bind, pure, Except.pure, Table.get?_set]

/-- After a file's list is replaced, every other file finds what it found. -/
theorem get?_replace_other (b : BreakpointBook) (path : String) (bps : List LineBreakpoint) {q : String}
    (hq : q ≠ path) :
    (if bps.isEmpty then b.lines.erase path else b.lines.set path bps).get? q = b.lines.get? q := by
  have hpq : KeyEq.same path q = false := by simp [Ne.symm hq]
  split
  · rw [Table.get?_erase, hpq, if_neg Bool.false_ne_true]
  · rw [Table.get?_set, hpq, if_neg Bool.false_ne_true]

theorem not_mem_keys_erase {α : Type} (t : Table String α) (k : String) : k ∉ (t.erase k).keys := by
  simp [Table.keys, Table.erase]

/-- Each setter answers and leaves what `Setter.Obeys` says, from a numbered book with a working
directory as callers give it, while the ids it hands out stay within `2^53`. -/
theorem Setter.obeys {b : BreakpointBook} {N : Nat} (h : Numbered b N) (hcwd : CwdGiven b.cwd) {s : Setter}
    (hs : s.Typed) (hfit : N + s.handedOut ≤ 2 ^ 53) : s.Obeys b N := by
  cases s with
  | lines file specs =>
    cases file with
    | none => exact setLines_refused b rfl _
    | some t =>
      simp only [Setter.Obeys]
      split
      · exact setLines_refused b (by simpa [Json.truthy]) _
      · rename_i ht
        have ht' : t.isEmpty = false := by simpa using ht
        have hfit' : N + specs.length ≤ 2 ^ 53 := by simpa [Setter.handedOut, ht'] using hfit
        obtain ⟨path, hpath⟩ := resolvePath_text hcwd t
        obtain ⟨bps, notes, heq, hmade, hids⟩ := setLines_path h.next ht' hpath hs hfit'
        refine ⟨path, bps, ?_⟩
        rw [heq]
        exact {
          key := hpath
          answer := rfl
          made := hmade
          numbered := hids
          newer := fun x hx bp hbp => h.lt_idsFrom hfit' x hx bp.id (hids ▸ List.mem_map_of_mem hbp)
          replaced := linesOf_replace hpath bps _
          dropped := fun hnil => by
            have hbps : bps = [] := List.forall₂_nil_right_iff.1 (hnil ▸ hmade)
            simpa [sourceFiles, hbps] using not_mem_keys_erase b.lines path
          others := fun q hq => get?_replace_other b path bps hq
          rest := rfl }
  | functions specs =>
    obtain ⟨fs, heq, hmade, hids⟩ := setFunctions_ofNat h.next hs hfit
    refine ⟨fs, ?_⟩
    rw [heq]
    exact ⟨rfl, hmade, hids, fun x hx f hf => h.lt_idsFrom hfit x hx f.id (hids ▸ List.mem_map_of_mem hf), rfl⟩
  | exceptions filters =>
    obtain ⟨hanswer, hchosen, hrest⟩ := setExceptions_texts b filters
    exact ⟨hanswer, hchosen, hrest⟩
  | data specs =>
    obtain ⟨hanswer, hwatched, hrest⟩ := setData_requests b hs
    exact ⟨hanswer, hwatched, hrest⟩

/-! ## Every run keeps the numbering -/

theorem cwd_setLines (b : BreakpointBook) (file specs : Option Json) : (b.setLines file specs).2.1.cwd = b.cwd := by
  unfold setLines
  split
  · rfl
  · -- past the path check, every branch keeps the book's other fields
    dsimp only
    split
    · rfl
    · split <;> rfl

/-- Counting a data hit changes only the data watches. -/
theorem recordDataHit_book (b : BreakpointBook) (d : String) :
    (b.recordDataHit d).2 = { b with dataWatches := (b.recordDataHit d).2.dataWatches } := by
  simp only [recordDataHit]
  split <;> rfl

/-- No call changes the working directory. -/
theorem cwd_after (b : BreakpointBook) (c : Call) : (b.after c).cwd = b.cwd := by
  cases c with
  | set s =>
    cases s with
    | lines file specs => exact cwd_setLines b _ _
    | functions specs =>
      simp only [after, Setter.apply, setFunctions]
      split
      · rfl
      · split <;> rfl
    | exceptions filters => rfl
    | data specs => rfl
  | hits ids => exact recordHits_keeps (·.cwd) (fun _ _ => rfl) b ids
  | dataHit d => exact congrArg (·.cwd) (recordDataHit_book b d)
  | clear => rfl

/-- Every call made as callers make it keeps the numbering, moving the counter past the ids it
hands out. -/
theorem Numbered.after {b : BreakpointBook} {N : Nat} (h : Numbered b N) (hcwd : CwdGiven b.cwd) {c : Call}
    (hc : c.Typed) (hfit : N + c.handedOut ≤ 2 ^ 53) : Numbered (b.after c) (N + c.handedOut) := by
  cases c with
  | set s =>
    cases s with
    | lines file specs =>
      cases file with
      | none => simpa [BreakpointBook.after, Setter.apply, Call.handedOut, Setter.handedOut,
          @setLines_refused b none rfl] using h
      | some t =>
        cases ht : t.isEmpty with
        | true =>
          simpa [BreakpointBook.after, Setter.apply, Call.handedOut, Setter.handedOut, ht,
            @setLines_refused b (some (.str t)) (by simp [Json.truthy, ht])] using h
        | false =>
          -- the file's list becomes a run from `N` on
          have hfit' : N + specs.length ≤ 2 ^ 53 := by simpa [Call.handedOut, Setter.handedOut, ht] using hfit
          obtain ⟨path, hpath⟩ := resolvePath_text hcwd t
          obtain ⟨bps, notes, heq, -, hids⟩ := setLines_path h.next ht hpath hc hfit'
          simp only [BreakpointBook.after, Setter.apply, Option.map_some, heq, Call.handedOut, Setter.handedOut,
            ht, Bool.false_eq_true, if_false]
          exact h.replaceLines hfit' path hids
    | functions specs =>
      obtain ⟨fs, heq, -, hids⟩ := setFunctions_ofNat h.next hc hfit
      simp only [BreakpointBook.after, Setter.apply, heq, Call.handedOut, Setter.handedOut]
      exact h.replaceFunctions hfit hids
    | exceptions filters => exact h.of_ids rfl rfl rfl
    | data specs => exact h.of_ids rfl rfl rfl
  | hits ids => exact h.recordHits ids
  | dataHit d =>
    exact h.of_ids (congrArg (·.nextId) (recordDataHit_book b d) :) (congrArg lineIds (recordDataHit_book b d) :)
      (congrArg functionIds (recordDataHit_book b d) :)
  | clear => exact h.clear

/-- Every run of calls made as callers make it keeps the numbering, moving the counter past all
the ids it hands out. -/
theorem Numbered.afterAll {b : BreakpointBook} {N : Nat} (h : Numbered b N) (hcwd : CwdGiven b.cwd) {cs : List Call}
    (hcs : ∀ c ∈ cs, c.Typed) (hfit : N + handedOutAll cs ≤ 2 ^ 53) :
    Numbered (b.afterAll cs) (N + handedOutAll cs) := by
  induction cs generalizing b N with
  | nil => simpa [BreakpointBook.afterAll, handedOutAll] using h
  | cons c rest ih =>
    have hsum : handedOutAll (c :: rest) = c.handedOut + handedOutAll rest := by simp [handedOutAll]
    rw [hsum] at hfit ⊢
    have hc := h.after hcwd (hcs c List.mem_cons_self) (by omega)
    have hcwd' : CwdGiven (b.after c).cwd := by rw [cwd_after]; exact hcwd
    rw [← Nat.add_assoc]
    exact ih hc hcwd' (fun c hc => hcs c (List.mem_cons_of_mem _ hc)) (by omega)

/-- Past `2^53` the counter stalls, so the numbering needs its bound: from a counter of `2^53`,
two function breakpoints set together get one id. -/
theorem setFunctions_repeats_past_two_pow_53 {b : BreakpointBook} (hnext : b.nextId = Double.ofNat (2 ^ 53))
    {j k : Json} (hj : FunctionRequest j) (hk : FunctionRequest k) :
    ∃ f g, (b.setFunctions (some (.arr [j, k]))).2.functions = [f, g] ∧ f.id = g.id := by
  have hstall : Double.ofNat (2 ^ 53) + 1 = Double.ofNat (2 ^ 53) := by decide
  obtain ⟨t, hname, hlen⟩ := hj
  obtain ⟨u, hname', hlen'⟩ := hk
  simp only [setFunctions, Json.itemsFor, hnext, trackFunctions, functionSpec_read (FunctionRequest.ne_null ⟨t, hname, hlen⟩),
    functionSpec_read (FunctionRequest.ne_null ⟨u, hname', hlen'⟩), hname, hname', nameFilled_text hlen,
    nameFilled_text hlen', bind, Except.bind, pure, Except.pure, hstall]
  exact ⟨_, _, rfl, rfl⟩

theorem cwd_afterAll (b : BreakpointBook) (cs : List Call) : (b.afterAll cs).cwd = b.cwd := by
  induction cs generalizing b with
  | nil => rfl
  | cons c rest ih => exact (ih (b.after c)).trans (cwd_after b c)

/-- After any run of calls made as callers make them on a new book, with at most `2^53` ids
handed out in all: no two live line or function breakpoints have equal ids, the ids increase
along each file's list and along the function list, and each setter called next answers one
result per request, in order, numbers what it makes above every live id, and replaces its own
kind and nothing else. -/
theorem setters_replace_their_kind {cwd : Option Json} (hcwd : CwdGiven cwd) (known : List Json)
    {cs : List Call} (hcs : ∀ c ∈ cs, c.Typed) {s : Setter} (hs : s.Typed)
    (hfit : 1 + handedOutAll cs + s.handedOut ≤ 2 ^ 53) :
    let b := (create cwd known).afterAll cs
    (b.liveIds.Pairwise fun x y => Double.eq x y = false) ∧
      (∀ file bps, b.linesOf file = .ok bps → (bps.map (·.id)).Pairwise fun x y => Double.lt x y = true) ∧
      ((b.functions.map (·.id)).Pairwise fun x y => Double.lt x y = true) ∧
      s.Obeys b (1 + handedOutAll cs) := by
  intro b
  have hb : Numbered b (1 + handedOutAll cs) := (numbered_create cwd known).afterAll hcwd hcs (by omega)
  have hcwd' : CwdGiven b.cwd := by
    rw [cwd_afterAll]
    exact hcwd
  exact ⟨hb.liveIds_apart, fun _ _ hbps => hb.linesOf_increasing hbps, hb.ids_increasing.2,
    Setter.obeys hb hcwd' hs hfit⟩

/-- A book whose counter has reached `2^53` gives the function breakpoints `main` and `run`,
set together, one id. -/
theorem function_ids_repeat_from_two_pow_53 :
    ∃ f g, ({ create none [] with nextId := Double.ofNat (2 ^ 53) }.setFunctions
        (some (.arr [.obj [("name", .str (Text.ofString "main"))], .obj [("name", .str (Text.ofString "run"))]]))).2.functions =
      [f, g] ∧ f.id = g.id :=
  setFunctions_repeats_past_two_pow_53 rfl ⟨Text.ofString "main", rfl, by decide⟩ ⟨Text.ofString "run", rfl, by decide⟩

/-- A file's line breakpoint set, a stop counted against it and exception filters chosen, then
function breakpoints set. -/
theorem lines_hits_filters_then_functions :
    CwdGiven none ∧
      (∀ c ∈ [Call.set (.lines (some (Text.ofString "/src/app.py")) [.obj [("line", Json.ofNat 3)]]),
        .hits [Double.ofNat 1], .set (.exceptions [Text.ofString "uncaught"])], c.Typed) ∧
      (Setter.functions [.obj [("name", .str (Text.ofString "main"))]]).Typed ∧
      1 + handedOutAll [Call.set (.lines (some (Text.ofString "/src/app.py")) [.obj [("line", Json.ofNat 3)]]),
        .hits [Double.ofNat 1], .set (.exceptions [Text.ofString "uncaught"])] +
        (Setter.functions [.obj [("name", .str (Text.ofString "main"))]]).handedOut ≤ 2 ^ 53 ∧
      let b := (create none standardFilterNames).afterAll
        [Call.set (.lines (some (Text.ofString "/src/app.py")) [.obj [("line", Json.ofNat 3)]]),
          .hits [Double.ofNat 1], .set (.exceptions [Text.ofString "uncaught"])]
      (b.liveIds.Pairwise fun x y => Double.eq x y = false) ∧
        (∀ file bps, b.linesOf file = .ok bps → (bps.map (·.id)).Pairwise fun x y => Double.lt x y = true) ∧
        ((b.functions.map (·.id)).Pairwise fun x y => Double.lt x y = true) ∧
        (Setter.functions [.obj [("name", .str (Text.ofString "main"))]]).Obeys b
          (1 + handedOutAll [Call.set (.lines (some (Text.ofString "/src/app.py")) [.obj [("line", Json.ofNat 3)]]),
            .hits [Double.ofNat 1], .set (.exceptions [Text.ofString "uncaught"])]) := by
  have hcwd : CwdGiven none := fun _ hc => absurd hc (by simp)
  have hcs : ∀ c ∈ [Call.set (.lines (some (Text.ofString "/src/app.py")) [.obj [("line", Json.ofNat 3)]]),
      .hits [Double.ofNat 1], .set (.exceptions [Text.ofString "uncaught"])], c.Typed := by
    simp [Call.Typed, Setter.Typed]
  have hs : (Setter.functions [.obj [("name", .str (Text.ofString "main"))]]).Typed := by
    simp only [Setter.Typed, List.mem_singleton, forall_eq]
    exact ⟨_, rfl, by decide +kernel⟩
  have hfit : 1 + handedOutAll [Call.set (.lines (some (Text.ofString "/src/app.py")) [.obj [("line", Json.ofNat 3)]]),
      .hits [Double.ofNat 1], .set (.exceptions [Text.ofString "uncaught"])] +
      (Setter.functions [.obj [("name", .str (Text.ofString "main"))]]).handedOut ≤ 2 ^ 53 := by
    decide +kernel
  exact ⟨hcwd, hcs, hs, hfit, setters_replace_their_kind hcwd standardFilterNames hcs hs hfit⟩

end BreakpointBook

end DapBridge
