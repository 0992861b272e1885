import DapBridge.Proofs.Inspection
import DapBridge.Proofs.References

/-!
# Expanding an evaluated value

When the probe evaluates an expression to an object or an array and gives it no reference of its
own, the session hands out the next reference for the value and answers variables requests for it
itself, without the probe: one variable per own entry of the value, in property order, named by
the entry's key. A nested entry (an object or an array) is shown as `Object` or `Array(n)` and gets
the next reference, standing for the entry's value; any other entry gets reference `0` and is shown
as its text. A client that lists the value, and then each nested reference it is given, walks the
value's tree.

The registry is followed with a `ReferenceLedger` (`Follows`: the session's registry `Tracks` a
sound ledger counted from a positive start), which keeps the references live in the stop with what
they stand for. Then:

* `describeEntries_run`: describing entries hands out the ledger's next references for the nested
  ones, in turn (`allocationsOf`), and the variables describe the entries with them (`Describes`);
* `Follows.lists_entries`: a variables request for a reference live for a value is answered at once
  with the variables describing the value's entries, whatever window it asks for; with
  `resolve?` this is `Follows.expands`, the session expanding every value it holds (`Expands`);
* `Follows.runCalls`: calls on the registry keep the session following the ledger, run along them;
* `answered_evaluate_nested`: the probe's reply to such an evaluation is answered with the next
  reference, kept for the value;
* `evaluation_results_expand`: all of it put together. After the reply, along any calls that do
  not end the stop, among them the listings themselves, the value stays live under the reference
  the answer carries and every value the session holds expands.
-/

namespace DapBridge

/-- What an object reference's backing reads back as. -/
@[simp] theorem Backing.ofJson?_object_toJson (v : Json) :
    Backing.ofJson? (Backing.object v).toJson = some (.object v) := rfl

namespace World

/-- Give an engine's session another registry. -/
def setSessionRegistry (w : World) (e : Nat) (r : Registry) : World :=
  w.withExec (w.engineAt e).exec fun ex => { ex with registry := r }

variable (w : World) (e : Nat)

@[simp] theorem engineAt_setSessionRegistry (r : Registry) (j : Nat) :
    (w.setSessionRegistry e r).engineAt j = w.engineAt j := rfl

@[simp] theorem loop_setSessionRegistry (r : Registry) : (w.setSessionRegistry e r).loop = w.loop := rfl

@[simp] theorem size_setSessionRegistry (r : Registry) :
    (w.setSessionRegistry e r).execs.size = w.execs.size := Array.size_modify ..

@[simp] theorem sessionRegistry_setLoop (l : Loop Outcome Cont Turn) :
    (w.setLoop l).sessionRegistry e = w.sessionRegistry e := rfl

theorem sessionRegistry_setSessionRegistry (hx : (w.engineAt e).exec < w.execs.size) (r : Registry) :
    (w.setSessionRegistry e r).sessionRegistry e = r := by
  simp only [sessionRegistry, setSessionRegistry, engineAt_withExec, execAt_withExec, hx, and_self, if_true]

/-- Of two registries given in turn, the second is kept. -/
theorem setSessionRegistry_twice (r r' : Registry) :
    (w.setSessionRegistry e r).setSessionRegistry e r' = w.setSessionRegistry e r' := by
  have h : (w.execs.modify (w.engineAt e).exec fun ex => { ex with registry := r }).modify (w.engineAt e).exec
      (fun ex => { ex with registry := r' }) = w.execs.modify (w.engineAt e).exec fun ex => { ex with registry := r' } := by
    apply Array.ext (by simp only [Array.size_modify])
    intro j _ _
    simp only [Array.getElem_modify]
    split <;> rfl
  show ((w.setSessionRegistry e r).withExec (w.engineAt e).exec fun ex => { ex with registry := r' }) = _
  simp only [setSessionRegistry, withExec, h]

/-- Giving a session the registry it has changes nothing, also when the engine's execution is
out of range. -/
theorem setSessionRegistry_self : w.setSessionRegistry e (w.sessionRegistry e) = w := by
  have h : (w.execs.modify (w.engineAt e).exec fun ex => { ex with registry := w.sessionRegistry e }) = w.execs := by
    apply Array.ext (by simp only [Array.size_modify])
    intro j _ hj
    simp only [Array.getElem_modify]
    split
    · next hij =>
      subst hij
      simp only [sessionRegistry, execAt, Array.getD_eq_getD_getElem?, Array.getElem?_eq_getElem hj, Option.getD_some]
    · rfl
  simp only [setSessionRegistry, withExec, h]

end World

namespace Session

open Act ReferenceLedger

/-! ## Describing entries -/

/-- The calls on the registry that describing entries makes: a reference handed out for each
nested entry, in turn, standing for its value. -/
def allocationsOf (es : List (String × Json)) : List Registry.Call :=
  es.filterMap fun x => if isNested x.2 then some (.allocate (.object x.2)) else none

theorem allocationsOf_cons_leaf {x : String × Json} (hn : isNested x.2 = false) (es : List (String × Json)) :
    allocationsOf (x :: es) = allocationsOf es := by
  simp only [allocationsOf, List.filterMap_cons, hn, Bool.false_eq_true, if_false]

theorem allocationsOf_cons_nested {x : String × Json} (hn : isNested x.2 = true) (es : List (String × Json)) :
    allocationsOf (x :: es) = .allocate (.object x.2) :: allocationsOf es := by
  simp only [allocationsOf, List.filterMap_cons, hn, if_true]

/-- Describing entries never ends the stop. -/
theorem allocationsOf_keeps (es : List (String × Json)) : ∀ c ∈ allocationsOf es, c.resets = false := by
  intro c hc
  obtain ⟨x, -, hx⟩ := List.mem_filterMap.1 hc
  split at hx
  · cases hx
    rfl
  · cases hx

/-- The variables `vs` describe the entries `es`, in turn: each is named by its entry's key,
shows its value as `shownValue` does and has the kind `typeName` names; a nested entry has the
next reference from `next` on, live in `live` for the entry's value, and any other has `0`. -/
inductive Describes (live : List (Nat × Backing)) : Nat → List Variable → List (String × Json) → Prop
  | nil (next : Nat) : Describes live next [] []
  | leaf {next : Nat} {x : String × Json} {vs : List Variable} {es : List (String × Json)} :
      isNested x.2 = false → Describes live next vs es →
      Describes live next (⟨x.1, shownValue x.2, some (typeName x.2), 0, none⟩ :: vs) (x :: es)
  | nested {next : Nat} {x : String × Json} {vs : List Variable} {es : List (String × Json)} :
      isNested x.2 = true → (next, .object x.2) ∈ live → Describes live (next + 1) vs es →
      Describes live next (⟨x.1, shownValue x.2, some (typeName x.2), Double.ofNat next, none⟩ :: vs) (x :: es)

variable (w : World) (e : Nat)

theorem describeEntry_leaf {x : String × Json} (hn : isNested x.2 = false) :
    (describeEntry e x).run w = .ok ⟨x.1, shownValue x.2, some (typeName x.2), 0, none⟩ w := by
  simp only [describeEntry, hn, Bool.false_eq_true, if_false]
  rfl

theorem describeEntry_nested {x : String × Json} (hn : isNested x.2 = true) :
    (describeEntry e x).run w = .ok ⟨x.1, shownValue x.2, some (typeName x.2), (w.sessionRegistry e).nextReference, none⟩
      (w.setSessionRegistry e ((w.sessionRegistry e).allocate (some (Backing.object x.2).toJson)).2) := by
  simp only [describeEntry, hn, if_true]
  rfl

/-- Describing entries from a registry that keeps a sound ledger: the session hands out the
ledger's next references for the nested entries, in turn, and the variables describe the entries
with them. -/
theorem describeEntries_run {s : Nat} (hx : (w.engineAt e).exec < w.execs.size) (es : List (String × Json))
    {r : Registry} {L : ReferenceLedger} (hL : L.Sound s) (ht : Tracks r L)
    (hfit : L.next + (allocationsOf es).length ≤ 2 ^ 53) :
    ∃ vs, (es.mapM (describeEntry e)).run (w.setSessionRegistry e r) =
        .ok vs (w.setSessionRegistry e (r.runCalls (allocationsOf es)).1) ∧
      Describes (L.run (allocationsOf es)).1.live L.next vs es := by
  induction es generalizing r L with
  | nil => exact ⟨[], rfl, .nil _⟩
  | cons x es ih =>
    have hreg := World.sessionRegistry_setSessionRegistry w e hx r
    cases hn : isNested x.2
    case false =>
      rw [allocationsOf_cons_leaf hn] at hfit ⊢
      obtain ⟨vs, hrun, hvs⟩ := ih hL ht hfit
      refine ⟨_, ?_, .leaf hn hvs⟩
      simp only [List.mapM_cons, EStateM.run_bind, describeEntry_leaf _ e hn, hrun, EStateM.run_pure]
    case true =>
      rw [allocationsOf_cons_nested hn] at hfit ⊢
      simp only [List.length_cons] at hfit
      -- the entry takes the ledger's next reference; the rest start from the one after it
      obtain ⟨hid, ht'⟩ := ht.allocate hL (by omega) (.object x.2)
      obtain ⟨vs, hrun, hvs⟩ := ih (hL.issue (.object x.2)) ht' (by simp only [ReferenceLedger.issue]; omega)
      have hlive : (L.next, Backing.object x.2) ∈ (L.run (.allocate (.object x.2) :: allocationsOf es)).1.live :=
        (run_keeps (allocationsOf_keeps es)).1.subset (List.mem_append_right _ (List.mem_singleton_self _))
      refine ⟨_, ?_, .nested hn hlive hvs⟩
      simp only [List.mapM_cons, EStateM.run_bind, describeEntry_nested _ e hn, hreg, World.setSessionRegistry_twice,
        hrun, EStateM.run_pure, ← hid]
      rfl

/-! ## Sessions that follow a ledger -/

/-- An engine's session whose registry keeps a sound ledger, counted from `s > 0`. -/
structure Follows (w : World) (e s : Nat) (L : ReferenceLedger) : Prop where
  pos : 0 < s
  exec_lt : (w.engineAt e).exec < w.execs.size
  sound : L.Sound s
  tracks : Tracks (w.sessionRegistry e) L

variable {w e} {s : Nat} {L : ReferenceLedger}

/-- No reference the ledger counts is `0`. -/
theorem Follows.ne_zero (hf : Follows w e s L) {j : Nat} {b : Backing} (hj : (j, b) ∈ L.live)
    (hfit : L.next ≤ 2 ^ 53) : Double.eq (Double.ofNat j) 0 = false := by
  have hb := hf.sound.bounded _ hj
  simp only at hb
  show Double.eq (Double.ofNat j) (Double.ofNat 0) = false
  rw [Bool.eq_false_iff, ne_eq, Double.eq_ofNat_iff (by omega) (by norm_num)]
  have := hf.pos
  omega

/-- Listing a reference live for a value: answered at once, whatever window is asked for, with a
variable for each of the value's entries, the nested ones under the ledger's next references. -/
theorem Follows.lists_entries (hf : Follows w e s L) {j : Nat} {u : Json} (hj : (j, .object u) ∈ L.live)
    (hfit : L.next + (allocationsOf (entriesOf u)).length ≤ 2 ^ 53) (filter : Option String) (start count : Option Double) :
    ∃ vs, (listVariables e (Double.ofNat j) filter start count).run w =
        .ok w.loop.cells.size ((w.setSessionRegistry e ((w.sessionRegistry e).runCalls (allocationsOf (entriesOf u))).1).setLoop
          (w.loop.done (.ok (.vars vs))).2) ∧
      Describes (L.run (allocationsOf (entriesOf u))).1.live L.next vs (entriesOf u) := by
  have hz := hf.ne_zero hj (by omega)
  have hres := hf.tracks.resolve?_live hf.sound hf.pos (by omega) hj
  obtain ⟨vs, hrun, hvs⟩ := describeEntries_run w e hf.exec_lt (entriesOf u) hf.sound hf.tracks hfit
  rw [World.setSessionRegistry_self] at hrun
  refine ⟨vs, ?_, hvs⟩
  simp only [listVariables, hz, Bool.false_eq_true, if_false, EStateM.run_bind, registryOf_run, hres, Option.join_some,
    Option.bind_some, Backing.ofJson?_object_toJson, run_map, describeObject, hrun]
  rfl

/-- Calls on the registry keep a session following the ledger, run along them. -/
theorem Follows.runCalls (hf : Follows w e s L) {w' : World} {cs : List Registry.Call}
    (hr : w'.sessionRegistry e = ((w.sessionRegistry e).runCalls cs).1) (hx : (w'.engineAt e).exec < w'.execs.size)
    (hfit : (L.run cs).1.next ≤ 2 ^ 53 + 1) : Follows w' e s (L.run cs).1 :=
  ⟨hf.pos, hx, hf.sound.run cs, by rw [hr]; exact (hf.tracks.run hf.sound cs hfit).1⟩

/-- What a session answers for the values its ledger holds: a reference live for a value
resolves to it, and a variables request for it is answered at once, whatever window it asks
for, with variables that describe the value's entries, the nested ones under references the
request hands out. -/
def Expands (w : World) (e : Nat) (L : ReferenceLedger) : Prop :=
  ∀ j u, (j, Backing.object u) ∈ L.live → L.next + (allocationsOf (entriesOf u)).length ≤ 2 ^ 53 →
    (w.sessionRegistry e).resolve? (some (.num (Double.ofNat j))) = some (some (Backing.object u).toJson) ∧
    ∀ filter start count, ∃ vs, (listVariables e (Double.ofNat j) filter start count).run w =
        .ok w.loop.cells.size ((w.setSessionRegistry e ((w.sessionRegistry e).runCalls (allocationsOf (entriesOf u))).1).setLoop
          (w.loop.done (.ok (.vars vs))).2) ∧
      Describes (L.run (allocationsOf (entriesOf u))).1.live L.next vs (entriesOf u)

theorem Follows.expands (hf : Follows w e s L) : Expands w e L := fun _ _ hj hfit =>
  ⟨hf.tracks.resolve?_live hf.sound hf.pos (by omega) hj, hf.lists_entries hj hfit⟩

/-! ## Evaluation results -/

variable (w e)

/-- A result the probe gives no reference of its own and lists no variables for, whose value is
an object or an array, is handed the next reference, for the value. -/
theorem evaluationReference_nested {body v : Json} (hr : (Report.numberAt? body "variablesReference").getD 0 = 0)
    (hvars : ∀ xs, body.field? "variables" ≠ some (.arr xs)) (hv : body.field? "value" = some v)
    (hn : isNested v = true) :
    (evaluationReference e body).run w = .ok (w.sessionRegistry e).nextReference
      (w.setSessionRegistry e ((w.sessionRegistry e).allocate (some (Backing.object v).toJson)).2) := by
  have hz : Double.eq 0 0 = true := by decide
  simp only [evaluationReference, hr, hz, Bool.not_true, Bool.false_eq_true, if_false, hv]
  split
  · next xs h => exact absurd h (hvars xs)
  · next _ _ _ h _ => cases h; rfl
  · next _ _ _ h _ => cases h; rfl
  · next _ _ _ hobj harr =>
    -- the value is an object or an array, so one of the two branches above is taken
    cases v with
    | obj fs => exact absurd rfl (hobj fs)
    | arr xs => exact absurd rfl (harr xs)
    | _ => cases hn

/-- A body with a field is a record. -/
theorem isRecord_of_field? {body v : Json} {k : String} (h : body.field? k = some v) : isRecord body = true := by
  cases body <;> simp_all [Json.field?, isRecord, Json.isObject]

/-- The probe's reply to such an evaluation: the answer carries the next reference, and the
session keeps the value under it. -/
theorem answered_evaluate_nested {p : Nat} {expression : String} {body v : Json}
    (hr : (Report.numberAt? body "variablesReference").getD 0 = 0)
    (hvars : ∀ xs, body.field? "variables" ≠ some (.arr xs)) (hv : body.field? "value" = some v)
    (hn : isNested v = true) :
    ∃ j, (answered e p (.evaluate expression) (.ok (.json body))).run w =
        .ok () ((w.setSessionRegistry e ((w.sessionRegistry e).allocate (some (Backing.object v).toJson)).2).setLoop
          (w.loop.settle p (.ok (.json j)))) ∧
      j.field? "variablesReference" = some (.num (w.sessionRegistry e).nextReference) := by
  refine ⟨?j, ?run, ?field⟩
  case run =>
    simp only [answered, EStateM.run_bind, run_attempt, useReply, recordOf?, isRecord_of_field? hv, if_true,
      evaluationReference_nested w e hr hvars hv hn, EStateM.run_pure]
    rfl
  case field => cases Report.stringAt? body "type" <;> rfl

variable {w e}

/-- Structured evaluation results are expanded exactly. The probe's reply to an evaluation that
gives no reference of its own (none, or `0`), lists no variables and has an object or an array
`v` as its value is answered with the ledger's next reference. From then on, along any calls on
the registry that do not end the stop, `v` stays live under that reference, and the session
expands every value it holds (`Expands`): listing a reference gives the entries of its value,
and each nested entry a new reference, live for the entry's value, to list in turn. -/
theorem evaluation_results_expand (hf : Follows w e s L) {p : Nat} {expression : String} {body v : Json}
    (hr : Report.numberAt? body "variablesReference" = none ∨ Report.numberAt? body "variablesReference" = some 0)
    (hvars : ∀ xs, body.field? "variables" ≠ some (.arr xs)) (hv : body.field? "value" = some v)
    (hn : isNested v = true) (hfit : L.next < 2 ^ 53) :
    (∃ j, (w.exec (answered e p (.evaluate expression) (.ok (.json body)))).loop = w.loop.settle p (.ok (.json j)) ∧
        j.field? "variablesReference" = some (.num (Double.ofNat L.next))) ∧
      ∀ cs : List Registry.Call, (∀ c ∈ cs, c.resets = false) → ∀ w' : World,
        w'.sessionRegistry e =
          (((w.exec (answered e p (.evaluate expression) (.ok (.json body)))).sessionRegistry e).runCalls cs).1 →
        (w'.engineAt e).exec < w'.execs.size →
        (L.next, .object v) ∈ ((L.issue (.object v)).run cs).1.live ∧ Expands w' e ((L.issue (.object v)).run cs).1 := by
  have hr0 : (Report.numberAt? body "variablesReference").getD 0 = 0 := by
    rcases hr with hr | hr <;> rw [hr] <;> rfl
  obtain ⟨j, hrun, hj⟩ := @answered_evaluate_nested w e p expression body v hr0 hvars hv hn
  obtain ⟨-, ht₁⟩ := hf.tracks.allocate hf.sound (by omega) (.object v)
  have hw₁ := World.exec_of_run _ hrun
  -- after the reply the session follows the ledger with `v` issued the next reference
  have hf₁ : Follows (w.exec (answered e p (.evaluate expression) (.ok (.json body)))) e s (L.issue (.object v)) := by
    rw [hw₁]
    refine ⟨hf.pos, by simpa using hf.exec_lt, hf.sound.issue _, ?_⟩
    rw [World.sessionRegistry_setLoop, World.sessionRegistry_setSessionRegistry _ _ hf.exec_lt]
    exact ht₁
  refine ⟨⟨j, by rw [hw₁]; rfl, by rw [hj, hf.tracks.next]⟩, fun cs hcs w' hr' hx' => ⟨?_, ?_⟩⟩
  · exact (run_keeps hcs).1.subset (List.mem_append_right _ (List.mem_singleton_self _))
  · intro k u hk hfit'
    exact (hf₁.runCalls hr' hx' (by omega)).expands k u hk hfit'

/-- The probe's reply to evaluating `config`: a dictionary with a number under `a` and an object
under `b`. -/
def configReply : Json :=
  Json.object [("result", .string "{...}"), ("type", .string "dict"),
    ("value", Json.object [("a", .num 1), ("b", Json.object [("c", .string "x")])])]

/-- After the reply to evaluating `config` in the first engine, the answer carries reference
`1000`, and `1000` expands the dictionary for as long as the stop lasts. -/
theorem config_evaluation_expands :
    (∃ j, (World.asking.exec (answered 0 0 (.evaluate "config") (.ok (.json configReply)))).loop =
        World.asking.loop.settle 0 (.ok (.json j)) ∧ j.field? "variablesReference" = some (.num (Double.ofNat 1000))) ∧
      ∀ cs : List Registry.Call, (∀ c ∈ cs, c.resets = false) → ∀ w' : World,
        w'.sessionRegistry 0 =
          (((World.asking.exec (answered 0 0 (.evaluate "config") (.ok (.json configReply)))).sessionRegistry 0).runCalls
            cs).1 →
        (w'.engineAt 0).exec < w'.execs.size →
        (1000, .object (Json.object [("a", .num 1), ("b", Json.object [("c", .string "x")])])) ∈
            (((start 1000).issue (.object (Json.object [("a", .num 1), ("b", Json.object [("c", .string "x")])]))).run
              cs).1.live ∧
          Expands w' 0 (((start 1000).issue
            (.object (Json.object [("a", .num 1), ("b", Json.object [("c", .string "x")])]))).run cs).1 :=
  evaluation_results_expand
    (show Follows World.asking 0 1000 (start 1000) from ⟨by decide, by decide, sound_start 1000, Tracks.create 1000⟩)
    (Or.inl rfl) (fun _ h => by cases h) rfl rfl (by decide)

end Session

/-- Past `2^53` the references stall: an evaluated array handed `2^53` and the nested array
inside it, allocated next, get the same reference, and the reference then resolves to the
child, so walking it no longer gives the evaluated value's tree. -/
theorem nested_reference_shared_past_two_pow_53 :
    let R := (Registry.create (Double.ofNat (2 ^ 53))).runCalls
      [.allocate (.object (.arr [.arr []])), .allocate (.object (.arr []))]
    R.2 = [some (Double.ofNat (2 ^ 53)), some (Double.ofNat (2 ^ 53))] ∧
      R.1.resolve? (some (.num (Double.ofNat (2 ^ 53)))) = some (some (Backing.object (.arr [])).toJson) := by
  have hstall : Double.ofNat (2 ^ 53) + 1 = Double.ofNat (2 ^ 53) := by decide
  have hsame : KeyEq.same (some (Json.num (Double.ofNat (2 ^ 53)))) (some (Json.num (Double.ofNat (2 ^ 53)))) =
      true := by decide
  have hzero : Json.identical (some (Json.num (Double.ofNat (2 ^ 53)))) (some (Json.num 0)) = false := by
    decide +kernel
  simp only [Registry.runCalls, Registry.call, Registry.allocate, Registry.create, hstall, Registry.resolve?, hzero,
    Table.set, Table.contains, Table.empty, Table.get?, List.any_nil, List.any_cons, hsame, Bool.false_eq_true,
    ↓reduceIte, Bool.or_false, List.map_cons, List.map_nil, List.find?_cons, List.nil_append, Option.map_some,
    and_true]

end DapBridge
