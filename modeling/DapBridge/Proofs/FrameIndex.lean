import DapBridge.Proofs.References

/-!
# The frame index: frames found by id

A registry keeps the frames each thread reported (`stackFrames?`) and, beside them, an index of
frames by id (`frame?`). Giving a thread new frames forgets the ids of its old ones and records
the new ones under their ids; removing a thread forgets the ids of its frames; ending a stop
clears both.

The index is sound over every run of calls (`FrameIndex`, kept by every call in
`FrameIndex.call`): a frame found under an id has that id and is listed by some thread. It is
complete (`Complete.call`) only while no two threads list frames of one id (`Apart`): the index
keeps one frame per id, so replacing or removing one of two threads that share an id forgets
the id for both (`frame_index_forgets_shared_id`). A thread that lists one id twice has the later
frame recorded, which it lists too.

Keys are compared as values are (`Json.sameValue`): numbers by value, the two zeros as one, NaN
as itself. That is symmetric and transitive (`KeyEq.Lawful`), which is all the lookup lemmas
`Table.get?_set` and `Table.get?_erase` need; a list or an object is never the same as anything,
itself included, and is never found.
-/

namespace DapBridge

namespace Double

/-- Two words are numerically equal exactly when both are finite with one value, or both are
the same infinity. -/
theorem eq_eq_true_iff {x y : Double} : Double.eq x y = true ↔
    (∃ a m e b n f, x.decode = .finite a m e ∧ y.decode = .finite b n f ∧ value a m e = value b n f) ∨
      ∃ a, x.decode = .infinite a ∧ y.decode = .infinite a := by
  unfold Double.eq compareNum
  cases hx : x.decode with
  | nan => simp
  | infinite a =>
    cases hy : y.decode with
    | nan => simp
    | infinite b => cases a <;> cases b <;> simp
    | finite b n f => cases a <;> simp
  | finite a m e =>
    cases hy : y.decode with
    | nan => simp
    | infinite b => cases b <;> simp
    | finite b n f => simp [compareFinite_eq]

theorem eq_comm_num (x y : Double) : Double.eq x y = Double.eq y x := by
  rw [Bool.eq_iff_iff, eq_eq_true_iff, eq_eq_true_iff]
  constructor
  · rintro (⟨a, m, e, b, n, f, hx, hy, hv⟩ | ⟨a, hx, hy⟩)
    · exact .inl ⟨b, n, f, a, m, e, hy, hx, hv.symm⟩
    · exact .inr ⟨a, hy, hx⟩
  · rintro (⟨a, m, e, b, n, f, hx, hy, hv⟩ | ⟨a, hx, hy⟩)
    · exact .inl ⟨b, n, f, a, m, e, hy, hx, hv.symm⟩
    · exact .inr ⟨a, hy, hx⟩

theorem eq_trans_num {x y z : Double} (h₁ : Double.eq x y = true) (h₂ : Double.eq y z = true) :
    Double.eq x z = true := by
  rw [eq_eq_true_iff] at h₁ h₂ ⊢
  rcases h₁ with ⟨a, m, e, b, n, f, hx, hy, hv⟩ | ⟨a, hx, hy⟩ <;>
    rcases h₂ with ⟨b', n', f', c, k, g, hy', hz, hv'⟩ | ⟨b', hy', hz⟩
  · rw [hy] at hy'
    cases hy'
    exact .inl ⟨a, m, e, c, k, g, hx, hz, hv.trans hv'⟩
  · rw [hy] at hy'; cases hy'
  · rw [hy] at hy'; cases hy'
  · rw [hy] at hy'
    cases hy'
    exact .inr ⟨a, hx, hz⟩

theorem isNaN_of_eq {x y : Double} (h : Double.eq x y = true) : x.isNaN = false ∧ y.isNaN = false := by
  rw [eq_eq_true_iff] at h
  rcases h with ⟨a, m, e, b, n, f, hx, hy, -⟩ | ⟨a, hx, hy⟩ <;> simp [isNaN, hx, hy]

end Double

namespace Json

theorem sameKey_comm (a b : Json) : sameKey a b = sameKey b a := by
  cases a <;> cases b <;> simp only [sameKey, Double.eq_comm_num, Bool.and_comm] <;> simp [eq_comm]

theorem sameKey_trans {a b c : Json} (h₁ : sameKey a b = true) (h₂ : sameKey b c = true) : sameKey a c = true := by
  cases a <;> cases b <;> cases c <;> simp only [sameKey, Bool.false_eq_true] at h₁ h₂ ⊢
  case bool.bool.bool =>
    rw [beq_iff_eq] at h₁ h₂ ⊢
    exact h₁.trans h₂
  case num.num.num x y z =>
    simp only [Bool.or_eq_true, Bool.and_eq_true] at h₁ h₂ ⊢
    rcases h₁ with h₁ | ⟨hx, hy⟩ <;> rcases h₂ with h₂ | ⟨hy', hz⟩
    · exact .inl (Double.eq_trans_num h₁ h₂)
    · -- a number equal to another is no NaN
      simp [(Double.isNaN_of_eq h₁).2] at hy'
    · simp [(Double.isNaN_of_eq h₂).1] at hy
    · exact .inr ⟨hx, hz⟩
  case str.str.str =>
    rw [beq_iff_eq] at h₁ h₂ ⊢
    exact h₁.trans h₂

end Json

/-- Key sameness that is symmetric and transitive. A key need not be the same as itself: a list
or an object never is, and a table never finds one. -/
class KeyEq.Lawful (κ : Type) [KeyEq κ] : Prop where
  symm : ∀ a b : κ, KeyEq.same a b = KeyEq.same b a
  trans : ∀ {a b c : κ}, KeyEq.same a b = true → KeyEq.same b c = true → KeyEq.same a c = true

namespace Table

variable {κ α : Type} [KeyEq κ] [KeyEq.Lawful κ]

/-- Two keys the same as a third are the same as each other. -/
theorem same_of_same {a b c : κ} (hab : KeyEq.same a b = true) (hac : KeyEq.same a c = true) :
    KeyEq.same b c = true :=
  KeyEq.Lawful.trans (by rwa [KeyEq.Lawful.symm]) hac

/-- Two keys the same as a third, on the right, are the same as each other. -/
theorem same_of_same_right {a b c : κ} (hab : KeyEq.same a b = true) (hcb : KeyEq.same c b = true) :
    KeyEq.same a c = true :=
  KeyEq.Lawful.trans hab (by rwa [KeyEq.Lawful.symm])

/-- Keys that are the same look up the same value. -/
theorem get?_congr (t : Table κ α) {k q : κ} (h : KeyEq.same k q = true) : t.get? k = t.get? q := by
  unfold get?
  congr 1
  exact List.find?_congr fun e _ =>
    Bool.eq_iff_iff.2 ⟨fun he => KeyEq.Lawful.trans he h, fun he => same_of_same_right he h⟩

omit [KeyEq.Lawful κ] in
/-- What a lookup finds is the value of an entry whose key is the same as the one asked for. -/
theorem get?_eq_some {t : Table κ α} {q : κ} {v : α} (h : t.get? q = some v) :
    ∃ e ∈ t.entries, KeyEq.same e.1 q = true ∧ e.2 = v := by
  obtain ⟨e, he, rfl⟩ := Option.map_eq_some_iff.1 h
  have hq : KeyEq.same e.1 q = true := by simpa using List.find?_some he
  exact ⟨e, List.mem_of_find?_eq_some he, hq, rfl⟩

omit [KeyEq.Lawful κ] in
theorem get?_empty (q : κ) : (empty : Table κ α).get? q = none := rfl

/-- Setting a key: a key the same as it now finds the new value, any other what it found. -/
theorem get?_set (t : Table κ α) (k q : κ) (v : α) :
    (t.set k v).get? q = if KeyEq.same k q then some v else t.get? q := by
  unfold set
  split
  · rename_i hc
    simp only [get?, List.find?_map]
    -- the map keeps every key, so the lookup finds the same entry
    have hp : ((fun x : κ × α => KeyEq.same x.1 q) ∘
        fun x : κ × α => if KeyEq.same x.1 k = true then (x.1, v) else (x.1, x.2)) =
          fun x => KeyEq.same x.1 q := by
      funext x
      simp only [Function.comp]
      split <;> rfl
    rw [hp]
    cases hf : List.find? (fun x => KeyEq.same x.1 q) t.entries with
    | none =>
      -- nothing is the same as `q`, so neither is `k`, which is present
      obtain ⟨e, he, hek⟩ := List.any_eq_true.1 hc
      have hk : KeyEq.same k q = false := by
        cases h : KeyEq.same k q
        · rfl
        · exact absurd (KeyEq.Lawful.trans hek h) (List.find?_eq_none.1 hf e he)
      simp [hk]
    | some e =>
      have heq : KeyEq.same e.1 q = true := by simpa using List.find?_some hf
      by_cases hk : KeyEq.same k q = true
      · have hek : KeyEq.same e.1 k = true := same_of_same_right heq hk
        simp [hk, hek]
      · have hek : KeyEq.same e.1 k = false := by
          cases h : KeyEq.same e.1 k
          · rfl
          · exact absurd (same_of_same h heq) hk
        simp [hk, hek]
  · rename_i hc
    simp only [get?, List.find?_append]
    cases hf : List.find? (fun x => KeyEq.same x.1 q) t.entries with
    | none =>
      simp only [Option.none_or, List.find?_cons, List.find?_nil]
      split <;> simp_all
    | some e =>
      -- an entry the same as `q` is there, so `k` the same as `q` would be present
      have heq : KeyEq.same e.1 q = true := by simpa using List.find?_some hf
      have hk : KeyEq.same k q = false := by
        cases h : KeyEq.same k q
        · rfl
        · have hek : KeyEq.same e.1 k = true := same_of_same_right heq h
          exact absurd (List.any_eq_true.2 ⟨e, List.mem_of_find?_eq_some hf, hek⟩) hc
      simp [hk]

/-- Erasing a key: a key the same as it finds nothing, any other what it found. -/
theorem get?_erase (t : Table κ α) (k q : κ) :
    (t.erase k).get? q = if KeyEq.same k q then none else t.get? q := by
  simp only [erase, get?, List.find?_filter]
  split
  · rename_i hk
    -- what is the same as `q` is the same as `k`, and is gone
    rw [List.find?_eq_none.2]
    · rfl
    · intro e _ he
      simp only [Bool.not_eq_true', decide_eq_true_eq] at he
      have := same_of_same_right he.2 hk
      simp_all
  · rename_i hk
    congr 1
    refine List.find?_congr fun e _ => ?_
    cases h : KeyEq.same e.1 q
    · simp
    · have : KeyEq.same e.1 k = false := by
        cases h' : KeyEq.same e.1 k
        · rfl
        · exact absurd (same_of_same h' h) hk
      simp [this]

end Table

instance : KeyEq.Lawful (Option Json) where
  symm a b := by
    cases a <;> cases b <;> simp only [KeyEq.same, Json.sameValue, Json.sameKey_comm]
  trans {a b c} h₁ h₂ := by
    cases a <;> cases b <;> cases c <;> simp only [KeyEq.same, Json.sameValue, Bool.false_eq_true] at h₁ h₂ ⊢
    exact Json.sameKey_trans h₁ h₂

namespace Registry

/-! ## Frames, their ids and the stacks that list them -/

/-- The key a frame is recorded under: its `id`. -/
def frameKey (f : Json) : Option Json := f.member? "id"

/-- Thread `t` lists frame `f` among the frames it reported last. -/
def Lists (r : Registry) (t : Option Json) (f : Json) : Prop :=
  ∃ xs, r.stackFrames? t = some (some (.arr xs)) ∧ f ∈ xs

/-- Every stack kept is a list of frames that have an id to read. -/
def Stored (r : Registry) : Prop :=
  ∀ t v, r.stackFrames? t = some v → ∃ xs, v = some (.arr xs) ∧ ∀ x ∈ xs, x ≠ .null

theorem property_id {f : Json} (hf : f ≠ .null) : Json.property (some f) "id" = .ok (frameKey f) := by
  cases f with
  | null => exact absurd rfl hf
  | _ => rfl

/-- Threads that are the same key list the same frames. -/
theorem lists_congr (r : Registry) {t u : Option Json} (h : KeyEq.same t u = true) (f : Json) :
    r.Lists t f ↔ r.Lists u f := by
  unfold Lists stackFrames?
  rw [Table.get?_congr _ h]

/-- Forgetting frames that each have an id to read erases their ids from the index, one after
the other, and leaves the stacks alone. -/
theorem forgetFrames_spec (r : Registry) {fs : List Json} (hfs : ∀ f ∈ fs, f ≠ .null) :
    ∃ r', r.forgetFrames fs = (.ok r', r') ∧ r'.framesByThread = r.framesByThread ∧
      (∀ q, (∀ f ∈ fs, KeyEq.same (frameKey f) q = false) → r'.frame? q = r.frame? q) ∧
      (∀ q, ∀ f ∈ fs, KeyEq.same (frameKey f) q = true → r'.frame? q = none) := by
  induction fs generalizing r with
  | nil => exact ⟨r, rfl, rfl, fun _ _ => rfl, fun _ f hf => absurd hf List.not_mem_nil⟩
  | cons f fs ih =>
    obtain ⟨r', hr', hs, hkeep, hgone⟩ := ih { r with framesById := r.framesById.erase (frameKey f) }
      fun g hg => hfs g (List.mem_cons_of_mem f hg)
    refine ⟨r', ?_, hs, fun q hq => ?_, fun q g hg hgq => ?_⟩
    · simp only [forgetFrames, property_id (hfs f List.mem_cons_self), hr']
    · rw [hkeep q fun g hg => hq g (List.mem_cons_of_mem f hg)]
      simp only [frame?, Table.get?_erase, hq f List.mem_cons_self, Bool.false_eq_true, if_false]
    · by_cases hrest : ∃ g' ∈ fs, KeyEq.same (frameKey g') q = true
      · obtain ⟨g', hg', h'⟩ := hrest
        exact hgone q g' hg' h'
      · -- no later frame has the id, so it went with the first, which is `g`
        push Not at hrest
        have hg₀ : g = f := by
          rcases List.mem_cons.1 hg with rfl | hg
          · rfl
          · exact absurd hgq (by simp [hrest g hg])
        subst hg₀
        rw [hkeep q fun g' hg' => by simpa using hrest g' hg']
        simp [frame?, Table.get?_erase, hgq]

/-- Recording frames that each have an id to read: an id none of them has is looked up as
before, and an id one of them has finds one of them with it. -/
theorem recordFrames_spec (r : Registry) {fs : List Json} (hfs : ∀ f ∈ fs, f ≠ .null) :
    ∃ r', r.recordFrames fs = (.ok r', r') ∧ r'.framesByThread = r.framesByThread ∧
      (∀ q, (∀ f ∈ fs, KeyEq.same (frameKey f) q = false) → r'.frame? q = r.frame? q) ∧
      (∀ q, ∀ f ∈ fs, KeyEq.same (frameKey f) q = true →
        ∃ g ∈ fs, KeyEq.same (frameKey g) q = true ∧ r'.frame? q = some (some g)) := by
  induction fs generalizing r with
  | nil => exact ⟨r, rfl, rfl, fun _ _ => rfl, fun _ f hf => absurd hf List.not_mem_nil⟩
  | cons f fs ih =>
    obtain ⟨r', hr', hs, hkeep, hfound⟩ := ih { r with framesById := r.framesById.set (frameKey f) (some f) }
      fun g hg => hfs g (List.mem_cons_of_mem f hg)
    refine ⟨r', ?_, hs, fun q hq => ?_, fun q g hg hgq => ?_⟩
    · simp only [recordFrames, property_id (hfs f List.mem_cons_self), hr']
    · rw [hkeep q fun g hg => hq g (List.mem_cons_of_mem f hg)]
      simp only [frame?, Table.get?_set, hq f List.mem_cons_self, Bool.false_eq_true, if_false]
    · by_cases hrest : ∃ g' ∈ fs, KeyEq.same (frameKey g') q = true
      · -- a later frame with the id is recorded last
        obtain ⟨g', hg', h'⟩ := hrest
        obtain ⟨g'', hg'', h'', hv⟩ := hfound q g' hg' h'
        exact ⟨g'', List.mem_cons_of_mem f hg'', h'', hv⟩
      · push Not at hrest
        have hg₀ : g = f := by
          rcases List.mem_cons.1 hg with rfl | hg
          · rfl
          · exact absurd hgq (by simp [hrest g hg])
        subst hg₀
        refine ⟨g, List.mem_cons_self, hgq, ?_⟩
        rw [hkeep q fun g' hg' => by simpa using hrest g' hg']
        simp [frame?, Table.get?_set, hgq]

/-- Forgetting a thread's frames, when every stack is a list of frames with an id to read: the
ids of the frames it lists are erased and nothing else changes in the index or the stacks. -/
theorem forgetThreadFrames_spec {r : Registry} (hst : r.Stored) (what : String) (t : Option Json) :
    ∃ r', r.forgetThreadFrames what t = (.ok r', r') ∧ r'.framesByThread = r.framesByThread ∧
      (∀ q, (∀ f, r.Lists t f → KeyEq.same (frameKey f) q = false) → r'.frame? q = r.frame? q) ∧
      (∀ q f, r.Lists t f → KeyEq.same (frameKey f) q = true → r'.frame? q = none) := by
  unfold forgetThreadFrames
  cases h : r.framesByThread.get? t with
  | none =>
    -- the thread lists nothing
    refine ⟨r, rfl, rfl, fun _ _ => rfl, fun q f ⟨xs, hxs, _⟩ _ => ?_⟩
    simp [stackFrames?, h] at hxs
  | some v =>
    obtain ⟨xs, rfl, hnull⟩ := hst t _ h
    have hl : ∀ f, r.Lists t f ↔ f ∈ xs := fun f => by simp [Lists, stackFrames?, h]
    obtain ⟨r', hr', hs, hkeep, hgone⟩ := r.forgetFrames_spec hnull
    refine ⟨r', ?_, hs, fun q hq => hkeep q fun f hf => hq f ((hl f).2 hf),
      fun q f hf hfq => hgone q f ((hl f).1 hf) hfq⟩
    simp [Json.truthy, framesIn, hr']

/-- Giving a thread that is a key a list of frames that each have an id to read: its stack is the
new list; the index forgets the ids of the frames it listed and then records the new frames under
theirs. -/
theorem setStackFrames_spec {r : Registry} (hst : r.Stored) {t : Option Json} {xs : List Json} (hxs : ∀ x ∈ xs, x ≠ .null) :
    (∀ u, (r.setStackFrames t (some (.arr xs))).2.stackFrames? u =
        if KeyEq.same t u then some (some (.arr xs)) else r.stackFrames? u) ∧
      (∀ q, (∀ f ∈ xs, KeyEq.same (frameKey f) q = false) →
        (∀ f, r.Lists t f → KeyEq.same (frameKey f) q = false) →
          (r.setStackFrames t (some (.arr xs))).2.frame? q = r.frame? q) ∧
      (∀ q, (∀ f ∈ xs, KeyEq.same (frameKey f) q = false) → ∀ f, r.Lists t f →
        KeyEq.same (frameKey f) q = true → (r.setStackFrames t (some (.arr xs))).2.frame? q = none) ∧
      (∀ q, ∀ f ∈ xs, KeyEq.same (frameKey f) q = true →
        ∃ g ∈ xs, KeyEq.same (frameKey g) q = true ∧
          (r.setStackFrames t (some (.arr xs))).2.frame? q = some (some g)) := by
  obtain ⟨r₁, hr₁, hs₁, hkeep₁, hgone₁⟩ := forgetThreadFrames_spec hst "previous" t
  obtain ⟨r₂, hr₂, hs₂, hkeep₂, hfound₂⟩ :=
    recordFrames_spec { r₁ with framesByThread := r₁.framesByThread.set t (some (.arr xs)) } hxs
  have hset : (r.setStackFrames t (some (.arr xs))).2 = r₂ := by
    simp only [setStackFrames, hr₁, framesIn, hr₂]
  rw [hset]
  refine ⟨fun u => ?_, fun q hq hold => ?_, fun q hq f hf hfq => ?_, hfound₂⟩
  · simp only [stackFrames?, hs₂, Table.get?_set, hs₁]
  · rw [hkeep₂ q hq]
    exact hkeep₁ q hold
  · rw [hkeep₂ q hq]
    exact hgone₁ q f hf hfq

/-- Removing a thread, when every stack is a list of frames with an id to read: it has no stack
any more, and the ids of the frames it listed are erased from the index. -/
theorem removeThread_spec {r : Registry} (hst : r.Stored) (t : Option Json) :
    (∀ u, (r.removeThread t).2.stackFrames? u = if KeyEq.same t u then none else r.stackFrames? u) ∧
      (∀ q, (∀ f, r.Lists t f → KeyEq.same (frameKey f) q = false) →
        (r.removeThread t).2.frame? q = r.frame? q) ∧
      (∀ q f, r.Lists t f → KeyEq.same (frameKey f) q = true → (r.removeThread t).2.frame? q = none) := by
  obtain ⟨r₁, hr₁, hs₁, hkeep₁, hgone₁⟩ := forgetThreadFrames_spec hst "frames" t
  simp only [removeThread, hr₁]
  refine ⟨fun u => ?_, fun q hq => ?_, fun q f hf hfq => ?_⟩
  · cases h : r.framesByThread.get? t with
    | none =>
      -- nothing was kept for the thread, nor for any key the same as it
      have hu : KeyEq.same t u = true → r.framesByThread.get? u = none := fun htu => by
        rw [← Table.get?_congr _ htu, h]
      simp only [hs₁, h, Option.join_none, Option.map_none, Option.getD_none, Bool.false_eq_true, if_false]
      split
      · exact hu ‹_›
      · rfl
    | some v =>
      obtain ⟨xs, rfl, -⟩ := hst t _ h
      simp [hs₁, h, Json.truthy, stackFrames?, Table.get?_erase]
  · split <;> exact hkeep₁ q hq
  · split <;> exact hgone₁ q f hf hfq

/-! ## The stacks and the index along a run of calls -/

/-- What frames live in: the stacks and the index. -/
def framePart (r : Registry) : Table (Option Json) (Option Json) × Table (Option Json) (Option Json) :=
  (r.framesByThread, r.framesById)

/-- A call whose frames, when it gives any, are a list of values with an id to read, for a thread
that is a key. -/
def Call.Framed : Call → Prop
  | .setStackFrames t frames => KeyEq.same t t = true ∧ ∃ xs, frames = some (.arr xs) ∧ ∀ x ∈ xs, x ≠ .null
  | _ => True

/-- The index is sound, and every stack is a list of frames with an id to read: what the index
finds under an id is a frame with that id that some thread lists. -/
structure FrameIndex (r : Registry) : Prop where
  stored : r.Stored
  sound : ∀ q v, r.frame? q = some v → ∃ f, v = some f ∧ KeyEq.same (frameKey f) q = true ∧ ∃ t, r.Lists t f

/-- The index is complete: every frame a thread lists is found under its id. -/
def Complete (r : Registry) : Prop :=
  ∀ t f q, r.Lists t f → KeyEq.same (frameKey f) q = true → (r.frame? q).isSome

/-- No two threads that are different keys list frames whose ids are the same key. -/
def Apart (r : Registry) : Prop :=
  ∀ t u f g, r.Lists t f → r.Lists u g → KeyEq.same (frameKey f) (frameKey g) = true → KeyEq.same t u = true

/-- A call changes the frames only when it gives or removes a stack or ends the stop. -/
theorem framePart_call (r : Registry) (x : Call) :
    (r.call x).1.framePart = r.framePart ∨ (∃ t v, x = .setStackFrames t v) ∨ (∃ t, x = .removeThread t) ∨
      x = .resetStopState ∨ x = .clearAll := by
  cases x with
  | addThread id name =>
    left
    simp only [call, addThread]
    split <;> rfl
  | markThreadStopped id stopped =>
    left
    simp only [call, markThreadStopped, addThread]
    split
    · rfl
    · split <;> rfl
  | setFrameLocals | allocate => exact .inl rfl
  | scopeReference f sc =>
    left
    simp only [call, scopeReference]
    split <;> rfl
  | cacheProbeVariables reference vs =>
    left
    simp only [call, cacheProbeVariables]
    split
    · split <;> rfl
    · rfl
  | setStackFrames t v => exact .inr (.inl ⟨t, v, rfl⟩)
  | removeThread t => exact .inr (.inr (.inl ⟨t, rfl⟩))
  | resetStopState => exact .inr (.inr (.inr (.inl rfl)))
  | clearAll => exact .inr (.inr (.inr (.inr rfl)))

theorem lists_of_framePart {r r' : Registry} (h : r'.framePart = r.framePart) (t : Option Json) (f : Json) :
    r'.Lists t f ↔ r.Lists t f := by
  simp only [Lists, stackFrames?, (Prod.mk.inj h).1]

theorem frame?_of_framePart {r r' : Registry} (h : r'.framePart = r.framePart) (q : Option Json) :
    r'.frame? q = r.frame? q := by
  simp only [frame?, (Prod.mk.inj h).2]

theorem FrameIndex.of_framePart {r r' : Registry} (hr : r.FrameIndex) (h : r'.framePart = r.framePart) :
    r'.FrameIndex where
  stored t v hv := hr.stored t v (by rwa [stackFrames?, (Prod.mk.inj h).1] at hv)
  sound q v hv := by
    obtain ⟨f, hf, hfq, t, ht⟩ := hr.sound q v (by rwa [frame?_of_framePart h] at hv)
    exact ⟨f, hf, hfq, t, (lists_of_framePart h t f).2 ht⟩

theorem Complete.of_framePart {r r' : Registry} (hr : r.Complete) (h : r'.framePart = r.framePart) :
    r'.Complete := fun t f q ht hfq => by
  rw [frame?_of_framePart h]
  exact hr t f q ((lists_of_framePart h t f).1 ht) hfq

theorem Apart.of_framePart {r r' : Registry} (hr : r.Apart) (h : r'.framePart = r.framePart) :
    r'.Apart := fun t u f g ht hu hfg =>
  hr t u f g ((lists_of_framePart h t f).1 ht) ((lists_of_framePart h u g).1 hu) hfg

/-- With no stacks and an empty index, nothing is listed and nothing found. -/
theorem FrameIndex.of_empty {r : Registry} (h : r.framePart = (.empty, .empty)) : r.FrameIndex where
  stored t v hv := by simp [stackFrames?, (Prod.mk.inj h).1, Table.get?_empty] at hv
  sound q v hv := by simp [frame?, (Prod.mk.inj h).2, Table.get?_empty] at hv

theorem not_lists_of_empty {r : Registry} (h : r.framePart = (.empty, .empty)) (t : Option Json) (f : Json) :
    ¬ r.Lists t f := by
  rintro ⟨xs, hxs, -⟩
  simp [stackFrames?, (Prod.mk.inj h).1, Table.get?_empty] at hxs

theorem framePart_resetStopState (r : Registry) : r.resetStopState.framePart = (.empty, .empty) := rfl

theorem framePart_clearAll (r : Registry) : r.clearAll.framePart = (.empty, .empty) := rfl

theorem framePart_create (start : Double) : (create start).framePart = (.empty, .empty) := rfl

/-- After a call that sets the stack of `t` to `s` and keeps every other, a thread lists what
`s` lists when it is the same key as `t`, and what it listed before otherwise. -/
theorem lists_of_stack {r r' : Registry} {t : Option Json} {s : Option (Option Json)}
    (h : ∀ u, r'.stackFrames? u = if KeyEq.same t u then s else r.stackFrames? u) (u : Option Json) (f : Json) :
    r'.Lists u f ↔ if KeyEq.same t u then ∃ xs, s = some (some (.arr xs)) ∧ f ∈ xs else r.Lists u f := by
  unfold Lists
  rw [h u]
  split <;> rfl

/-- The index stays sound when a thread gets a list of frames: a frame it finds was recorded
from the new list, or was found before, by an id no frame of the thread's old list has, and so
is listed by a thread other than it. -/
theorem FrameIndex.setStackFrames {r : Registry} (hr : r.FrameIndex) {t : Option Json} (ht : KeyEq.same t t = true)
    {xs : List Json} (hxs : ∀ x ∈ xs, x ≠ .null) : (r.setStackFrames t (some (.arr xs))).2.FrameIndex := by
  obtain ⟨hstack, hkeep, hgone, hfound⟩ := setStackFrames_spec hr.stored hxs
  have hl := lists_of_stack hstack
  refine ⟨fun u v hv => ?_, fun q v hv => ?_⟩
  · rw [hstack u] at hv
    split at hv
    · exact ⟨xs, (Option.some.inj hv).symm, hxs⟩
    · exact hr.stored u v hv
  by_cases hnew : ∃ f ∈ xs, KeyEq.same (frameKey f) q = true
  · obtain ⟨f, hf, hfq⟩ := hnew
    obtain ⟨g, hg, hgq, hgv⟩ := hfound q f hf hfq
    rw [hgv] at hv
    refine ⟨g, (Option.some.inj hv).symm, hgq, t, ?_⟩
    rw [hl, if_pos ht]
    exact ⟨xs, rfl, hg⟩
  push Not at hnew
  replace hnew : ∀ f ∈ xs, KeyEq.same (frameKey f) q = false := fun f hf => by simpa using hnew f hf
  by_cases hold : ∃ f, r.Lists t f ∧ KeyEq.same (frameKey f) q = true
  · obtain ⟨f, hf, hfq⟩ := hold
    rw [hgone q hnew f hf hfq] at hv
    cases hv
  push Not at hold
  rw [hkeep q hnew fun f hf => by simpa using hold f hf] at hv
  obtain ⟨f, hfv, hfq, u, hu⟩ := hr.sound q v hv
  refine ⟨f, hfv, hfq, u, ?_⟩
  rw [hl]
  split
  · -- `u` is the thread that was given the list, whose old frames lack the id
    rename_i htu
    exact absurd hfq (hold f ((lists_congr r htu f).2 hu))
  · exact hu

/-- The index stays sound when a thread is removed: a frame it finds has an id no frame of the
thread had, and so is listed by a thread other than it. -/
theorem FrameIndex.removeThread {r : Registry} (hr : r.FrameIndex) (t : Option Json) :
    (r.removeThread t).2.FrameIndex := by
  obtain ⟨hstack, hkeep, hgone⟩ := removeThread_spec hr.stored t
  have hl := lists_of_stack hstack
  refine ⟨fun u v hv => ?_, fun q v hv => ?_⟩
  · rw [hstack u] at hv
    split at hv
    · cases hv
    · exact hr.stored u v hv
  by_cases hold : ∃ f, r.Lists t f ∧ KeyEq.same (frameKey f) q = true
  · obtain ⟨f, hf, hfq⟩ := hold
    rw [hgone q f hf hfq] at hv
    cases hv
  push Not at hold
  rw [hkeep q fun f hf => by simpa using hold f hf] at hv
  obtain ⟨f, hfv, hfq, u, hu⟩ := hr.sound q v hv
  refine ⟨f, hfv, hfq, u, ?_⟩
  rw [hl]
  split
  · rename_i htu
    exact absurd hfq (hold f ((lists_congr r htu f).2 hu))
  · exact hu

/-- Every call keeps the index sound. -/
theorem FrameIndex.call {r : Registry} (hr : r.FrameIndex) {x : Call} (hx : x.Framed) : (r.call x).1.FrameIndex := by
  rcases framePart_call r x with h | ⟨t, v, rfl⟩ | ⟨t, rfl⟩ | rfl | rfl
  · exact hr.of_framePart h
  · obtain ⟨ht, xs, rfl, hxs⟩ := hx
    exact hr.setStackFrames ht hxs
  · exact hr.removeThread t
  · exact FrameIndex.of_empty (framePart_resetStopState r)
  · exact FrameIndex.of_empty (framePart_clearAll r)

theorem FrameIndex.runCalls {r : Registry} (hr : r.FrameIndex) {cs : List Call} (hcs : ∀ x ∈ cs, x.Framed) :
    (r.runCalls cs).1.FrameIndex := by
  induction cs generalizing r with
  | nil => exact hr
  | cons x cs ih =>
    exact ih (hr.call (hcs x List.mem_cons_self)) fun y hy => hcs y (List.mem_cons_of_mem x hy)

/-! ## Checking that threads keep their ids apart -/

/-- The frames a stored stack lists. -/
def stackItems : Option Json → List Json
  | some (.arr xs) => xs
  | _ => []

/-- A check of `Apart` that runs: two kept stacks of threads that are different keys list no
frames whose ids are the same key. -/
def apartCheck (r : Registry) : Bool :=
  r.framesByThread.entries.all fun e₁ => r.framesByThread.entries.all fun e₂ =>
    KeyEq.same e₁.1 e₂.1 ||
      (stackItems e₁.2).all fun f => (stackItems e₂.2).all fun g => !KeyEq.same (frameKey f) (frameKey g)

/-- A thread lists a frame only through a kept stack under a key the same as it. -/
theorem lists_entry {r : Registry} {t : Option Json} {f : Json} (h : r.Lists t f) :
    ∃ e ∈ r.framesByThread.entries, KeyEq.same e.1 t = true ∧ f ∈ stackItems e.2 := by
  obtain ⟨xs, hxs, hf⟩ := h
  obtain ⟨e, he, het, hev⟩ := Table.get?_eq_some hxs
  exact ⟨e, he, het, by rw [hev]; exact hf⟩

theorem apart_of_check {r : Registry} (h : r.apartCheck = true) : r.Apart := by
  intro t u f g ht hu hfg
  obtain ⟨e₁, he₁, het, hf⟩ := lists_entry ht
  obtain ⟨e₂, he₂, heu, hg⟩ := lists_entry hu
  have hpair := List.all_eq_true.1 (List.all_eq_true.1 h e₁ he₁) e₂ he₂
  rcases Bool.or_eq_true_iff.1 hpair with hkeys | hids
  · -- the two stacks are kept under keys that are the same, and so are the threads
    exact KeyEq.Lawful.trans (Table.same_of_same het hkeys) heu
  · have hne := List.all_eq_true.1 (List.all_eq_true.1 hids f hf) g hg
    simp [hfg] at hne

/-! ## Completeness while threads keep their ids apart -/

/-- Two frames with ids the same key as a third have ids the same key as each other. -/
theorem frameKey_same {f g : Json} {q : Option Json} (hf : KeyEq.same (frameKey f) q = true)
    (hg : KeyEq.same (frameKey g) q = true) : KeyEq.same (frameKey f) (frameKey g) = true :=
  Table.same_of_same_right hf hg

/-- Giving a thread a list of frames keeps the index complete when no other thread lists a frame
with the id of one of its old frames: a frame listed afterwards is new, and recorded, or was
listed before by another thread, and its id is only erased if an old frame had it. -/
theorem Complete.setStackFrames {r : Registry} (hr : r.FrameIndex) (hc : r.Complete) (hap : r.Apart)
    {t : Option Json} {xs : List Json} (hxs : ∀ x ∈ xs, x ≠ .null) :
    (r.setStackFrames t (some (.arr xs))).2.Complete := by
  obtain ⟨hstack, hkeep, hgone, hfound⟩ := setStackFrames_spec hr.stored hxs
  intro u f q hf hfq
  by_cases hnew : ∃ g ∈ xs, KeyEq.same (frameKey g) q = true
  · obtain ⟨g, hg, hgq⟩ := hnew
    obtain ⟨g', -, -, hv⟩ := hfound q g hg hgq
    rw [hv]
    rfl
  push Not at hnew
  replace hnew : ∀ g ∈ xs, KeyEq.same (frameKey g) q = false := fun g hg => by simpa using hnew g hg
  rw [lists_of_stack hstack] at hf
  split at hf
  · -- a frame of the new list has the id
    obtain ⟨ys, hys, hf⟩ := hf
    cases hys
    exact absurd hfq (by simp [hnew f hf])
  rename_i htu
  have hold : ∀ g, r.Lists t g → KeyEq.same (frameKey g) q = false := fun g hg => by
    by_contra hgq
    exact htu (hap t u g f hg hf (frameKey_same (by simpa using hgq) hfq))
  rw [hkeep q hnew hold]
  exact hc u f q hf hfq

/-- Removing a thread keeps the index complete when no other thread lists a frame with the id of
one of its frames. -/
theorem Complete.removeThread {r : Registry} (hr : r.FrameIndex) (hc : r.Complete) (hap : r.Apart)
    (t : Option Json) : (r.removeThread t).2.Complete := by
  obtain ⟨hstack, hkeep, -⟩ := removeThread_spec hr.stored t
  intro u f q hf hfq
  rw [lists_of_stack hstack] at hf
  split at hf
  · obtain ⟨ys, hys, -⟩ := hf
    cases hys
  rename_i htu
  have hold : ∀ g, r.Lists t g → KeyEq.same (frameKey g) q = false := fun g hg => by
    by_contra hgq
    exact htu (hap t u g f hg hf (frameKey_same (by simpa using hgq) hfq))
  rw [hkeep q hold]
  exact hc u f q hf hfq

/-- Every call from a registry whose threads keep their ids apart keeps the index complete. -/
theorem Complete.call {r : Registry} (hr : r.FrameIndex) (hc : r.Complete) (hap : r.Apart) {x : Call}
    (hx : x.Framed) : (r.call x).1.Complete := by
  rcases framePart_call r x with h | ⟨t, v, rfl⟩ | ⟨t, rfl⟩ | rfl | rfl
  · exact hc.of_framePart h
  · obtain ⟨-, xs, rfl, hxs⟩ := hx
    exact hc.setStackFrames hr hap hxs
  · exact hc.removeThread hr hap t
  · exact fun t f _ hf => absurd hf (not_lists_of_empty (framePart_resetStopState r) t f)
  · exact fun t f _ hf => absurd hf (not_lists_of_empty (framePart_clearAll r) t f)

/-- Over a run in which the threads keep their ids apart before every call, the index stays
complete. -/
theorem Complete.runCalls {r : Registry} (hr : r.FrameIndex) (hc : r.Complete) {cs : List Call}
    (hcs : ∀ x ∈ cs, x.Framed) (hap : ∀ k < cs.length, (r.runCalls (cs.take k)).1.Apart) :
    (r.runCalls cs).1.Complete := by
  induction cs generalizing r with
  | nil => exact hc
  | cons x cs ih =>
    have hx := hcs x List.mem_cons_self
    refine ih (hr.call hx) (hc.call hr (hap 0 (by simp)) hx) (fun y hy => hcs y (List.mem_cons_of_mem x hy)) ?_
    intro k hk
    exact hap (k + 1) (by simpa using hk)

end Registry

end DapBridge
