import DapBridge.Loop.Machine

/-!
# The event loop: what each operation does to promises, timers and queues

A promise settles once. `outcome?` reads it, and each operation on the loop either leaves
every outcome as it was or gives a pending promise its first one:

* `fresh` and `done` add a promise at the end (`fresh_fst`, `done_fst`), the first pending;
* `settle` gives a pending promise its outcome (`outcome?_settle_self`) and leaves every other
  promise, and every settled one, alone (`outcome?_settle_of_ne`, `outcome?_settle_of_settled`);
* the queues and timers are lists that the operations append to or filter.

Later proofs cite these and never unfold `Loop.settle` or `Loop.outcome?` again.
-/

namespace DapBridge

namespace Loop

variable {α κ τ : Type} (l : Loop α κ τ)

theorem outcome?_of_cells {l l' : Loop α κ τ} (h : l'.cells = l.cells) (q : Nat) :
    l'.outcome? q = l.outcome? q := by
  simp [outcome?, h]

theorem lt_size_of_outcome? {q : Nat} {o : α} (h : l.outcome? q = some o) : q < l.cells.size := by
  unfold outcome? at h
  split at h
  · rename_i c hc
    exact (Array.getElem?_eq_some_iff.1 hc).1
  · cases h

theorem outcome?_of_size_le {q : Nat} (h : l.cells.size ≤ q) : l.outcome? q = none := by
  cases hq : l.outcome? q with
  | none => rfl
  | some o => exact absurd (l.lt_size_of_outcome? hq) (Nat.not_lt.2 h)

/-! ## New promises -/

@[simp] theorem fresh_fst : l.fresh.1 = l.cells.size := rfl

@[simp] theorem fresh_cells_size : l.fresh.2.cells.size = l.cells.size + 1 := by simp [fresh]

/-- A new pending promise changes no outcome, its own included. -/
@[simp] theorem outcome?_fresh (q : Nat) : l.fresh.2.outcome? q = l.outcome? q := by
  by_cases hq : q = l.cells.size
  · subst hq
    simp [fresh, outcome?]
  · simp [fresh, outcome?, Array.getElem?_push, hq]

@[simp] theorem done_fst (o : α) : (l.done o).1 = l.cells.size := rfl

@[simp] theorem done_cells_size (o : α) : (l.done o).2.cells.size = l.cells.size + 1 := by simp [done]

@[simp] theorem outcome?_done (o : α) (q : Nat) :
    (l.done o).2.outcome? q = if q = l.cells.size then some o else l.outcome? q := by
  by_cases hq : q = l.cells.size <;> simp [done, outcome?, Array.getElem?_push, hq]

/-! ## Settling -/

@[simp] theorem settle_cells_size (p : Nat) (o : α) : (l.settle p o).cells.size = l.cells.size := by
  unfold settle
  split <;> simp

theorem outcome?_settle_self {p : Nat} (o : α) (hp : p < l.cells.size) (h : l.outcome? p = none) :
    (l.settle p o).outcome? p = some o := by
  unfold outcome? at h
  unfold settle
  split
  · rename_i rs hrs
    simp [outcome?, Array.getElem?_modify, hrs]
  · rename_i hc
    have : l.cells[p]? = some l.cells[p] := Array.getElem?_eq_getElem hp
    cases hcp : l.cells[p] with
    | pending rs => exact absurd (by rw [this, hcp]) (hc rs)
    | settled o' => simp [this, hcp] at h

theorem outcome?_settle_of_ne {p q : Nat} (o : α) (hq : q ≠ p) :
    (l.settle p o).outcome? q = l.outcome? q := by
  unfold settle
  split
  · simp only [outcome?, Array.getElem?_modify, if_neg (Ne.symm hq)]
  · rfl

/-- A settled promise keeps its outcome. -/
theorem outcome?_settle_of_settled {p q : Nat} (o : α) {o' : α} (h : l.outcome? q = some o') :
    (l.settle p o).outcome? q = some o' := by
  by_cases hq : q = p
  · subst hq
    rw [l.settle_settled q o o' h, h]
  · rw [l.outcome?_settle_of_ne o hq, h]

theorem outcome?_settle (p q : Nat) (o : α) :
    (l.settle p o).outcome? q =
      if q = p ∧ p < l.cells.size ∧ l.outcome? p = none then some o else l.outcome? q := by
  split
  · rename_i h
    obtain ⟨rfl, hp, hn⟩ := h
    exact l.outcome?_settle_self o hp hn
  · rename_i h
    by_cases hq : q = p
    · subst hq
      by_cases hp : q < l.cells.size
      · cases hs : l.outcome? q with
        | none => exact absurd ⟨rfl, hp, hs⟩ h
        | some o' => exact l.outcome?_settle_of_settled o hs
      · rw [l.outcome?_of_size_le (Nat.not_lt.1 hp), outcome?_of_size_le]
        simpa using hp
    · exact l.outcome?_settle_of_ne o hq

@[simp] theorem settle_timers (p : Nat) (o : α) : (l.settle p o).timers = l.timers := by
  unfold settle; split <;> rfl

@[simp] theorem settle_turns (p : Nat) (o : α) : (l.settle p o).turns = l.turns := by
  unfold settle; split <;> rfl

@[simp] theorem settle_ticks (p : Nat) (o : α) : (l.settle p o).ticks = l.ticks := by
  unfold settle; split <;> rfl

@[simp] theorem settle_nextTimer (p : Nat) (o : α) : (l.settle p o).nextTimer = l.nextTimer := by
  unfold settle; split <;> rfl

theorem cells_settle_of_ne {p q : Nat} (o : α) (hq : q ≠ p) : (l.settle p o).cells[q]? = l.cells[q]? := by
  unfold settle
  split
  · simp only [Array.getElem?_modify, if_neg (Ne.symm hq)]
  · rfl

/-- A promise that pends after a settlement pended before it, with the same reactions. -/
theorem pending_of_settle {p q : Nat} {o : α} {rs : List (Reaction κ)}
    (h : (l.settle p o).cells[q]? = some (.pending rs)) : l.cells[q]? = some (.pending rs) := by
  by_cases hq : q = p
  · subst hq
    unfold settle at h
    split at h
    · simp [Array.getElem?_modify] at h
    · exact h
  · rwa [cells_settle_of_ne _ _ hq] at h

/-- The jobs after a settlement: those there were, then the settled promise's reactions. -/
theorem mem_settle_jobs {p : Nat} {o : α} {j : Job α κ} :
    j ∈ (l.settle p o).jobs ↔ j ∈ l.jobs ∨ ∃ rs, l.cells[p]? = some (.pending rs) ∧ ∃ r ∈ rs, j = .react r o := by
  unfold settle
  split
  · rename_i rs hrs
    simp [hrs, eq_comm]
  · rename_i hc
    simp only [iff_self_or]
    rintro ⟨rs, hrs, -⟩
    exact absurd hrs (hc rs)

/-! ## Reactions -/

@[simp] theorem listen_cells_size (p : Nat) (r : Reaction κ) : (l.listen p r).cells.size = l.cells.size := by
  unfold listen; split <;> simp

@[simp] theorem outcome?_listen (p : Nat) (r : Reaction κ) (q : Nat) :
    (l.listen p r).outcome? q = l.outcome? q := by
  unfold listen
  split
  · rename_i rs h
    by_cases hpq : p = q
    · subst hpq
      simp [outcome?, Array.getElem?_modify, h]
    · simp [outcome?, Array.getElem?_modify, hpq]
  · rfl
  · rfl

@[simp] theorem listen_timers (p : Nat) (r : Reaction κ) : (l.listen p r).timers = l.timers := by
  unfold listen; split <;> rfl

@[simp] theorem listen_turns (p : Nat) (r : Reaction κ) : (l.listen p r).turns = l.turns := by
  unfold listen; split <;> rfl

@[simp] theorem listen_nextTimer (p : Nat) (r : Reaction κ) : (l.listen p r).nextTimer = l.nextTimer := by
  unfold listen; split <;> rfl

/-- A promise that pends after a reaction is added pended before, with the same reactions or,
if it is the one listened to, with one less. -/
theorem pending_of_listen {p q : Nat} {r : Reaction κ} {rs : List (Reaction κ)}
    (h : (l.listen p r).cells[q]? = some (.pending rs)) :
    l.cells[q]? = some (.pending rs) ∨ q = p ∧ ∃ rs₀, l.cells[p]? = some (.pending rs₀) ∧ rs = rs₀ ++ [r] := by
  unfold listen at h
  split at h
  · rename_i rs₀ hp
    rw [Array.getElem?_modify] at h
    split at h
    · rename_i hpq
      subst hpq
      rw [hp] at h
      simp only [Option.map_some, Option.some.injEq, Cell.pending.injEq] at h
      exact .inr ⟨rfl, rs₀, hp, h.symm⟩
    · exact .inl h
  · exact .inl h
  · exact .inl h

/-- A reaction added to a pending promise comes after its others. -/
theorem listen_self {p : Nat} (r : Reaction κ) {rs : List (Reaction κ)} (h : l.cells[p]? = some (.pending rs)) :
    (l.listen p r).cells[p]? = some (.pending (rs ++ [r])) := by
  simp [listen, h, Array.getElem?_modify]

/-- A promise that pends keeps its reactions when another is added. -/
theorem pending_listen {p q : Nat} (r : Reaction κ) {rs : List (Reaction κ)} (h : l.cells[q]? = some (.pending rs)) :
    ∃ rs', (l.listen p r).cells[q]? = some (.pending rs') ∧ ∀ x ∈ rs, x ∈ rs' := by
  unfold listen
  split
  · rename_i rs₀ hp
    by_cases hpq : p = q
    · subst hpq
      rw [hp] at h
      cases h
      exact ⟨rs ++ [r], by simp [Array.getElem?_modify, hp], fun x hx => List.mem_append_left _ hx⟩
    · exact ⟨rs, by simp [Array.getElem?_modify, hpq, h], fun x hx => hx⟩
  · exact ⟨rs, h, fun x hx => hx⟩
  · exact ⟨rs, h, fun x hx => hx⟩

/-- The jobs after a reaction is added: those there were, and the reaction itself if its
promise has settled. -/
theorem mem_listen_jobs {p : Nat} {r : Reaction κ} {j : Job α κ} :
    j ∈ (l.listen p r).jobs ↔ j ∈ l.jobs ∨ ∃ o, l.cells[p]? = some (.settled o) ∧ j = .react r o := by
  unfold listen
  split
  · rename_i rs hp
    simp [hp]
  · rename_i o hp
    simp [hp]
  · rename_i hp
    simp [hp]

/-! ## Turns and timers -/

@[simp] theorem outcome?_defer (t : τ) (q : Nat) : (l.defer t).outcome? q = l.outcome? q := rfl

@[simp] theorem outcome?_cancel (id q : Nat) : (l.cancel id).outcome? q = l.outcome? q := rfl

@[simp] theorem after_fst (ms : Nat) (t : τ) : (l.after ms t).1 = l.nextTimer := rfl

@[simp] theorem outcome?_after (ms : Nat) (t : τ) (q : Nat) : (l.after ms t).2.outcome? q = l.outcome? q := rfl

/-! ## Outcomes are kept -/

/-- Every promise settled in `l` is settled the same way in `l'`. -/
def Keeps (l l' : Loop α κ τ) : Prop := ∀ p o, l.outcome? p = some o → l'.outcome? p = some o

namespace Keeps

variable {l} {l' l'' : Loop α κ τ}

theorem refl (l : Loop α κ τ) : l.Keeps l := fun _ _ h => h

theorem trans (h₁ : l.Keeps l') (h₂ : l'.Keeps l'') : l.Keeps l'' := fun p o h => h₂ p o (h₁ p o h)

theorem of_outcome (h : ∀ q, l'.outcome? q = l.outcome? q) : l.Keeps l' := fun p o hp => by
  rw [h]
  exact hp

end Keeps

theorem keeps_fresh : l.Keeps l.fresh.2 := Keeps.of_outcome l.outcome?_fresh

theorem keeps_done (o : α) : l.Keeps (l.done o).2 := fun p o' h => by
  rw [outcome?_done, if_neg (Nat.ne_of_lt (l.lt_size_of_outcome? h))]
  exact h

theorem keeps_settle (p : Nat) (o : α) : l.Keeps (l.settle p o) := fun _ _ h => l.outcome?_settle_of_settled o h

theorem keeps_listen (p : Nat) (r : Reaction κ) : l.Keeps (l.listen p r) := Keeps.of_outcome (l.outcome?_listen p r)

theorem keeps_after (ms : Nat) (t : τ) : l.Keeps (l.after ms t).2 := Keeps.of_outcome (l.outcome?_after ms t)

theorem keeps_of_cells {l' : Loop α κ τ} (h : l'.cells = l.cells) : l.Keeps l' := Keeps.of_outcome (outcome?_of_cells h)

end Loop

end DapBridge
