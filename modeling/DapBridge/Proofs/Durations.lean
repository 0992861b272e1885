import DapBridge.Cli.Command
import DapBridge.Proofs.NumberText
import DapBridge.Proofs.Windows
import DapBridge.Proofs.Effects

/-!
# Command timeouts

`--command-timeout` takes a duration: decimal digits, then `ms`, `s`, `m` or nothing for
milliseconds. The command line reads it once (`parseDuration`), the defaults it builds carry the
milliseconds, and every wait on a probe command's result slot arms a timer with them.

* `parseDuration_ok_iff`: a text is read exactly when the pattern `^[0-9]+(ms|s|m)?$` matches it
  (`DurationText`); `parseDuration_error`: a refusal quotes the text.
* `parseDuration_of_text` and `DurationUnit.factors_exact`: the digits' number is rounded to a
  word and multiplied by the unit's factors, one rounded product at a time; while `n` of the unit
  is at most `2^53` milliseconds, that is exactly `n * scale`.
* `Act.timerDelay_ofNat`, `Act.waitSlot_timer`: a wait arms one timer, due its delay from now; a
  delay from 1 to `2^31 - 1` milliseconds is kept and any other is one millisecond.
* `Loop.takeDue?_spec`: the loop runs a timer only once its clock has reached the timer's due
  time.

`command_timeout_honoured` puts these together. Nothing bounds the number, though:
`command_timeout_unbounded` reads `2147484s` as a delay no timer keeps, and a count past `2^53`
as a rounded one.
-/

namespace DapBridge

namespace Double

/-- The product of two finite non-negative words is their exact product rounded once. -/
theorem mul_finite {x y : Double} {a b : Nat} {e f : Int} (hx : x.decode = .finite false a e)
    (hy : y.decode = .finite false b f) : x * y = ofScaled ((a * b : Nat) : Int) (e + f) := by
  show mul x y = _
  unfold mul ofScaled
  rw [hx, hy]
  simp only [bne_self_eq_false, Int.natAbs_natCast]
  rw [decide_eq_false (by omega)]

/-- Multiplying whole numbers is exact while the product is at most `2^53`. -/
theorem ofNat_mul_ofNat {m n : Nat} (hm : m ≤ 2 ^ 53) (hn : n ≤ 2 ^ 53) (h : m * n ≤ 2 ^ 53) :
    ofNat m * ofNat n = ofNat (m * n) := by
  obtain ⟨a, e, hd, hv⟩ := decode_ofNat hm
  obtain ⟨b, f, hd', hv'⟩ := decode_ofNat hn
  rw [mul_finite hd hd']
  have hprod : ((a * b : Nat) : ℚ) * 2 ^ (e + f) = (m * n : Nat) := by
    rw [zpow_add₀ two_ne_zero]; push_cast; rw [← hv, ← hv']; ring
  rcases Nat.eq_zero_or_pos (m * n) with h0 | hpos
  · -- a zero factor: the significands multiply to zero too
    have hab : a * b = 0 := by
      have : ((a * b : Nat) : ℚ) = 0 := by
        have hz : (2 : ℚ) ^ (e + f) ≠ 0 := zpow_ne_zero _ two_ne_zero
        rw [h0, Nat.cast_zero] at hprod
        exact (mul_eq_zero.1 hprod).resolve_right hz
      exact_mod_cast this
    rw [hab, h0]
    unfold ofScaled ofNat round
    split <;> simp
  · obtain ⟨M, E, hc, hV⟩ := exists_canonical hpos h
    have hab : 0 < a * b := by
      refine Nat.pos_of_ne_zero fun h0 => ?_
      rw [h0, Nat.cast_zero, zero_mul] at hprod
      have : ((m * n : Nat) : ℚ) ≠ 0 := by exact_mod_cast hpos.ne'
      exact this hprod.symm
    rw [ofNat_eq_encode hc hV hpos]
    refine ofScaled_eq_encode (by exact_mod_cast hab) _ hc ?_
    rw [show (((a * b : Nat) : Int) : ℚ) = ((a * b : Nat) : ℚ) by push_cast; rfl, hprod, ← hV]
    exact roundsTo_self

/-- A decimal with no exponent is the whole number of its digits, or infinity past about
`10^309`. -/
theorem ofDecimal_whole (n : Nat) : ofDecimal false n 0 = ofNat n ∨ ofDecimal false n 0 = infinity := by
  unfold ofDecimal
  split
  · rename_i h; subst h; exact .inl rfl
  · split
    · exact .inr rfl
    · split
      · rename_i h; omega
      · rw [if_pos (le_refl _)]
        exact .inl (by simp [ofNat, Nat.pow_eq])

/-- Up to `2^53` the digits stay far below the cut-off to infinity. -/
theorem ofDecimal_whole_of_le {n : Nat} (h : n ≤ 2 ^ 53) : ofDecimal false n 0 = ofNat n := by
  rcases Nat.eq_zero_or_pos n with rfl | hn
  · rfl
  · have hw : decimalWidth n - 1 < 16 := by
      obtain ⟨hlo, -, -⟩ := decimalWidth_bounds hn
      by_contra hc
      have : 10 ^ 16 ≤ 10 ^ (decimalWidth n - 1) := Nat.pow_le_pow_right (by norm_num) (by omega)
      omega
    unfold ofDecimal
    rw [if_neg hn.ne', if_neg (by omega), if_neg (by omega), if_pos (le_refl _)]
    simp [ofNat, Nat.pow_eq]

end Double

namespace Decimal

theorem spanDigits_eq (cs : List Char) :
    spanDigits cs = (cs.takeWhile Char.isDigit, cs.dropWhile Char.isDigit) := rfl

/-- Digits followed by a text that does not start with one split there. -/
theorem spanDigits_append {ds rest : List Char} (hds : ∀ c ∈ ds, c.isDigit = true)
    (hr : ∀ c ∈ rest.head?, c.isDigit = false) : spanDigits (ds ++ rest) = (ds, rest) := by
  have hstop : rest.takeWhile Char.isDigit = [] ∧ rest.dropWhile Char.isDigit = rest := by
    cases rest with
    | nil => exact ⟨rfl, rfl⟩
    | cons c r =>
      have hc := hr c rfl
      exact ⟨List.takeWhile_cons_of_neg (by simp [hc]), List.dropWhile_cons_of_neg (by simp [hc])⟩
  simp only [spanDigits_eq, List.takeWhile_append_of_pos hds, List.dropWhile_append_of_pos hds, hstop,
    List.append_nil]

end Decimal

/-! ## Reading a duration -/

namespace DurationUnit

/-- The suffix that names the unit in a duration text; milliseconds may also go unnamed. -/
def suffix : DurationUnit → List Char
  | .milliseconds => ['m', 's']
  | .seconds => ['s']
  | .minutes => ['m']

/-- Milliseconds in one of the unit. -/
def scale : DurationUnit → Nat
  | .milliseconds => 1
  | .seconds => 1000
  | .minutes => 60000

/-- The suffixes a duration text may end in name their units, and nothing else does. -/
theorem ofSuffix_eq_some_iff {u : List Char} {unit : DurationUnit} :
    ofSuffix u = some unit ↔ u = unit.suffix ∨ (u = [] ∧ unit = .milliseconds) := by
  unfold ofSuffix
  split <;> cases unit <;> simp_all [suffix]

/-- A unit suffix does not start with a digit. -/
theorem suffix_head_not_digit {u : List Char} {unit : DurationUnit}
    (h : u = unit.suffix ∨ (u = [] ∧ unit = .milliseconds)) : ∀ c ∈ u.head?, c.isDigit = false := by
  intro c hc
  rcases h with rfl | ⟨rfl, -⟩
  · cases unit <;> simp only [suffix, List.head?_cons, Option.mem_def, Option.some.injEq] at hc <;> subst hc <;>
      decide
  · cases hc

/-- While `n` of the unit is at most `2^53` milliseconds, the rounded products are exact. -/
theorem factors_exact {n : Nat} {unit : DurationUnit} (h : n * unit.scale ≤ 2 ^ 53) :
    unit.factors.foldl (fun x k => x * Double.ofNat k) (Double.ofDecimal false n 0) = .ofNat (n * unit.scale) := by
  cases unit with
  | milliseconds =>
    simp only [scale, Nat.mul_one] at h ⊢
    exact Double.ofDecimal_whole_of_le h
  | seconds =>
    simp only [scale] at h
    have hs : Double.ofNat n * Double.ofNat 1000 = Double.ofNat (n * 1000) :=
      Double.ofNat_mul_ofNat (by omega) (by norm_num) h
    simp only [factors, scale, List.foldl_cons, List.foldl_nil,
      Double.ofDecimal_whole_of_le (by omega : n ≤ 2 ^ 53), hs]
  | minutes =>
    simp only [scale] at h
    -- a count of minutes is multiplied by 60 and then by 1000, each product exact
    have hm : Double.ofNat n * Double.ofNat 60 = Double.ofNat (n * 60) :=
      Double.ofNat_mul_ofNat (by omega) (by norm_num) (by omega)
    have hs : Double.ofNat (n * 60) * Double.ofNat 1000 = Double.ofNat (n * 60000) := by
      have h60 : n * 60 * 1000 ≤ 2 ^ 53 := by rw [Nat.mul_assoc]; exact h
      rw [Double.ofNat_mul_ofNat (by omega) (by norm_num) h60, Nat.mul_assoc]
    simp only [factors, scale, List.foldl_cons, List.foldl_nil,
      Double.ofDecimal_whole_of_le (by omega : n ≤ 2 ^ 53), hm, hs]

end DurationUnit

/-- `s` is a duration text of `n` of `unit`: the pattern `^[0-9]+(ms|s|m)?$` matches it, with
the decimal digits of `n` (leading zeros allowed) and the unit's suffix, or no suffix for
milliseconds. -/
inductive DurationText (s : String) (n : Nat) (unit : DurationUnit) : Prop where
  | intro (digits suffix : List Char) (split : s.toList = digits ++ suffix) (nonempty : digits ≠ [])
      (decimal : ∀ c ∈ digits, c.isDigit = true) (value : Decimal.digitsValue digits = n)
      (named : suffix = unit.suffix ∨ (suffix = [] ∧ unit = .milliseconds))

theorem DurationText.ne_empty {s : String} {n : Nat} {unit : DurationUnit} (h : DurationText s n unit) :
    s ≠ "" := by
  obtain ⟨ds, u, hs, hne, -, -, -⟩ := h
  rintro rfl
  cases ds with
  | nil => exact hne rfl
  | cons c r => cases hs

/-- A duration text reads as its digits' value rounded to a word, then taken through the unit's
factors one rounded product at a time. -/
theorem parseDuration_of_text {s : String} {n : Nat} {unit : DurationUnit} (h : DurationText s n unit) :
    parseDuration s = .ok (unit.factors.foldl (fun x k => x * Double.ofNat k) (Double.ofDecimal false n 0)) := by
  obtain ⟨ds, u, hs, hne, hdig, rfl, hu⟩ := h
  have hunit : DurationUnit.ofSuffix u = some unit := DurationUnit.ofSuffix_eq_some_iff.2 hu
  simp only [parseDuration, hs, Decimal.spanDigits_append hdig (DurationUnit.suffix_head_not_digit hu), hunit]
  rw [if_neg (by simpa using hne)]

/-- A text is read as a duration exactly when the pattern matches it. -/
theorem parseDuration_ok_iff (s : String) :
    (∃ v, parseDuration s = .ok v) ↔ ∃ n unit, DurationText s n unit := by
  constructor
  · rintro ⟨v, hv⟩
    -- the digits are the longest run of them, the unit what follows
    have hsplit : s.toList = s.toList.takeWhile Char.isDigit ++ s.toList.dropWhile Char.isDigit :=
      (List.takeWhile_append_dropWhile).symm
    unfold parseDuration at hv
    generalize hp : Decimal.spanDigits s.toList = p at hv
    obtain ⟨ds, rest⟩ := p
    obtain ⟨rfl, rfl⟩ := Prod.mk.inj hp.symm
    dsimp only at hv
    split at hv
    · cases hv
    · rename_i hne
      cases hu : DurationUnit.ofSuffix (s.toList.dropWhile Char.isDigit) with
      | none => rw [hu] at hv; cases hv
      | some unit =>
        exact ⟨_, unit, ⟨_, _, hsplit, by simpa using hne, List.all_eq_true.1 List.all_takeWhile, rfl,
          DurationUnit.ofSuffix_eq_some_iff.1 hu⟩⟩
  · rintro ⟨n, unit, h⟩
    exact ⟨_, parseDuration_of_text h⟩

/-- Every refusal of a duration quotes the text. -/
theorem parseDuration_error {s : String} {e : ValueError} (h : parseDuration s = .error e) : e = .duration s := by
  unfold parseDuration at h
  generalize Decimal.spanDigits s.toList = p at h
  obtain ⟨ds, rest⟩ := p
  dsimp only at h
  split at h
  · cases h
    rfl
  · cases hu : DurationUnit.ofSuffix rest with
    | none =>
      rw [hu] at h
      cases h
      rfl
    | some unit => rw [hu] at h; cases h

/-- While `n` of the unit is at most `2^53` milliseconds, the text reads as exactly that many. -/
theorem parseDuration_exact {s : String} {n : Nat} {unit : DurationUnit} (h : DurationText s n unit)
    (hle : n * unit.scale ≤ 2 ^ 53) : parseDuration s = .ok (.ofNat (n * unit.scale)) := by
  rw [parseDuration_of_text h, DurationUnit.factors_exact hle]

/-! ## The timer a wait arms -/

/-- A whole number of milliseconds up to `2^53` sets a timer of that many milliseconds when it
is from 1 to `2^31 - 1`, and of one otherwise. -/
theorem Act.timerDelay_ofNat {k : Nat} (h : k ≤ 2 ^ 53) :
    Act.timerDelay (.ofNat k) = if 1 ≤ k ∧ k ≤ 2147483647 then k else 1 := by
  unfold Act.timerDelay
  rw [Double.truncInt_ofNat h]
  dsimp only
  by_cases hk : 1 ≤ k ∧ k ≤ 2147483647
  · rw [if_pos (by omega), if_pos hk, Int.toNat_natCast]
  · rw [if_neg (by omega), if_neg hk]

/-- A wait with a deadline on a pending slot arms one timer, the loop's next, due the deadline's
delay (at least one) from now, that times out this wait's promise. -/
theorem Act.waitSlot_timer {w : World} {s : Nat} (ms : Json) (label : String) (h : (w.slotAt s).state = .pending) :
    ∃ w', (Act.waitSlot s (some ms) label).run w = .ok w.loop.cells.size w' ∧
      w'.loop.timers = w.loop.timers ++ [⟨w.loop.nextTimer, w.loop.now + max (Act.timerDelay ms.toNumber) 1,
        .slotTimeout s w.loop.cells.size label ms⟩] :=
  ⟨_, Act.waitSlot_pending w _ _ h, by simp [World.waitOn, Loop.after, Loop.fresh]⟩

/-- The defaults the command line builds carry a given, non-empty command timeout as the
duration it reads as. -/
theorem Cli.AdapterOptions.engineDefaults_timeout {o : Cli.AdapterOptions} {s : String} {v : Double}
    (ho : o.commandTimeout = some s) (hs : s ≠ "") (hv : parseDuration s = .ok v) :
    ∃ d, o.engineDefaults = .ok d ∧ d.commandTimeout = some (.num v) := by
  simp [Cli.AdapterOptions.engineDefaults, ho, String.isEmpty_eq_false_iff.2 hs, hv]

namespace Loop

variable {α κ τ : Type}

/-- The timer `firstDue?` picks is one of the loop's, due by the limit. -/
theorem firstDue?_mem {l : Loop α κ τ} {limit : Nat} {t : Timer τ} (h : l.firstDue? limit = some t) :
    t ∈ l.timers ∧ t.due ≤ limit := by
  unfold firstDue? at h
  -- the pick so far is always a timer of the loop due by the limit
  refine List.foldlRecOn (motive := fun best => ∀ b, best = some b → b ∈ l.timers ∧ b.due ≤ limit)
    l.timers _ (fun b hb => by cases hb) ?_ t h
  intro best hbest t' ht' b hb
  split at hb
  · rename_i hdue
    split at hb
    · split at hb
      · cases hb; exact ⟨ht', hdue⟩
      · exact hbest b hb
    · cases hb; exact ⟨ht', hdue⟩
  · exact hbest b hb

/-- A timer's task runs only once the clock has reached its due time: `takeDue?` runs one of the
loop's timers due by the limit, drops it, and moves the clock to its due time. -/
theorem takeDue?_spec {l l' : Loop α κ τ} {limit : Nat} {task : τ} (h : l.takeDue? limit = some (task, l')) :
    ∃ t ∈ l.timers, t.task = task ∧ t.due ≤ limit ∧ l'.now = max l.now t.due ∧
      l'.timers = l.timers.filter (·.id != t.id) := by
  unfold takeDue? at h
  split at h
  · rename_i t ht
    cases h
    obtain ⟨hmem, hdue⟩ := firstDue?_mem ht
    exact ⟨t, hmem, rfl, hdue, rfl, rfl⟩
  · cases h

end Loop

/-! ## Command timeouts -/

/-- A command timeout is honoured while it fits a timer. A text is read as a duration exactly
when `^[0-9]+(ms|s|m)?$` matches it, and a refusal quotes it; `n` of a unit is read as exactly
`n * scale` milliseconds while that is at most `2^53`. When it is at most `2^31 - 1`, the
defaults built from it give every wait on a pending result slot one timer, due that many
milliseconds from then (one, for zero), and the loop runs a timer only once its clock has
reached its due time. -/
theorem command_timeout_honoured (s : String) :
    ((∃ v, parseDuration s = .ok v) ↔ ∃ n unit, DurationText s n unit) ∧
    (∀ e, parseDuration s = .error e → e = .duration s) ∧
    (∀ n unit, DurationText s n unit → n * unit.scale ≤ 2 ^ 53 →
      parseDuration s = .ok (.ofNat (n * unit.scale))) ∧
    (∀ (o : Cli.AdapterOptions) n unit, o.commandTimeout = some s → DurationText s n unit →
      n * unit.scale ≤ 2147483647 →
      ∃ d, o.engineDefaults = .ok d ∧ ∀ (w : World) slot label, (w.slotAt slot).state = .pending →
        ∃ w', (Act.waitSlot slot d.commandTimeout label).run w = .ok w.loop.cells.size w' ∧
          w'.loop.timers = w.loop.timers ++ [⟨w.loop.nextTimer, w.loop.now + max (n * unit.scale) 1,
            .slotTimeout slot w.loop.cells.size label (.num (.ofNat (n * unit.scale)))⟩]) ∧
    (∀ (l l' : Loop Outcome Cont Turn) limit task, l.takeDue? limit = some (task, l') →
      ∃ t ∈ l.timers, t.task = task ∧ t.due ≤ l'.now) := by
  refine ⟨parseDuration_ok_iff s, fun e h => parseDuration_error h, fun n unit h hle => parseDuration_exact h hle,
    ?_, ?_⟩
  · intro o n unit ho h hle
    obtain ⟨d, hd, hto⟩ :=
      Cli.AdapterOptions.engineDefaults_timeout ho h.ne_empty (parseDuration_exact h (by omega))
    refine ⟨d, hd, fun w slot label hs => ?_⟩
    obtain ⟨w', hrun, htimers⟩ := Act.waitSlot_timer (.num (.ofNat (n * unit.scale))) label hs
    -- a delay that fits a timer is kept, and zero becomes one
    have hdelay : max (Act.timerDelay (Json.num (.ofNat (n * unit.scale))).toNumber) 1 = max (n * unit.scale) 1 := by
      rw [Json.toNumber, Act.timerDelay_ofNat (by omega)]
      split <;> omega
    rw [hto]
    exact ⟨w', hrun, by rw [htimers, hdelay]⟩
  · intro l l' limit task h
    obtain ⟨t, ht, htask, -, hnow, -⟩ := Loop.takeDue?_spec h
    exact ⟨t, ht, htask, by rw [hnow]; exact le_max_right _ _⟩

/-- Nothing bounds a duration: `2147484s` reads as 2147484000 milliseconds, past the largest
delay a timer keeps, so a wait with that deadline times out after one millisecond; and past
`2^53` milliseconds the count itself is rounded. -/
theorem command_timeout_unbounded :
    (parseDuration "2147484s").toOption = some (.ofNat 2147484000) ∧ Act.timerDelay (.ofNat 2147484000) = 1 ∧
      (parseDuration "9007199254740993").toOption = some (.ofNat 9007199254740992) :=
  ⟨by decide, by decide, by decide⟩

end DapBridge
