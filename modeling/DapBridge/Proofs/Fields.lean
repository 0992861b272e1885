import DapBridge.Json.Read
import Mathlib.Data.List.Nodup

/-!
# Objects as tables

`Json.Fields` keeps an object's members in property order, and `Fields.set` never adds a second
member for a key. This module reads the members as a table:

* `get?_eq_some_iff`, `get?_perm`: where keys are distinct, a lookup finds exactly the members
  present, so two orders of the same members answer every lookup alike;
* `set_perm`, `ofList_perm`: setting a new key only places one member, so building an object
  from members with distinct keys reorders them and nothing else;
* `Distinct.ofList`, `Distinct.erase`: building and erasing keep keys distinct;
* `get?_set_of_ne`, `get?_ofList_cons`, `get?_ofList_append_of_not_mem`: setting a key leaves
  what every other key finds;
* `read_obj_distinct`: an object read from text has distinct keys, since the reader builds it
  with `set`.
-/

namespace DapBridge

namespace Json

namespace Fields

/-- Members with pairwise different keys. -/
def Distinct (fs : Fields) : Prop := (fs.map (·.1)).Nodup

theorem mem_keys_of_mem {fs : Fields} {k : String} {v : Json} (h : (k, v) ∈ fs) : k ∈ fs.map (·.1) :=
  List.mem_map.2 ⟨(k, v), h, rfl⟩

theorem contains_eq_false {fs : Fields} {k : String} : fs.contains k = false ↔ k ∉ fs.map (·.1) := by
  simp only [contains, List.any_eq_false, beq_iff_eq, List.mem_map, not_exists, not_and]

theorem get?_cons_of_eq {kv : String × Json} {k : String} (h : kv.1 = k) (fs : Fields) :
    get? (kv :: fs) k = some kv.2 := by
  simp [get?, h]

theorem get?_cons_of_ne {kv : String × Json} {k : String} (h : kv.1 ≠ k) (fs : Fields) :
    get? (kv :: fs) k = get? fs k := by
  simp [get?, h]

theorem get?_eq_none_of_not_mem {fs : Fields} {k : String} (h : k ∉ fs.map (·.1)) : fs.get? k = none := by
  induction fs with
  | nil => rfl
  | cons kv fs ih =>
    simp only [List.map_cons, List.mem_cons, not_or] at h
    rw [get?_cons_of_ne (Ne.symm h.1), ih h.2]

theorem get?_eq_some_iff {fs : Fields} (hn : fs.Distinct) {k : String} {v : Json} :
    fs.get? k = some v ↔ (k, v) ∈ fs := by
  constructor
  · intro h
    obtain ⟨kv, hkv, rfl⟩ := Option.map_eq_some_iff.1 h
    have hk : kv.1 = k := by simpa using List.find?_some hkv
    rw [← hk]
    exact List.mem_of_find?_eq_some hkv
  · intro h
    -- the member found first has key `k`, and only `(k, v)` has that key
    obtain ⟨kv, hkv⟩ : ∃ kv, fs.find? (·.1 == k) = some kv := by
      cases hf : fs.find? (·.1 == k) with
      | some kv => exact ⟨kv, rfl⟩
      | none => exact absurd (List.find?_eq_none.1 hf (k, v) h) (by simp)
    have hk : kv.1 = (k, v).1 := by simpa using List.find?_some hkv
    have he := List.inj_on_of_nodup_map hn (List.mem_of_find?_eq_some hkv) h hk
    simp only [get?, hkv, he, Option.map_some]

/-- Two orders of the same members answer every lookup alike. -/
theorem get?_perm {fs gs : Fields} (hp : fs.Perm gs) (hn : fs.Distinct) (k : String) :
    fs.get? k = gs.get? k := by
  have hn' : gs.Distinct := (hp.map _).nodup_iff.1 hn
  apply Option.ext
  intro v
  rw [get?_eq_some_iff hn, get?_eq_some_iff hn']
  exact hp.mem_iff

theorem insertIndex_perm (k : String) (n : Nat) (v : Json) (fs : Fields) :
    (insertIndex k n v fs).Perm ((k, v) :: fs) := by
  induction fs with
  | nil => exact List.Perm.refl _
  | cons kv fs ih =>
    unfold insertIndex
    split
    · split
      · exact List.Perm.refl _
      · exact ((ih.cons kv).trans (List.Perm.swap _ _ _))
    · exact List.Perm.refl _

/-- Setting a key the members lack places one member and moves none. -/
theorem set_perm {fs : Fields} {k : String} (hc : fs.contains k = false) (v : Json) :
    (fs.set k v).Perm ((k, v) :: fs) := by
  unfold set
  rw [if_neg (by rw [hc]; decide)]
  split
  · exact insertIndex_perm _ _ _ _
  · exact List.perm_append_singleton _ _

theorem Distinct.set {fs : Fields} (hn : fs.Distinct) (k : String) (v : Json) : (fs.set k v).Distinct := by
  cases hc : fs.contains k with
  | true =>
    -- the key is there: its members change value and keep their keys
    unfold Fields.set Distinct at *
    rw [if_pos hc, List.map_map]
    convert hn using 1
    apply List.map_congr_left
    rintro ⟨k', v'⟩ -
    simp only [Function.comp]
    split <;> rfl
  | false =>
    have hp := (set_perm hc v).map (·.1)
    refine hp.nodup_iff.2 ?_
    exact List.nodup_cons.2 ⟨contains_eq_false.1 hc, hn⟩

/-- Setting members in turn on distinct keys lays them after the ones there, up to order. -/
theorem foldl_set_perm (l : Fields) :
    ∀ acc : Fields, (acc ++ l).Distinct →
      (l.foldl (fun acc kv => acc.set kv.1 kv.2) acc).Perm (acc ++ l) := by
  induction l with
  | nil => intro acc _; rw [List.foldl_nil, List.append_nil]
  | cons kv l ih =>
    intro acc hn
    have hfresh : acc.contains kv.1 = false := by
      rw [contains_eq_false]
      intro hk
      have := (List.nodup_append.1 (by simpa [Distinct] using hn)).2.2
      exact this _ hk _ (List.mem_cons_self) rfl
    have hp : (acc.set kv.1 kv.2 ++ l).Perm (acc ++ kv :: l) :=
      ((set_perm hfresh kv.2).append_right l).trans List.perm_middle.symm
    rw [List.foldl_cons]
    exact (ih _ ((hp.map Prod.fst).nodup_iff.2 hn)).trans hp

theorem ofList_perm {l : Fields} (hn : l.Distinct) : (ofList l).Perm l :=
  foldl_set_perm l [] (by rwa [List.nil_append])

/-- Members with distinct keys, none an array index, are built in the order given. -/
theorem ofList_plain {l : Fields} (hn : l.Distinct) (hp : ∀ kv ∈ l, arrayIndex kv.1 = none) :
    ofList l = l := by
  show l.foldl (fun (acc : Fields) kv => acc.set kv.1 kv.2) [] = l
  suffices h : ∀ acc : Fields, (acc ++ l).Distinct →
      l.foldl (fun (acc : Fields) kv => acc.set kv.1 kv.2) acc = acc ++ l by
    simpa using h [] (by simpa using hn)
  clear hn
  induction l with
  | nil => intro acc _; rw [List.foldl_nil, List.append_nil]
  | cons kv l ih =>
    intro acc hacc
    have hfresh : acc.contains kv.1 = false := by
      rw [contains_eq_false]
      intro hk
      exact (List.nodup_append.1 (by simpa [Distinct] using hacc)).2.2 _ hk _ List.mem_cons_self rfl
    -- a new plain key goes to the end
    have hset : acc.set kv.1 kv.2 = acc ++ [kv] := by
      unfold set
      rw [if_neg (by rw [hfresh]; decide), hp kv List.mem_cons_self]
    have hacc' : (acc ++ [kv] ++ l).Distinct := by rwa [List.append_assoc, List.singleton_append]
    rw [List.foldl_cons, hset, ih (fun kv' h => hp kv' (List.mem_cons_of_mem _ h)) _ hacc',
      List.append_assoc, List.singleton_append]

/-- `ofList_plain` for members whose keys are given as a list. -/
theorem ofList_of_keys (l : Fields) (ks : List String) (h : l.map (·.1) = ks) (hn : ks.Nodup)
    (hp : (ks.all fun k => arrayIndex k == none) = true) : ofList l = l := by
  have hd : l.Distinct := by rw [Distinct, h]; exact hn
  refine ofList_plain hd fun kv hkv => ?_
  have hk : kv.1 ∈ ks := h ▸ mem_keys_of_mem hkv
  simpa using List.all_eq_true.1 hp kv.1 hk

theorem Distinct.ofList (l : Fields) : (ofList l).Distinct := by
  show (l.foldl (fun (acc : Fields) kv => acc.set kv.1 kv.2) []).Distinct
  generalize hacc : ([] : Fields) = acc
  have hn : Distinct acc := hacc ▸ List.nodup_nil
  clear hacc
  induction l generalizing acc with
  | nil => exact hn
  | cons kv l ih => exact ih _ (Distinct.set hn _ _)

theorem Distinct.erase {fs : Fields} (hn : fs.Distinct) (r : String) : (fs.erase r).Distinct :=
  (List.filter_sublist.map _).nodup hn

theorem get?_erase (fs : Fields) (r k : String) :
    (fs.erase r).get? k = if k = r then none else fs.get? k := by
  induction fs with
  | nil => simp [erase, get?]
  | cons kv fs ih =>
    by_cases hk : kv.1 = r
    · have hdrop : Fields.erase (kv :: fs) r = Fields.erase fs r := by simp [erase, hk]
      rw [hdrop, ih]
      split
      · rfl
      · next hkr => rw [get?_cons_of_ne (fun h => hkr (h.symm.trans hk))]
    · have hkeep : Fields.erase (kv :: fs) r = kv :: Fields.erase fs r := by simp [erase, hk]
      rw [hkeep]
      by_cases hkk : kv.1 = k
      · rw [get?_cons_of_eq hkk, get?_cons_of_eq hkk, if_neg (fun h => hk (hkk.trans h))]
      · rw [get?_cons_of_ne hkk, get?_cons_of_ne hkk, ih]

theorem get?_append_of_ne {fs : Fields} {k' k : String} (h : k' ≠ k) (v : Json) :
    (fs ++ [(k', v)]).get? k = fs.get? k := by
  have hb : (k' == k) = false := by simpa using h
  simp only [get?, List.find?_append, List.find?_cons, List.find?_nil, hb]
  cases List.find? (·.1 == k) fs <;> rfl

theorem get?_insertIndex_of_ne {k' k : String} (h : k' ≠ k) (n : Nat) (v : Json) (fs : Fields) :
    (insertIndex k' n v fs).get? k = fs.get? k := by
  induction fs with
  | nil =>
    have hb : (k' == k) = false := by simpa using h
    simp [insertIndex, get?, hb]
  | cons kv fs ih =>
    unfold insertIndex
    split
    · split
      · rw [get?_cons_of_ne h]
      · by_cases hk : kv.1 = k
        · rw [get?_cons_of_eq hk, get?_cons_of_eq hk]
        · rw [get?_cons_of_ne hk, get?_cons_of_ne hk, ih]
    · rw [get?_cons_of_ne h]

/-- Setting another key leaves what a key finds. -/
theorem get?_set_of_ne {fs : Fields} {k' k : String} (h : k' ≠ k) (v : Json) :
    (fs.set k' v).get? k = fs.get? k := by
  unfold set
  split
  · clear ‹_›
    induction fs with
    | nil => rfl
    | cons kv fs ih =>
      obtain ⟨a, b⟩ := kv
      by_cases hk : a = k
      · subst hk
        have ha : (a == k') = false := by simpa using fun e => h e.symm
        simp only [List.map_cons, ha, Bool.false_eq_true, if_false]
        rw [get?_cons_of_eq rfl, get?_cons_of_eq rfl]
      · simp only [List.map_cons]
        rw [get?_cons_of_ne (by split <;> exact hk), get?_cons_of_ne hk, ih]
  · split
    · exact get?_insertIndex_of_ne h _ v fs
    · exact get?_append_of_ne h v

theorem get?_set_self_nil (k : String) (v : Json) : (Fields.set [] k v).get? k = some v := by
  unfold set
  split
  · simp [contains] at *
  · split <;> simp [insertIndex, get?]

theorem get?_foldl_set {k : String} (l : Fields) (hl : k ∉ l.map (·.1)) (acc : Fields) :
    (l.foldl (fun (acc : Fields) kv => acc.set kv.1 kv.2) acc).get? k = acc.get? k := by
  induction l generalizing acc with
  | nil => rfl
  | cons kv l ih =>
    simp only [List.map_cons, List.mem_cons, not_or] at hl
    rw [List.foldl_cons, ih hl.2, get?_set_of_ne (Ne.symm hl.1)]

/-- Building from members: the first member's key finds its value when no later member has it. -/
theorem get?_ofList_cons {k : String} {rest : Fields} (h : k ∉ rest.map (·.1)) (v : Json) :
    (ofList ((k, v) :: rest)).get? k = some v := by
  show (rest.foldl (fun (acc : Fields) kv => acc.set kv.1 kv.2) (Fields.set [] k v)).get? k = some v
  rw [get?_foldl_set rest h, get?_set_self_nil]

theorem get?_ofList_of_not_mem {k : String} {l : Fields} (h : k ∉ l.map (·.1)) : (ofList l).get? k = none := by
  show (l.foldl (fun (acc : Fields) kv => acc.set kv.1 kv.2) []).get? k = none
  rw [get?_foldl_set l h]
  rfl

/-- A key of the members appended last finds nothing they did not have before. -/
theorem get?_ofList_append_of_not_mem {k : String} (l₁ : Fields) {l₂ : Fields} (h : k ∉ l₂.map (·.1)) :
    (ofList (l₁ ++ l₂)).get? k = (ofList l₁).get? k := by
  show ((l₁ ++ l₂).foldl (fun (acc : Fields) kv => acc.set kv.1 kv.2) []).get? k = _
  rw [List.foldl_append, get?_foldl_set l₂ h]
  rfl

end Fields

/-! ## The objects the reader builds -/

namespace Reader

theorem word_ok {w : List Char} {v j : Json} {cur r : Cursor} (h : word w v cur = .ok (j, r)) : j = v := by
  unfold word at h
  split at h
  · cases h; rfl
  · cases h

theorem number_ok {cur r : Cursor} {j : Json} (h : number cur = .ok (j, r)) : ∃ x, j = .num x := by
  unfold number at h
  -- name the sign and the integer digits, then every refusal is a branch of its own
  generalize (if cur.peek = some '-' then (true, cur.next) else (false, cur)) = p at h
  obtain ⟨neg, c1⟩ := p
  generalize digits c1 = q at h
  obtain ⟨whole, c2⟩ := q
  dsimp only at h
  split at h
  · cases h
  · split at h
    · cases h
    · split at h
      · cases h
      · split at h
        · cases h
        · cases h; exact ⟨_, rfl⟩

theorem array_ok : ∀ {fuel : Nat} {cur : Cursor} {acc : List Json} {j : Json} {r : Cursor},
    array fuel cur acc = .ok (j, r) → ∃ xs, j = .arr xs
  | 0, _, _, _, _, h => by simp [array] at h
  | fuel + 1, cur, acc, j, r, h => by
    rw [array.eq_2] at h
    split at h
    · cases h
    · dsimp only at h
      split at h
      · exact array_ok h
      · cases h; exact ⟨_, rfl⟩
      · cases h

/-- An object the reader builds from members with distinct keys keeps them distinct. -/
theorem object_ok : ∀ {fuel : Nat} {cur : Cursor} {acc : Fields} {j : Json} {r : Cursor},
    acc.Distinct → object fuel cur acc = .ok (j, r) → ∃ fs, j = .obj fs ∧ Fields.Distinct fs
  | 0, _, _, _, _, _, h => by simp [object] at h
  | fuel + 1, cur, acc, j, r, hacc, h => by
    rw [object.eq_def] at h
    simp only at h
    split at h
    · cases h; exact ⟨[], rfl, List.nodup_nil⟩
    · split at h
      · cases h
      · split at h
        · split at h
          · cases h
          · split at h
            · split at h
              · exact object_ok (Fields.Distinct.set hacc _ _) h
              · cases h
            · cases h; exact ⟨_, rfl, Fields.Distinct.set hacc _ _⟩
            · cases h
        · cases h
    · cases h
    · cases h

/-- The reader gives an object only where it reads one, so with distinct keys. -/
theorem value_obj : ∀ {fuel : Nat} {cur : Cursor} {fs : Fields} {r : Cursor},
    value fuel cur = .ok (.obj fs, r) → fs.Distinct
  | 0, _, _, _, h => by simp [value] at h
  | fuel + 1, cur, fs, r, h => by
    rw [value.eq_2] at h
    split at h
    · obtain ⟨gs, hj, hgs⟩ := @object_ok _ _ [] _ _ List.nodup_nil h
      cases hj
      exact hgs
    · dsimp only at h
      split at h
      · cases h
      · obtain ⟨xs, hj⟩ := array_ok h
        cases hj
    · cases hs : stringBody (skipBlank cur).next.rest (skipBlank cur).next.pos [] with
      | error e => rw [hs] at h; cases h
      | ok p => rw [hs] at h; cases h
    · cases word_ok h
    · cases word_ok h
    · cases word_ok h
    · split at h
      · obtain ⟨x, hj⟩ := number_ok h
        cases hj
      · cases h
    · cases h

end Reader

/-- An object read from text has one member per key. -/
theorem read_obj_distinct {s : String} {fs : Fields} (h : read s = .ok (.obj fs)) : fs.Distinct := by
  unfold read readText at h
  dsimp only at h
  split at h
  · next hv =>
    split at hv
    · cases hv
    · next v rest hval =>
      split at hv
      · cases hv
        cases h
        exact Reader.value_obj hval
      · cases hv
  · cases h

end Json

end DapBridge
