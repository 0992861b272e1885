import DapBridge.Proofs.Messages
import DapBridge.Proofs.Rounding
import Mathlib

/-!
# Schemas as kinds of values

With a validator that keeps the laws (`Validator.Laws`), what a schema of a request's arguments
accepts has a plain reading: each member is absent or of a kind (a text of some least length, a
flag, one of some names, a whole number in a range, a list or a record of such values).
`Requires V s q` says that `s` accepts exactly the present values `q` accepts, `Admits V s q` the
absent ones as well; `check_object_nil_iff` lifts them to an object, whose accepted values are
those `Json.fitsKinds` names, whatever other members they have.

The second half says what an accepted object reads as: a member under a schema that passes
values unchanged reads as given (`field?_of_transparent`), one with a default as given or as the
default (`field?_of_withDefault`).
-/

namespace DapBridge

namespace Json

/-- A whole number from `least` to `65535`. -/
def isPort (least : Int) : Json → Bool
  | .num x =>
    match x.toInt? with
    | some i => least ≤ i && i ≤ 65535
    | none => false
  | _ => false

/-- A list of at least `n` items, each of the kind `q` accepts. -/
def isArrayOf (q : Json → Bool) (n : Nat) : Json → Bool
  | .arr xs => n ≤ xs.length && xs.all q
  | _ => false

/-- An object whose values are each of the kind `q` accepts. -/
def isRecordOf (q : Json → Bool) : Json → Bool
  | .obj fs => fs.all fun kv => q kv.2
  | _ => false

/-- An object whose members named in `kinds` are each absent or of their kind; it may have
other members of any kind. -/
def fitsKinds (kinds : List (String × (Json → Bool))) : Json → Bool
  | .obj fs => kinds.all fun kq => (Fields.get? fs kq.1).all kq.2
  | _ => false

end Json

namespace Schema

variable {V : Validator}

/-- A schema that accepts exactly the values present and of the kind `q` accepts. -/
def Requires (V : Validator) (s : Schema) (q : Json → Bool) : Prop :=
  ∀ path v, (V.check s path v).1 = [] ↔ v.any q = true

/-- A schema that accepts exactly the values absent, or present and of the kind `q` accepts. -/
def Admits (V : Validator) (s : Schema) (q : Json → Bool) : Prop :=
  ∀ path v, (V.check s path v).1 = [] ↔ v.all q = true

theorem requires_string (hV : V.Laws) (n : Nat) : Requires V (.string n) (Json.isStr n) := hV.string n

theorem requires_boolean (hV : V.Laws) : Requires V .boolean Json.isBool := hV.boolean

theorem requires_oneOf (hV : V.Laws) (vs : List String) : Requires V (.oneOf vs) (Json.isOneOf vs) := hV.oneOf vs

/-- The checks of a port: a whole number from `least` to `65535`. -/
theorem isNumberWith_port (x : Double) {least : Int} (hl : least.natAbs ≤ 2 ^ 53) :
    Json.isNumberWith [.int, .atLeast least, .atMost 65535] (.num x) = Json.isPort least (.num x) := by
  simp only [Json.isNumberWith, List.all_cons, List.all_nil, Bool.and_true, NumberCheck.holds]
  cases hx : x.toInt? with
  | none =>
    -- a word that is no whole number fails the first check
    have hint : x.isInteger = false := by
      cases hi : x.isInteger
      · rfl
      · obtain ⟨i, hi'⟩ := Double.toInt?_of_isInteger hi
        rw [hx] at hi'
        cases hi'
    simp [hint, Json.isPort, hx]
  | some i =>
    rw [Double.isInteger_of_toInt? hx, Double.lt_ofInt_of_toInt? hx hl, Double.ofInt_lt_of_toInt? hx (by norm_num)]
    simp only [Json.isPort, hx]
    cases h1 : decide (i < least) <;> cases h2 : decide ((65535 : Int) < i) <;> simp_all

theorem requires_port (hV : V.Laws) {least : Int} (hl : least.natAbs ≤ 2 ^ 53) :
    Requires V (.number [.int, .atLeast least, .atMost 65535]) (Json.isPort least) := by
  intro path v
  rw [hV.number]
  rcases v with _ | ⟨_ | b | x | t | xs | fs⟩
  case some.num => rw [Option.any_some, Option.any_some, isNumberWith_port x hl]
  all_goals simp [Json.isNumberWith, Json.isPort]

theorem requires_array (hV : V.Laws) {item : Schema} {q : Json → Bool} (h : Requires V item q) (n : Nat) :
    Requires V (.array item n) (Json.isArrayOf q n) := by
  intro path v
  rw [hV.array]
  rcases v with _ | ⟨_ | b | x | t | xs | fs⟩
  case some.arr =>
    have hitem : ∀ i x, (V.check item (path ++ [.index i]) (some x)).1 = [] ↔ q x = true := fun i x => by
      simpa using h (path ++ [.index i]) (some x)
    simp only [Option.some.injEq, Json.arr.injEq, exists_eq_left', hitem, Option.any_some, Json.isArrayOf,
      Bool.and_eq_true, decide_eq_true_eq, List.all_eq_true]
    -- an item at some index is a member, and every member is at some index
    refine and_congr_right fun _ => ⟨fun hi x hx => ?_, fun hm i x hx => hm x (List.mem_of_getElem? hx)⟩
    obtain ⟨i, hi'⟩ := List.mem_iff_getElem?.1 hx
    exact hi i x hi'
  all_goals simp [Json.isArrayOf]

theorem requires_record (hV : V.Laws) {s : Schema} {q : Json → Bool} (h : Requires V s q) :
    Requires V (.record s) (Json.isRecordOf q) := by
  intro path v
  rw [hV.record]
  rcases v with _ | ⟨_ | b | x | t | xs | fs⟩
  case some.obj =>
    have hval : ∀ k x, (V.check s (path ++ [.key k]) (some x)).1 = [] ↔ q x = true := fun k x => by
      simpa using h (path ++ [.key k]) (some x)
    simp [hval, Json.isRecordOf]
  all_goals simp [Json.isRecordOf]

theorem Requires.optional (hV : V.Laws) {s : Schema} {q : Json → Bool} (h : Requires V s q) :
    Admits V (.optional s) q := by
  intro path v
  rw [hV.optional]
  cases v with
  | none => simp
  | some j => simpa using h path (some j)

/-- A default of the kind a schema requires makes an absent value acceptable. -/
theorem Requires.withDefault (hV : V.Laws) {s : Schema} {q : Json → Bool} (h : Requires V s q) {d : Json}
    (hd : q d = true) : Admits V (.withDefault s d) q := by
  intro path v
  rw [hV.withDefault, h]
  cases v <;> simp [hd]

/-- An object is accepted exactly when each named member is absent or of the kind its schema
admits, whatever its other members. -/
theorem check_object_nil_iff (hV : V.Laws) {fields : List (String × Schema)}
    {kinds : List (String × (Json → Bool))}
    (h : List.Forall₂ (fun kf kq => kf.1 = kq.1 ∧ Admits V kf.2 kq.2) fields kinds) (extra : ExtraKeys)
    (path : List PathStep) (v : Json) :
    (V.check (.object fields extra) path (some v)).1 = [] ↔ Json.fitsKinds kinds v = true := by
  rcases v with _ | b | x | t | xs | fs
  case obj =>
    rw [Message.object_nil_iff hV]
    simp only [Json.fitsKinds, List.all_eq_true]
    -- the fields and their kinds go along together
    induction h with
    | nil => simp
    | @cons kf kq fields kinds hkq _ ih =>
      rw [List.forall_mem_cons, List.forall_mem_cons]
      refine and_congr ?_ ih
      rw [hkq.1]
      exact hkq.2 _ _
  all_goals
    simp only [Json.fitsKinds, Bool.false_eq_true, iff_false]
    exact hV.object_kind _ _ _ _ fun fs h => by cases h

/-! ## What an accepted value reads as -/

theorem transparent_array (hV : V.Laws) {item : Schema} (h : Message.Transparent V item) (n : Nat) :
    Message.Transparent V (.array item n) := by
  intro path v hv
  obtain ⟨xs, rfl, -, hitems⟩ := (hV.array item n path v).1 hv
  exact hV.array_out item n path xs hv fun i x hx => h _ _ (hitems i x hx)

/-- An accepted value under a default reads as itself, and an absent one as the default. -/
theorem check_withDefault_out (hV : V.Laws) {s : Schema} (h : Message.Transparent V s) {d : Json}
    {path : List PathStep} {v : Option Json} (hv : (V.check (.withDefault s d) path v).1 = []) :
    (V.check (.withDefault s d) path v).2 = some (v.getD d) := by
  rw [hV.withDefault] at hv ⊢
  exact h _ _ hv

/-- The keys an object reads are among its schema's, in order. -/
theorem readKeys_sublist (path : List PathStep) (fs : Json.Fields) :
    ∀ fields : List (String × Schema),
      ((fields.filterMap fun kf => (V.check kf.2 (path ++ [.key kf.1]) (fs.get? kf.1)).2.map (kf.1, ·)).map
        (·.1)).Sublist (fields.map (·.1))
  | [] => by simp
  | (k, s) :: rest => by
    rw [List.filterMap_cons, List.map_cons]
    cases (V.check s (path ++ [.key k]) (Json.Fields.get? fs k)).2 with
    | none => exact (readKeys_sublist path fs rest).cons k
    | some o => exact (readKeys_sublist path fs rest).cons_cons k

/-- What an object reads under a key of its schema is what that key's schema read. -/
theorem get?_readMembers {path : List PathStep} {fs : Json.Fields} :
    ∀ {fields : List (String × Schema)}, (fields.map (·.1)).Nodup → ∀ {k : String} {s : Schema}, (k, s) ∈ fields →
      Json.Fields.get? (fields.filterMap fun kf => (V.check kf.2 (path ++ [.key kf.1]) (fs.get? kf.1)).2.map (kf.1, ·))
        k = (V.check s (path ++ [.key k]) (fs.get? k)).2
  | [], _, _, _, hk => absurd hk List.not_mem_nil
  | (k', s') :: rest, hn, k, s, hk => by
    rw [List.map_cons, List.nodup_cons] at hn
    rw [List.filterMap_cons]
    rcases List.mem_cons.1 hk with he | hrest
    · -- the first field is the one looked up, and no later one has its key
      obtain ⟨rfl, rfl⟩ := Prod.mk.inj he
      have hnone : Json.Fields.get? (rest.filterMap fun kf =>
          (V.check kf.2 (path ++ [.key kf.1]) (fs.get? kf.1)).2.map (kf.1, ·)) k = none :=
        Json.Fields.get?_eq_none_of_not_mem fun h => hn.1 ((readKeys_sublist path fs rest).subset h)
      cases (V.check s (path ++ [.key k]) (fs.get? k)).2 with
      | none => exact hnone
      | some o => exact Json.Fields.get?_cons_of_eq rfl _
    · have hne : k' ≠ k := fun h => hn.1 (h ▸ List.mem_map_of_mem (f := (·.1)) hrest)
      cases (V.check s' (path ++ [.key k']) (fs.get? k')).2 with
      | none => exact get?_readMembers hn.2 hrest
      | some o =>
        rw [Option.map_some, Json.Fields.get?_cons_of_ne hne]
        exact get?_readMembers hn.2 hrest

/-- The member `k` of what an accepted object schema that keeps other members reads is what
the schema of `k` read from the member given. -/
theorem field?_check_object (hV : V.Laws) {fields : List (String × Schema)} (hn : (fields.map (·.1)).Nodup)
    {k : String} {s : Schema} (hk : (k, s) ∈ fields) (hr : k ≠ reservedKey) {path : List PathStep}
    {fs : Json.Fields} (h : (V.check (.object fields .keep) path (some (.obj fs))).1 = []) (g : Json) :
    ((V.check (.object fields .keep) path (some (.obj fs))).2.getD g).field? k =
      (V.check s (path ++ [.key k]) (fs.get? k)).2 := by
  rw [hV.object_out fields path fs h, Option.getD_some]
  show Json.Fields.get? _ k = _
  have hdist : Json.Fields.Distinct (fields.filterMap fun kf =>
      (V.check kf.2 (path ++ [.key kf.1]) (fs.get? kf.1)).2.map (kf.1, ·)) :=
    hn.sublist (readKeys_sublist path fs fields)
  -- members the schema does not name are kept, and none of them is `k`
  have hkept : k ∉ (fs.filter fun kv => !(fields.map (·.1)).contains kv.1).map (·.1) := by
    intro hm
    obtain ⟨kv, hkv, rfl⟩ := List.mem_map.1 hm
    have hc := (List.mem_filter.1 hkv).2
    have hmem : (fields.map (·.1)).contains kv.1 = true := by
      simpa using List.mem_map_of_mem (f := (·.1)) hk
    rw [hmem] at hc
    cases hc
  rw [Json.Fields.get?_erase, if_neg hr, Json.Fields.get?_ofList_append_of_not_mem _ hkept,
    Json.Fields.get?_perm (Json.Fields.ofList_perm hdist) (Json.Fields.Distinct.ofList _), get?_readMembers hn hk]

/-- An accepted object reads back a member whose schema passes it unchanged as given. -/
theorem field?_of_transparent (hV : V.Laws) {fields : List (String × Schema)} {path : List PathStep}
    {fs : Json.Fields} (h : (V.check (.object fields .keep) path (some (.obj fs))).1 = [])
    (hn : (fields.map (·.1)).Nodup) {k : String} {s : Schema} (hk : (k, s) ∈ fields) (hr : k ≠ reservedKey)
    (hT : Message.Transparent V s) (g : Json) :
    ((V.check (.object fields .keep) path (some (.obj fs))).2.getD g).field? k = fs.get? k := by
  rw [field?_check_object hV hn hk hr h]
  exact hT _ _ ((Message.object_nil_iff hV _ _ _ _).1 h (k, s) hk)

/-- An accepted object reads back a member under a default as given, or as the default. -/
theorem field?_of_withDefault (hV : V.Laws) {fields : List (String × Schema)} {path : List PathStep}
    {fs : Json.Fields} (h : (V.check (.object fields .keep) path (some (.obj fs))).1 = [])
    (hn : (fields.map (·.1)).Nodup) {k : String} {s : Schema} {d : Json} (hk : (k, .withDefault s d) ∈ fields)
    (hr : k ≠ reservedKey) (hT : Message.Transparent V s) (g : Json) :
    ((V.check (.object fields .keep) path (some (.obj fs))).2.getD g).field? k = some ((fs.get? k).getD d) := by
  rw [field?_check_object hV hn hk hr h]
  exact check_withDefault_out hV hT ((Message.object_nil_iff hV _ _ _ _).1 h _ hk)

end Schema

end DapBridge
