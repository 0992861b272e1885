import DapBridge.Schema.Laws
import DapBridge.Proofs.Fields

/-!
# The standard validator keeps the laws

`Schema.check` walks a value and its schema together. This module reads its recursion over the
members of an object, the items of an array and the values of a record as the lists the laws
speak of, and assembles `Validator.standard_laws`: the validator the adapter runs with has the
documented behaviour the rest of the library assumes of a validator.
-/

namespace DapBridge

namespace Schema

theorem numberIssues_nil_iff (path : List PathStep) (x : Double) :
    ∀ cs : List NumberCheck, numberIssues path x cs = [] ↔ cs.all (NumberCheck.holds x) = true
  | [] => by simp [numberIssues]
  | c :: cs => by
    cases c <;> simp [numberIssues, NumberCheck.holds, numberIssues_nil_iff path x cs]

theorem checkFields_cons (path : List PathStep) (fs : Json.Fields) (k : String) (s : Schema)
    (rest : List (String × Schema)) :
    checkFields path fs ((k, s) :: rest) =
      ((check s (path ++ [.key k]) (fs.get? k)).1 ++ (checkFields path fs rest).1,
        (check s (path ++ [.key k]) (fs.get? k)).2.toList.map (k, ·) ++ (checkFields path fs rest).2) := by
  rw [checkFields]
  generalize check s (path ++ [.key k]) (fs.get? k) = c
  obtain ⟨is1, out1⟩ := c
  generalize checkFields path fs rest = d
  obtain ⟨is2, outs⟩ := d
  cases out1 <;> rfl

/-- An object's issues are its members' issues, member by member in schema order. -/
theorem checkFields_issues (path : List PathStep) (fs : Json.Fields) :
    ∀ fields : List (String × Schema), (checkFields path fs fields).1 = Validator.standard.memberIssues fields path fs
  | [] => by simp [checkFields, Validator.memberIssues]
  | (k, s) :: rest => by
    rw [checkFields_cons, checkFields_issues path fs rest]
    rfl

/-- What an object reads under the keys of its schema, in schema order. -/
theorem checkFields_pairs (path : List PathStep) (fs : Json.Fields) :
    ∀ fields : List (String × Schema), (checkFields path fs fields).2 =
      fields.filterMap fun kf => (check kf.2 (path ++ [.key kf.1]) (fs.get? kf.1)).2.map (kf.1, ·)
  | [] => by simp [checkFields]
  | (k, s) :: rest => by
    rw [checkFields_cons, checkFields_pairs path fs rest, List.filterMap_cons]
    cases check s (path ++ [.key k]) (fs.get? k) with
    | mk is out => cases out <;> rfl

theorem checkItems_cons (item : Schema) (path : List PathStep) (i : Nat) (x : Json) (xs : List Json) :
    checkItems item path i (x :: xs) =
      ((check item (path ++ [.index i]) (some x)).1 ++ (checkItems item path (i + 1) xs).1,
        (check item (path ++ [.index i]) (some x)).2.toList ++ (checkItems item path (i + 1) xs).2) := by
  rw [checkItems]

/-- The items of an array from index `i` pass exactly when each passes at its own index. -/
theorem checkItems_nil_iff (item : Schema) (path : List PathStep) :
    ∀ (i : Nat) (xs : List Json), (checkItems item path i xs).1 = [] ↔
      ∀ j x, xs[j]? = some x → (check item (path ++ [.index (i + j)]) (some x)).1 = []
  | _, [] => by simp [checkItems]
  | i, x :: xs => by
    rw [checkItems_cons, List.append_eq_nil_iff, checkItems_nil_iff item path (i + 1) xs]
    constructor
    · rintro ⟨hx, hxs⟩ j y hy
      cases j with
      | zero =>
        cases hy
        simpa using hx
      | succ j =>
        have := hxs j y (by simpa using hy)
        rwa [Nat.add_right_comm, Nat.add_assoc] at this
    · intro h
      refine ⟨by simpa using h 0 x rfl, fun j y hy => ?_⟩
      have := h (j + 1) y (by simpa using hy)
      rwa [← Nat.add_assoc, Nat.add_right_comm] at this

/-- Items that each read as given read as given. -/
theorem checkItems_out (item : Schema) (path : List PathStep) :
    ∀ (i : Nat) (xs : List Json),
      (∀ j x, xs[j]? = some x → (check item (path ++ [.index (i + j)]) (some x)).2 = some x) →
        (checkItems item path i xs).2 = xs
  | _, [], _ => by rw [checkItems]
  | i, x :: xs, h => by
    rw [checkItems_cons, checkItems_out item path (i + 1) xs fun j y hy => by
      have := h (j + 1) y (by simpa using hy)
      rwa [← Nat.add_assoc, Nat.add_right_comm] at this]
    have hx := h 0 x rfl
    rw [Nat.add_zero] at hx
    rw [hx]
    rfl

theorem checkValues_cons (s : Schema) (path : List PathStep) (k : String) (x : Json) (rest : List (String × Json)) :
    (checkValues s path ((k, x) :: rest)).1 = (check s (path ++ [.key k]) (some x)).1 ++ (checkValues s path rest).1 := by
  rw [checkValues]

theorem checkValues_nil_iff (s : Schema) (path : List PathStep) :
    ∀ fs : List (String × Json), (checkValues s path fs).1 = [] ↔
      ∀ kv ∈ fs, (check s (path ++ [.key kv.1]) (some kv.2)).1 = []
  | [] => by simp [checkValues]
  | (k, x) :: rest => by
    rw [checkValues_cons, List.append_eq_nil_iff, checkValues_nil_iff s path rest, List.forall_mem_cons]

theorem check_array (item : Schema) (n : Nat) (path : List PathStep) (xs : List Json) :
    check (.array item n) path (some (.arr xs)) =
      ((if xs.length < n then [⟨path, .shortArray n⟩] else []) ++ (checkItems item path 0 xs).1,
        some (.arr (checkItems item path 0 xs).2)) := by
  rw [check]

theorem check_object (fields : List (String × Schema)) (extra : ExtraKeys) (path : List PathStep)
    (fs : Json.Fields) :
    check (.object fields extra) path (some (.obj fs)) =
      ((checkFields path fs fields).1,
        some (.obj (Json.Fields.erase (Json.Fields.ofList ((checkFields path fs fields).2 ++
          if extra = .keep then fs.filter fun kv => !(fields.map (·.1)).contains kv.1 else []))
          reservedKey))) := by
  rw [check]

end Schema

namespace Validator

open Schema

theorem standard_check : standard.check = Schema.check := rfl

/-- Reading a value is the check from the root: its issues refuse it, and otherwise it reads as
the check reads it. -/
theorem read_eq (V : Validator) (s : Schema) (v : Option Json) :
    V.read s v = if (V.check s [] v).1.isEmpty then .ok (V.check s [] v).2 else .error (V.check s [] v).1 := by
  unfold read
  generalize V.check s [] v = c
  obtain ⟨issues, out⟩ := c
  rfl

theorem standard_plain (s : Schema) (path : List PathStep) (v : Option Json) (hs : s.isPlain = true)
    (h : (Schema.check s path v).1 = []) : (Schema.check s path v).2 = v := by
  cases s <;> simp only [Schema.isPlain, Bool.false_eq_true] at hs <;>
    rcases v with _ | ⟨_ | b | x | t | xs | fs⟩ <;> simp_all [Schema.check, kindIssue]
  all_goals split at h <;> simp_all

theorem standard_array (item : Schema) (n : Nat) (path : List PathStep) (v : Option Json) :
    (Schema.check (.array item n) path v).1 = [] ↔
      ∃ xs, v = some (.arr xs) ∧ n ≤ xs.length ∧
        ∀ i x, xs[i]? = some x → (Schema.check item (path ++ [.index i]) (some x)).1 = [] := by
  rcases v with _ | ⟨_ | b | x | t | xs | fs⟩
  case some.arr =>
    rw [check_array, List.append_eq_nil_iff, checkItems_nil_iff]
    simp
  all_goals simp [Schema.check, kindIssue]

theorem standard_record (s : Schema) (path : List PathStep) (v : Option Json) :
    (Schema.check (.record s) path v).1 = [] ↔
      ∃ fs, v = some (.obj fs) ∧ ∀ kv ∈ fs, (Schema.check s (path ++ [.key kv.1]) (some kv.2)).1 = [] := by
  rcases v with _ | ⟨_ | b | x | t | xs | fs⟩
  case some.obj =>
    have hc : (Schema.check (.record s) path (some (.obj fs))).1 = (checkValues s path fs).1 := by
      rw [Schema.check]
    rw [hc, checkValues_nil_iff]
    simp
  all_goals simp [Schema.check, kindIssue]

/-- `Schema.check` keeps the documented behaviour of a validator. -/
theorem standard_laws : standard.Laws where
  any path v := by simp [standard_check, Schema.check]
  string n path v := by
    rcases v with _ | ⟨_ | b | x | t | xs | fs⟩ <;> simp [standard_check, Schema.check, kindIssue, Json.isStr]
  number cs path v := by
    rcases v with _ | ⟨_ | b | x | t | xs | fs⟩
    case some.num => simp [standard_check, Schema.check, Json.isNumberWith, numberIssues_nil_iff]
    all_goals simp [standard_check, Schema.check, kindIssue, Json.isNumberWith]
  boolean path v := by
    rcases v with _ | ⟨_ | b | x | t | xs | fs⟩ <;> simp [standard_check, Schema.check, kindIssue, Json.isBool]
  literal s path v := by
    rcases v with _ | ⟨_ | b | x | t | xs | fs⟩ <;> simp [standard_check, Schema.check]
    split <;> simp_all
  oneOf vs path v := by
    rcases v with _ | ⟨_ | b | x | t | xs | fs⟩ <;> simp [standard_check, Schema.check, kindIssue, Json.isOneOf]
    split <;> simp_all
  plain := standard_plain
  optional s path v := by
    rw [standard_check, Schema.check]
  withDefault s d path v := by
    cases v <;> simp [standard_check, Schema.check]
  array := standard_array
  array_out item n path xs _ h := by
    rw [standard_check, check_array, checkItems_out item path 0 xs (by simpa [standard_check] using h)]
  record := standard_record
  object fields extra path fs := by
    rw [standard_check, check_object, checkFields_issues]
  object_kind fields extra path v hv := by
    rcases v with _ | ⟨_ | b | x | t | xs | fs⟩
    case some.obj => exact absurd rfl (hv fs)
    all_goals simp [standard_check, Schema.check, kindIssue]
  object_out fields path fs _ := by
    rw [standard_check, check_object, checkFields_pairs]
    rfl

end Validator

end DapBridge
