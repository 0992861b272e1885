import DapBridge.Proofs.JsonRoundTrip
import DapBridge.Proofs.Validation
import DapBridge.Message.Codec

/-!
# Reading protocol messages

With any validator that keeps the laws (`Validator.Laws`), `Message.parse` accepts a text
exactly when it is the JSON of an object in the wire grammar (`wellFormed`): an integer `seq`, a
`type` that is `request`, `response` or `event`, and the members that type requires, of the
right kinds. What it returns is that object, every member kept but one named `__proto__`. A
refusal is a protocol error naming the object's command when it has a string one, whatever the
validator. The messages the codec builds read back as themselves.

* `check_message_iff`: the schema of a message type finds no issue exactly on well-formed
  members;
* `read_message`: the members read are the object's, up to order and `__proto__`;
* `parse_ok`, `parse_of_wellFormed`, `parse_error`: what `parse` accepts, returns and refuses;
* `parse_write_built`: every message the builders make (`Built`) reads back as itself;
* `parse_accepts_exactly_wire_grammar`: the four together.

A number the builders write must be a `WireInteger`: `-0` is an integer, but JSON writes it as
`0`, so it reads back as another number.
-/

namespace DapBridge

namespace Message

open Json

/-! ## The wire grammar -/

/-- Whether a member is an integer number. -/
def isIntegerField : Option Json → Bool
  | some (.num x) => x.isInteger
  | _ => false

def isStringField : Option Json → Bool
  | some (.str _) => true
  | _ => false

def isBoolField : Option Json → Bool
  | some (.bool _) => true
  | _ => false

/-- The members a message of type `ty` requires beyond `seq` and `type`, of the right kinds. -/
def requiredFields (fs : Fields) : String → Bool
  | "request" => isStringField (fs.get? "command")
  | "response" =>
    isIntegerField (fs.get? "request_seq") && isBoolField (fs.get? "success") &&
      isStringField (fs.get? "command") && ((fs.get? "message").isNone || isStringField (fs.get? "message"))
  | "event" => isStringField (fs.get? "event")
  | _ => false

/-- The wire grammar on the members of an object: an integer `seq`, a known string `type` and
the members that type requires. -/
def wellFormed (fs : Fields) : Bool :=
  isIntegerField (fs.get? "seq") &&
    match fs.get? "type" with
    | some (.str t) => requiredFields fs t.toString
    | _ => false

/-- A message with an object's members: one member per key, each with the object's value, and
none named `__proto__`. -/
def SameMembers (m : Json) (fs : Fields) : Prop :=
  ∃ ms : Fields, m = .obj ms ∧ ms.Distinct ∧
    ∀ k, ms.get? k = if k = Schema.reservedKey then none else fs.get? k

/-- The command a refusal of `text` names: the string `command` of the object the text is. -/
def commandOf (text : String) : Option String :=
  match Json.read text with
  | .ok (.obj fs) => (Fields.get? fs "command").bind getString?
  | _ => none

/-! ## The checks of one member -/

/-- A schema that gives back the value it passes. -/
def Transparent (V : Validator) (s : Schema) : Prop :=
  ∀ path v, (V.check s path v).1 = [] → (V.check s path v).2 = v

variable {V : Validator}

theorem check_integer_iff (hV : V.Laws) (path : List PathStep) (v : Option Json) :
    (V.check integer path v).1 = [] ↔ isIntegerField v = true := by
  rw [integer, hV.number]
  rcases v with _ | ⟨_ | b | x | t | xs | fs⟩ <;> simp [Json.isNumberWith, NumberCheck.holds, isIntegerField]

theorem check_string_iff (hV : V.Laws) (path : List PathStep) (v : Option Json) :
    (V.check (.string 0) path v).1 = [] ↔ isStringField v = true := by
  rw [hV.string]
  rcases v with _ | ⟨_ | b | x | t | xs | fs⟩ <;> simp [Json.isStr, isStringField]

theorem check_boolean_iff (hV : V.Laws) (path : List PathStep) (v : Option Json) :
    (V.check .boolean path v).1 = [] ↔ isBoolField v = true := by
  rw [hV.boolean]
  rcases v with _ | ⟨_ | b | x | t | xs | fs⟩ <;> simp [Json.isBool, isBoolField]

theorem check_optional_iff (hV : V.Laws) (s : Schema) (path : List PathStep) (v : Option Json) :
    (V.check (.optional s) path v).1 = [] ↔ v = none ∨ (V.check s path v).1 = [] := by
  rw [hV.optional]
  cases v <;> simp

theorem check_any (hV : V.Laws) (path : List PathStep) (v : Option Json) : (V.check .any path v).1 = [] := by
  rw [hV.any]

theorem transparent_plain (hV : V.Laws) {s : Schema} (hs : s.isPlain = true) : Transparent V s :=
  fun path v => hV.plain s path v hs

theorem transparent_str (hV : V.Laws) (n : Nat) : Transparent V (.string n) := transparent_plain hV rfl

theorem transparent_number (hV : V.Laws) (cs : List NumberCheck) : Transparent V (.number cs) :=
  transparent_plain hV rfl

theorem transparent_boolean (hV : V.Laws) : Transparent V .boolean := transparent_plain hV rfl

theorem transparent_oneOf (hV : V.Laws) (vs : List String) : Transparent V (.oneOf vs) := transparent_plain hV rfl

theorem transparent_any (hV : V.Laws) : Transparent V .any := by
  intro path v _
  rw [hV.any]

theorem transparent_optional (hV : V.Laws) {s : Schema} (h : Transparent V s) : Transparent V (.optional s) := by
  intro path v
  rw [hV.optional]
  cases v with
  | none => simp
  | some j => exact h path (some j)

/-! ## The checks of an object -/

/-- An object has no issue exactly when none of its members has one. -/
theorem object_nil_iff (hV : V.Laws) (fields : List (String × Schema)) (extra : ExtraKeys) (path : List PathStep)
    (fs : Fields) :
    (V.check (.object fields extra) path (some (.obj fs))).1 = [] ↔
      ∀ kf ∈ fields, (V.check kf.2 (path ++ [.key kf.1]) (fs.get? kf.1)).1 = [] := by
  rw [hV.object, Validator.memberIssues, List.flatMap_eq_nil_iff]

/-- Members that pass transparent checks are read as they are, in schema order. -/
theorem keptObject_of_transparent {fields : List (String × Schema)} {path : List PathStep} {fs : Fields}
    (hT : ∀ kf ∈ fields, Transparent V kf.2)
    (h : ∀ kf ∈ fields, (V.check kf.2 (path ++ [.key kf.1]) (fs.get? kf.1)).1 = []) :
    V.keptObject fields path fs = .obj (Fields.erase (Fields.ofList
      ((fields.filterMap fun kf => (fs.get? kf.1).map (kf.1, ·)) ++
        fs.filter fun kv => !(fields.map (·.1)).contains kv.1)) Schema.reservedKey) := by
  unfold Validator.keptObject
  rw [List.filterMap_congr fun kf hkf => by rw [hT kf hkf _ _ (h kf hkf)]]

theorem check_message_iff (hV : V.Laws) {fs : Fields} {t : Text} (ht : fs.get? "type" = some (.str t))
    {s : Schema} (hs : schemaOf? t.toString = some s) :
    (V.check s [] (some (.obj fs))).1 = [] ↔ wellFormed fs = true := by
  have htext : t = Text.ofString t.toString := (Text.ofString_toString t).symm
  unfold schemaOf? at hs
  split at hs
  case h_4 => cases hs
  all_goals
    next hty =>
    cases hs
    -- the type is the text of its name, and reads back as that name
    have hback := congrArg Text.toString htext.symm
    rw [hty] at htext hback
    simp only [requestSchema, responseSchema, eventSchema, object_nil_iff hV,
      List.forall_mem_cons, List.not_mem_nil, IsEmpty.forall_iff, implies_true, and_true,
      check_integer_iff hV, hV.literal, check_string_iff hV, check_boolean_iff hV, check_optional_iff hV,
      check_any hV, or_true, ht, htext, hback, true_and, wellFormed, requiredFields, Bool.and_eq_true,
      Bool.or_eq_true, Option.isNone_iff_eq_none, and_assoc]

/-! ## What a message schema returns -/

theorem mem_filterMap_get {fields : List (String × Schema)} {fs : Fields} {k : String} {v : Json} :
    (k, v) ∈ fields.filterMap (fun kf => (fs.get? kf.1).map (kf.1, ·)) ↔
      k ∈ fields.map (·.1) ∧ fs.get? k = some v := by
  simp only [List.mem_filterMap, Option.map_eq_some_iff, Prod.mk.injEq, List.mem_map]
  constructor
  · rintro ⟨kf, hkf, v', hv', rfl, rfl⟩
    exact ⟨⟨kf, hkf, rfl⟩, hv'⟩
  · rintro ⟨⟨kf, hkf, rfl⟩, hv⟩
    exact ⟨kf, hkf, v, hv, rfl, rfl⟩

theorem distinct_filterMap_get {fs : Fields} :
    ∀ {fields : List (String × Schema)}, (fields.map (·.1)).Nodup →
      Fields.Distinct (fields.filterMap fun kf => (fs.get? kf.1).map (kf.1, ·))
  | [], _ => List.nodup_nil
  | kf :: fields, hn => by
    rw [List.map_cons, List.nodup_cons] at hn
    have hrest := @distinct_filterMap_get fs _ hn.2
    rw [List.filterMap_cons]
    cases hv : fs.get? kf.1 with
    | none => exact hrest
    | some v =>
      -- the first key is not among the keys of the others
      refine List.nodup_cons.2 ⟨fun hk => hn.1 ?_, hrest⟩
      obtain ⟨⟨k, w⟩, hmem, rfl⟩ := List.mem_map.1 hk
      exact (mem_filterMap_get.1 hmem).1

/-- The members a schema names, then the others, are the object's members reordered. -/
theorem pairs_append_kept_perm {fields : List (String × Schema)} (hn : (fields.map (·.1)).Nodup)
    {fs : Fields} (hfs : fs.Distinct) :
    ((fields.filterMap fun kf => (fs.get? kf.1).map (kf.1, ·)) ++
      fs.filter fun kv => !(fields.map (·.1)).contains kv.1).Perm fs := by
  have hpairs : (fields.filterMap fun kf => (fs.get? kf.1).map (kf.1, ·)).Perm
      (fs.filter fun kv => (fields.map (·.1)).contains kv.1) := by
    apply (List.perm_ext_iff_of_nodup (distinct_filterMap_get hn).of_map
      (hfs.of_map.sublist List.filter_sublist)).2
    rintro ⟨k, v⟩
    rw [mem_filterMap_get, List.mem_filter, Fields.get?_eq_some_iff hfs, List.contains_iff_mem]
    exact and_comm
  exact (hpairs.append_right _).trans (List.filter_append_perm _ fs)

/-- An object with distinct keys that passes a schema of transparent members is read as its
members, reordered and without `__proto__`. -/
theorem read_message {fields : List (String × Schema)} (hT : ∀ kf ∈ fields, Transparent V kf.2)
    (hn : (fields.map (·.1)).Nodup) {fs : Fields} (hfs : fs.Distinct)
    (h : ∀ kf ∈ fields, (V.check kf.2 ([] ++ [.key kf.1]) (fs.get? kf.1)).1 = []) :
    SameMembers (V.keptObject fields [] fs) fs := by
  rw [keptObject_of_transparent hT h]
  have hperm := pairs_append_kept_perm hn hfs
  have hdist : Fields.Distinct ((fields.filterMap fun kf => (fs.get? kf.1).map (kf.1, ·)) ++
      fs.filter fun kv => !(fields.map (·.1)).contains kv.1) := (hperm.map _).nodup_iff.2 hfs
  refine ⟨_, rfl, (Fields.Distinct.ofList _).erase _, fun k => ?_⟩
  rw [Fields.get?_erase, Fields.get?_perm (Fields.ofList_perm hdist) (Fields.Distinct.ofList _),
    Fields.get?_perm hperm hdist]

/-- The message schemas are objects of transparent members with distinct names that keep the
members they do not name. -/
theorem schemaOf_shape (hV : V.Laws) {ty : String} {s : Schema} (h : schemaOf? ty = some s) :
    ∃ fields, s = .object fields .keep ∧ (∀ kf ∈ fields, Transparent V kf.2) ∧ (fields.map (·.1)).Nodup := by
  unfold schemaOf? at h
  split at h
  case h_1 =>
    cases h
    refine ⟨_, rfl, ?_, by decide⟩
    simp only [List.forall_mem_cons, List.not_mem_nil, IsEmpty.forall_iff, implies_true, and_true]
    exact ⟨transparent_plain hV rfl, transparent_plain hV rfl, transparent_plain hV rfl,
      transparent_optional hV (transparent_any hV)⟩
  case h_2 =>
    cases h
    refine ⟨_, rfl, ?_, by decide⟩
    simp only [List.forall_mem_cons, List.not_mem_nil, IsEmpty.forall_iff, implies_true, and_true]
    exact ⟨transparent_plain hV rfl, transparent_plain hV rfl, transparent_plain hV rfl, transparent_plain hV rfl,
      transparent_plain hV rfl, transparent_optional hV (transparent_plain hV rfl),
      transparent_optional hV (transparent_any hV)⟩
  case h_3 =>
    cases h
    refine ⟨_, rfl, ?_, by decide⟩
    simp only [List.forall_mem_cons, List.not_mem_nil, IsEmpty.forall_iff, implies_true, and_true]
    exact ⟨transparent_plain hV rfl, transparent_plain hV rfl, transparent_plain hV rfl,
      transparent_optional hV (transparent_any hV)⟩
  case h_4 => cases h

/-! ## Parsing -/

/-- The type `parse` dispatches on is a string member whose schema exists. -/
theorem type_schema {fs : Fields} {t : String} {s : Schema}
    (h : (((fs.get? "type").getD .null).getString?.bind fun t => (schemaOf? t).map (t, ·)) = some (t, s)) :
    ∃ ty, fs.get? "type" = some (.str ty) ∧ ty.toString = t ∧ schemaOf? t = some s := by
  cases hty : fs.get? "type" with
  | none => simp [hty, getString?, getStr?] at h
  | some j =>
    rw [hty, Option.getD_some] at h
    cases j with
    | str ty =>
      simp only [getString?, getStr?, Option.map_some, Option.bind_some, Option.map_eq_some_iff,
        Prod.mk.injEq] at h
      obtain ⟨s', hs', rfl, rfl⟩ := h
      exact ⟨ty, rfl, rfl, hs'⟩
    | _ => simp [getString?, getStr?] at h

theorem contains_of_get? {fs : Fields} {k : String} {v : Json} (h : fs.get? k = some v) :
    fs.contains k = true := by
  obtain ⟨kv, hkv, -⟩ := Option.map_eq_some_iff.1 h
  have hk := List.find?_some hkv
  exact List.any_eq_true.2 ⟨kv, List.mem_of_find?_eq_some hkv, hk⟩

theorem schema_read_ok {s : Schema} {v out : Option Json} (h : V.read s v = .ok out) :
    (V.check s [] v).1 = [] ∧ (V.check s [] v).2 = out := by
  unfold Validator.read at h
  generalize V.check s [] v = c at h
  obtain ⟨issues, o⟩ := c
  dsimp only at h
  split at h
  · next hi => cases h; exact ⟨List.isEmpty_iff.1 hi, rfl⟩
  · cases h

/-- What `parse` accepts is the text of a well-formed object, and what it returns has that
object's members. -/
theorem parse_ok (hV : V.Laws) {text : String} {m : Json} (h : parse V text = .ok m) :
    ∃ fs, Json.read text = .ok (.obj fs) ∧ wellFormed fs = true ∧ SameMembers m fs := by
  unfold parse at h
  split at h
  · cases h
  · next raw hraw =>
    split at h
    · next fs =>
      dsimp only at h
      split at h
      · cases h
      split at h
      · cases h
      split at h
      · cases h
      · next t s hts =>
        split at h
        · next out hout =>
          cases h
          obtain ⟨ty, hty, rfl, hs⟩ := type_schema hts
          obtain ⟨fields, rfl, hT, hn⟩ := schemaOf_shape hV hs
          obtain ⟨hnil, hout⟩ := schema_read_ok hout
          have hwf := (check_message_iff hV hty hs).1 hnil
          rw [hV.object_out fields [] fs hnil] at hout
          cases hout
          exact ⟨fs, hraw, hwf, read_message hT hn (read_obj_distinct hraw) ((object_nil_iff hV _ _ _ _).1 hnil)⟩
        · cases h
    · cases h

theorem schema_read_of_nil {s : Schema} {v : Option Json} (h : (V.check s [] v).1 = []) :
    V.read s v = .ok (V.check s [] v).2 := by
  unfold Validator.read
  generalize V.check s [] v = c at h
  obtain ⟨issues, o⟩ := c
  dsimp only at h ⊢
  rw [if_pos (List.isEmpty_iff.2 h)]

/-- A type whose required members are there has a schema. -/
theorem schemaOf_of_required {fs : Fields} {ty : String} (h : requiredFields fs ty = true) :
    ∃ s, schemaOf? ty = some s := by
  unfold requiredFields at h
  split at h
  · exact ⟨_, rfl⟩
  · exact ⟨_, rfl⟩
  · exact ⟨_, rfl⟩
  · cases h

/-- What `parse` returns for the text of a well-formed object: the members its schema names,
then the others, built and without `__proto__`. -/
theorem parse_eq (hV : V.Laws) {text : String} {fs : Fields} {t : Text} {fields : List (String × Schema)}
    (h : Json.read text = .ok (.obj fs)) (ht : fs.get? "type" = some (.str t))
    (hs : schemaOf? t.toString = some (.object fields .keep)) (hwf : wellFormed fs = true) :
    parse V text = .ok (V.keptObject fields [] fs) := by
  have hseq : isIntegerField (fs.get? "seq") = true := (Bool.and_eq_true _ _ ▸ hwf).1
  have hseq' : fs.contains "seq" = true := by
    cases hv : fs.get? "seq" with
    | none => rw [hv] at hseq; cases hseq
    | some v => exact contains_of_get? hv
  have hnil := (check_message_iff hV ht hs).2 hwf
  have hread := schema_read_of_nil hnil
  rw [hV.object_out fields [] fs hnil] at hread
  unfold parse
  simp only [h, hseq', contains_of_get? ht, ht, Bool.not_true, Bool.false_eq_true, if_false,
    Option.getD_some, getString?, getStr?, Option.map_some, Option.bind_some, hs, hread]

/-- `parse` accepts the text of every well-formed object. -/
theorem parse_of_wellFormed (hV : V.Laws) {text : String} {fs : Fields} (h : Json.read text = .ok (.obj fs))
    (hwf : wellFormed fs = true) : ∃ m, parse V text = .ok m := by
  have htype : (match fs.get? "type" with
      | some (.str t) => requiredFields fs t.toString
      | _ => false) = true := (Bool.and_eq_true _ _ ▸ hwf).2
  obtain ⟨t, ht, hreq⟩ : ∃ t, fs.get? "type" = some (.str t) ∧ requiredFields fs t.toString = true := by
    split at htype
    · next t ht => exact ⟨t, ht, htype⟩
    · cases htype
  obtain ⟨s, hs⟩ := schemaOf_of_required hreq
  obtain ⟨fields, rfl, -, -⟩ := schemaOf_shape hV hs
  exact ⟨_, parse_eq hV h ht hs hwf⟩

/-- A representable well-formed object whose members are its schema's, in schema order, reads
back as itself. -/
theorem parse_write_ordered (hV : V.Laws) {fs : Fields} {t : Text} {fields : List (String × Schema)}
    (ht : fs.get? "type" = some (.str t)) (hs : schemaOf? t.toString = some (.object fields .keep))
    (hwf : wellFormed fs = true) (hrep : (Json.obj fs).Representable)
    (horder : fields.filterMap (fun kf => (fs.get? kf.1).map (kf.1, ·)) = fs)
    (hproto : Schema.reservedKey ∉ fields.map (·.1)) :
    parse V (write (.obj fs)) = .ok (.obj fs) := by
  obtain ⟨fields', hfields, hT, -⟩ := schemaOf_shape hV hs
  cases hfields
  cases hrep with
  | obj hset _ _ =>
    have hnil := (object_nil_iff hV _ _ _ _).1 ((check_message_iff hV ht hs).2 hwf)
    -- every member is one the schema names, and none is `__proto__`
    have hnames : ∀ kv ∈ fs, kv.1 ∈ fields.map (·.1) := by
      rintro ⟨k, v⟩ hkv
      rw [← horder] at hkv
      exact (mem_filterMap_get.1 hkv).1
    have hkept : (fs.filter fun kv => !(fields.map (·.1)).contains kv.1) = [] :=
      List.filter_eq_nil_iff.2 fun kv hkv => by simp [hnames kv hkv]
    have herase : Fields.erase fs Schema.reservedKey = fs :=
      List.filter_eq_self.2 fun kv hkv => by
        have hne : kv.1 ≠ Schema.reservedKey := fun h => hproto (h ▸ hnames kv hkv)
        simpa using hne
    rw [parse_eq hV (read_write (.obj hset ‹_› ‹_›)) ht hs hwf, keptObject_of_transparent hT hnil, horder,
      hkept, List.append_nil, hset, herase]

/-! ## The messages the codec builds -/

theorem isFinite_of_isInteger {x : Double} (h : x.isInteger = true) : x.isFinite = true := by
  unfold Double.isInteger at h
  unfold Double.isFinite
  split at h <;> simp_all

/-- An integer JSON writes as itself: any but `-0`, which it writes as `0`. -/
def WireInteger (x : Double) : Prop := x.isInteger = true ∧ x ≠ Double.negZero

theorem WireInteger.representable {x : Double} (h : WireInteger x) : (Json.num x).Representable :=
  .num (isFinite_of_isInteger h.1) h.2

/-- An object whose keys are among distinct keys that are no array index and are the text of
themselves, with representable values, is representable. -/
theorem representable_obj_of_keys {l : Fields} (ks : List String) (h : (l.map (·.1)).Sublist ks)
    (hn : ks.Nodup) (hp : (ks.all fun k => arrayIndex k == none) = true)
    (hk : (ks.all fun k => (Text.ofString k).toString == k) = true)
    (hv : ∀ kv ∈ l, kv.2.Representable) : (Json.obj l).Representable := by
  have hsub : ∀ kv ∈ l, kv.1 ∈ ks := fun kv hkv => h.subset (Fields.mem_keys_of_mem hkv)
  refine .obj (Fields.ofList_of_keys l _ rfl (hn.sublist h) ?_) (fun kv hkv => ?_) hv
  · simpa using fun k v hkv => List.all_eq_true.1 hp k (hsub (k, v) hkv)
  · simpa using List.all_eq_true.1 hk kv.1 (hsub kv hkv)

theorem request_members (c : Codec) (command : Text) (args : Option Json) :
    (c.request command args).1 = .obj ([("seq", .num c.seq), ("type", .string "request"),
      ("command", .str command)] ++ args.toList.map (("arguments", ·))) := by
  cases args with
  | none =>
    exact congrArg Json.obj (Fields.ofList_of_keys _ ["seq", "type", "command"] rfl (by decide) (by decide))
  | some a =>
    exact congrArg Json.obj
      (Fields.ofList_of_keys _ ["seq", "type", "command", "arguments"] rfl (by decide) (by decide))

theorem response_members (c : Codec) (req : RequestRef) (body : Option Json) :
    (c.response req body).1 = .obj ([("seq", .num c.seq), ("type", .string "response"),
      ("request_seq", .num req.seq), ("success", .bool true), ("command", .str req.command)] ++
        body.toList.map (("body", ·))) := by
  cases body with
  | none =>
    exact congrArg Json.obj (Fields.ofList_of_keys _ ["seq", "type", "request_seq", "success", "command"]
      rfl (by decide) (by decide))
  | some b =>
    exact congrArg Json.obj (Fields.ofList_of_keys _
      ["seq", "type", "request_seq", "success", "command", "body"] rfl (by decide) (by decide))

theorem event_members (c : Codec) (event : Text) (body : Option Json) :
    (c.event event body).1 = .obj ([("seq", .num c.seq), ("type", .string "event"),
      ("event", .str event)] ++ body.toList.map (("body", ·))) := by
  cases body with
  | none =>
    exact congrArg Json.obj (Fields.ofList_of_keys _ ["seq", "type", "event"] rfl (by decide) (by decide))
  | some b =>
    exact congrArg Json.obj
      (Fields.ofList_of_keys _ ["seq", "type", "event", "body"] rfl (by decide) (by decide))

theorem errorResponse_members (c : Codec) (req : RequestRef) (message : String) :
    (c.errorResponse req message).1 = .obj [("seq", .num c.seq), ("type", .string "response"),
      ("request_seq", .num req.seq), ("success", .bool false), ("command", .str req.command),
      ("message", .string message), ("body", .obj [("error", .string "ProtocolError"),
        ("details", .obj [("command", .str req.command)])])] := by
  simp only [Codec.errorResponse, Codec.next, Json.object]
  rw [Fields.ofList_of_keys [("command", _)] ["command"] rfl (by decide) (by decide),
    Fields.ofList_of_keys [("error", _), ("details", _)] ["error", "details"] rfl (by decide) (by decide),
    Fields.ofList_of_keys _ ["seq", "type", "request_seq", "success", "command", "message", "body"] rfl
      (by decide) (by decide)]

theorem failureResponse_members (c : Codec) (req : RequestRef) (f : Fault)
    (hf : f.code ≠ "ProtocolError") :
    (c.failureResponse req f).1 = .obj [("seq", .num c.seq), ("type", .string "response"),
      ("request_seq", .num req.seq), ("success", .bool false), ("command", .str req.command),
      ("message", .string f.message), ("body", .obj [("error", .string f.code)])] := by
  simp only [Codec.failureResponse, if_neg hf, Codec.next, Json.object]
  rw [Fields.ofList_of_keys [("error", _)] ["error"] rfl (by decide) (by decide),
    Fields.ofList_of_keys _ ["seq", "type", "request_seq", "success", "command", "message", "body"] rfl
      (by decide) (by decide)]

theorem toString_request : (Text.ofString "request").toString = "request" := by decide

theorem toString_response : (Text.ofString "response").toString = "response" := by decide

theorem toString_event : (Text.ofString "event").toString = "event" := by decide

theorem schemaOf_request : schemaOf? (Text.ofString "request").toString = some requestSchema := by
  rw [toString_request]; rfl

theorem schemaOf_response : schemaOf? (Text.ofString "response").toString = some responseSchema := by
  rw [toString_response]; rfl

theorem schemaOf_event : schemaOf? (Text.ofString "event").toString = some eventSchema := by
  rw [toString_event]; rfl

/-! Each builder's members are its schema's in schema order, so `parse_write_ordered` applies;
what is left is reading the members off the literal lists. -/

theorem parse_write_request (hV : V.Laws) {c : Codec} {args : Option Json} (command : Text)
    (hseq : WireInteger c.seq) (hargs : ∀ a ∈ args, a.Representable) :
    parse V (write (c.request command args).1) = .ok (c.request command args).1 := by
  rw [request_members]
  cases args <;>
  refine parse_write_ordered hV ?_ schemaOf_request ?_
    (representable_obj_of_keys ["seq", "type", "command", "arguments"] (by simp) (by decide) (by decide)
      (by decide) ?_) ?_ (by decide) <;>
  simp_all [Fields.get?, Json.string, wellFormed, requiredFields, isIntegerField, isStringField,
    hseq.1, hseq.representable, Representable.str, toString_request]

theorem parse_write_response (hV : V.Laws) {c : Codec} {req : RequestRef} {body : Option Json}
    (hseq : WireInteger c.seq) (hreq : WireInteger req.seq) (hbody : ∀ b ∈ body, b.Representable) :
    parse V (write (c.response req body).1) = .ok (c.response req body).1 := by
  rw [response_members]
  cases body <;>
  refine parse_write_ordered hV ?_ schemaOf_response ?_
    (representable_obj_of_keys ["seq", "type", "request_seq", "success", "command", "body"] (by simp)
      (by decide) (by decide) (by decide) ?_) ?_ (by decide) <;>
  simp_all [Fields.get?, Json.string, wellFormed, requiredFields, isIntegerField, isStringField,
    isBoolField, hseq.1, hseq.representable, hreq.1, hreq.representable, Representable.str,
    Representable.bool, toString_response]

theorem parse_write_event (hV : V.Laws) {c : Codec} {body : Option Json} (event : Text)
    (hseq : WireInteger c.seq) (hbody : ∀ b ∈ body, b.Representable) :
    parse V (write (c.event event body).1) = .ok (c.event event body).1 := by
  rw [event_members]
  cases body <;>
  refine parse_write_ordered hV ?_ schemaOf_event ?_
    (representable_obj_of_keys ["seq", "type", "event", "body"] (by simp) (by decide) (by decide)
      (by decide) ?_) ?_ (by decide) <;>
  simp_all [Fields.get?, Json.string, wellFormed, requiredFields, isIntegerField, isStringField,
    hseq.1, hseq.representable, Representable.str, toString_event]

/-- A failed response, whatever its representable body, reads back as itself. -/
theorem parse_write_failed (hV : V.Laws) {c : Codec} {req : RequestRef} (message : String) {body : Json}
    (hseq : WireInteger c.seq) (hreq : WireInteger req.seq) (hbody : body.Representable) :
    parse V (write (.obj [("seq", .num c.seq), ("type", .string "response"),
      ("request_seq", .num req.seq), ("success", .bool false), ("command", .str req.command),
      ("message", .string message), ("body", body)])) =
    .ok (.obj [("seq", .num c.seq), ("type", .string "response"),
      ("request_seq", .num req.seq), ("success", .bool false), ("command", .str req.command),
      ("message", .string message), ("body", body)]) := by
  refine parse_write_ordered hV ?_ schemaOf_response ?_
    (representable_obj_of_keys ["seq", "type", "request_seq", "success", "command", "message", "body"]
      (by simp) (by decide) (by decide) (by decide) ?_) ?_ (by decide) <;>
  simp_all [Fields.get?, Json.string, wellFormed, requiredFields, isIntegerField, isStringField,
    isBoolField, hseq.1, hseq.representable, hreq.1, hreq.representable, Representable.str,
    Representable.bool, toString_response]

theorem parse_write_errorResponse (hV : V.Laws) {c : Codec} {req : RequestRef} (message : String)
    (hseq : WireInteger c.seq) (hreq : WireInteger req.seq) :
    parse V (write (c.errorResponse req message).1) = .ok (c.errorResponse req message).1 := by
  have hdetails : (Json.obj [("command", .str req.command)]).Representable :=
    representable_obj_of_keys ["command"] (by simp) (by decide) (by decide) (by decide)
      (by simp [Representable.str])
  rw [errorResponse_members]
  refine parse_write_failed hV message hseq hreq
    (representable_obj_of_keys ["error", "details"] (by simp) (by decide) (by decide) (by decide) ?_)
  simp [hdetails, Json.string, Representable.str]

theorem parse_write_failureResponse (hV : V.Laws) {c : Codec} {req : RequestRef} (f : Fault)
    (hseq : WireInteger c.seq) (hreq : WireInteger req.seq) :
    parse V (write (c.failureResponse req f).1) = .ok (c.failureResponse req f).1 := by
  by_cases hf : f.code = "ProtocolError"
  · simp only [Codec.failureResponse, if_pos hf]
    exact parse_write_errorResponse hV f.message hseq hreq
  · rw [failureResponse_members c req f hf]
    exact parse_write_failed hV f.message hseq hreq
      (representable_obj_of_keys ["error"] (by simp) (by decide) (by decide) (by decide)
        (by simp [Json.string, Representable.str]))

/-- The messages the codec builds from sequence numbers that are wire integers and from
representable arguments and bodies. -/
inductive Built : Json → Prop
  | request (c : Codec) (command : Text) (args : Option Json) :
      WireInteger c.seq → (∀ a ∈ args, a.Representable) → Built (c.request command args).1
  | response (c : Codec) (req : RequestRef) (body : Option Json) :
      WireInteger c.seq → WireInteger req.seq → (∀ b ∈ body, b.Representable) →
        Built (c.response req body).1
  | event (c : Codec) (event : Text) (body : Option Json) :
      WireInteger c.seq → (∀ b ∈ body, b.Representable) → Built (c.event event body).1
  | errorResponse (c : Codec) (req : RequestRef) (message : String) :
      WireInteger c.seq → WireInteger req.seq → Built (c.errorResponse req message).1
  | failureResponse (c : Codec) (req : RequestRef) (f : Fault) :
      WireInteger c.seq → WireInteger req.seq → Built (c.failureResponse req f).1

/-- Every message the builders make reads back as itself. -/
theorem parse_write_built (hV : V.Laws) {m : Json} (h : Built m) : parse V (write m) = .ok m := by
  cases h with
  | request c command args hseq hargs => exact parse_write_request hV command hseq hargs
  | response c req body hseq hreq hbody => exact parse_write_response hV hseq hreq hbody
  | event c event body hseq hbody => exact parse_write_event hV event hseq hbody
  | errorResponse c req message hseq hreq => exact parse_write_errorResponse hV message hseq hreq
  | failureResponse c req f hseq hreq => exact parse_write_failureResponse hV f hseq hreq

/-- A refusal is a protocol error naming the command of the object the text is, if any. -/
theorem parse_error {text : String} {e : AdapterError} (h : parse V text = .error e) :
    e.kind = .protocol ∧ e.command = commandOf text := by
  unfold parse at h
  unfold commandOf
  split at h
  · next err hread =>
    cases h
    rw [hread]
    exact ⟨rfl, rfl⟩
  · next raw hraw =>
    rw [hraw]
    split at h
    · next fs =>
      dsimp only at h ⊢
      split at h
      · cases h; exact ⟨rfl, rfl⟩
      split at h
      · cases h; exact ⟨rfl, rfl⟩
      split at h
      · cases h; exact ⟨rfl, rfl⟩
      · split at h
        · cases h
        · cases h; exact ⟨rfl, rfl⟩
    · next hnot =>
      cases h
      split
      · next fs hfs => cases hfs; exact absurd rfl (hnot fs)
      · exact ⟨rfl, rfl⟩

end Message

end DapBridge
