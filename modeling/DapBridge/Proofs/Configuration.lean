import DapBridge.Proofs.SchemaKinds
import DapBridge.Config.Session
import DapBridge.Session.Dispatch

/-!
# Launch and attach configurations, read

`LaunchConfig.read` and `AttachConfig.read` check a request's arguments (an empty object when
there are none) against their schema, refuse what they cannot run with, and fill in what the
arguments leave out from the engine's defaults and then from built-in ones. This module says,
for every argument value, every set of defaults and every platform, when each read refuses and
what it configures otherwise.

* `LaunchConfig.read_spec`: a launch is refused exactly when its arguments do not fit the
  launch schema or run neither in process nor a program; otherwise the transport, host, binary
  flag and launcher are the arguments', else the defaults', else the built-in ones.
* `AttachConfig.read_spec`: an attach is refused exactly when its arguments do not fit, ask to
  run in process, or leave out the address of the transport chosen; otherwise it has the
  address that transport connects to.

Refusals are always configuration errors (`FailsAsConfiguration`).
-/

namespace DapBridge

theorem Text.toString_isEmpty (t : Text) : t.toString.isEmpty = decide (t.length = 0) := by
  obtain ⟨units⟩ := t
  cases units with
  | nil => rfl
  | cons u us => simp [Text.toString, Text.length]

theorem Message.schema_read_of_ne_nil {V : Validator} {s : Schema} {v : Option Json} (h : (V.check s [] v).1 ≠ []) :
    V.read s v = .error (V.check s [] v).1 := by
  unfold Validator.read
  generalize V.check s [] v = c at h
  obtain ⟨issues, o⟩ := c
  dsimp only at h ⊢
  rw [if_neg (fun he => h (List.isEmpty_iff.1 he))]

/-! ## Reading the arguments of a launch or an attach -/

variable {V : Validator}

/-- Arguments the schema accepts are read as the schema reads them, absent or `null` ones as an
empty object. -/
theorem checkArguments_of_nil {what : String} {schema : Schema} {raw : Option Json}
    (h : (V.check schema [] (some (Session.orEmpty raw))).1 = []) :
    checkArguments V what schema raw =
      .ok (((V.check schema [] (some (Session.orEmpty raw))).2).getD (Session.orEmpty raw)) := by
  have hr := Message.schema_read_of_nil h
  rcases raw with _ | ⟨_ | b | x | t | xs | fs⟩ <;>
    (unfold checkArguments; dsimp only [Session.orEmpty] at hr ⊢; rw [hr])

/-- Arguments with issues are refused with a configuration error. -/
theorem checkArguments_of_ne_nil {what : String} {schema : Schema} {raw : Option Json}
    (h : (V.check schema [] (some (Session.orEmpty raw))).1 ≠ []) :
    ∃ m, checkArguments V what schema raw = .error (.configuration m) := by
  have hr := Message.schema_read_of_ne_nil h
  rcases raw with _ | ⟨_ | b | x | t | xs | fs⟩ <;>
    (unfold checkArguments; dsimp only [Session.orEmpty] at hr ⊢; rw [hr]; exact ⟨_, rfl⟩)

/-- A setting given as something other than `null` wins over the defaults. -/
theorem settingOf_eq {a : Json} {k : String} (h : a.field? k ≠ some .null) (default : Option Json) (builtin : Json) :
    settingOf a k default builtin = (a.field? k).getD (default.getD builtin) := by
  unfold settingOf givenField?
  rcases hk : a.field? k with _ | ⟨_ | b | x | t | xs | fs⟩
  · rfl
  · exact absurd hk h
  all_goals rfl

theorem Json.obj_of_fitsKinds {kinds : List (String × (Json → Bool))} {v : Json} (h : Json.fitsKinds kinds v = true) :
    ∃ fs, v = .obj fs := by
  rcases v with _ | b | x | t | xs | fs
  case obj => exact ⟨fs, rfl⟩
  all_goals simp [Json.fitsKinds] at h

/-- A member of a kind that is never `null` is not given as `null`. -/
theorem Json.ne_null_of_all {q : Json → Bool} (hq : q .null = false) {v : Option Json} (h : v.all q = true) :
    v ≠ some .null := by
  rintro rfl
  simp [hq] at h

/-- A text member of at least one unit reads as an empty string exactly when it is absent. -/
theorem Json.strField?_nonempty {a : Json} {k : String} {v : Option Json} (ha : a.field? k = v)
    (h : v.all (Json.isStr 1) = true) : ((a.strField? k).getD "").isEmpty = true ↔ v = none := by
  simp only [Json.strField?, ha]
  rcases v with _ | ⟨_ | b | x | t | xs | gs⟩
  case some.str =>
    simp only [Option.all_some, Json.isStr, decide_eq_true_eq] at h
    simp only [Option.bind_some, Json.getString?, Json.getStr?, Option.map_some, Option.getD_some,
      Text.toString_isEmpty, decide_eq_true_eq, reduceCtorEq, iff_false]
    omega
  all_goals simp_all [Json.isStr, Json.getString?, Json.getStr?]

/-- A text member reads as an empty string exactly when it is absent or has no units. -/
theorem Json.strField?_isEmpty {a : Json} {k : String} {v : Option Json} (ha : a.field? k = v)
    (h : v.all (Json.isStr 0) = true) : ((a.strField? k).getD "").isEmpty = !(v.any (Json.isStr 1)) := by
  simp only [Json.strField?, ha]
  rcases v with _ | ⟨_ | b | x | t | xs | gs⟩
  case some.str =>
    simp only [Option.bind_some, Json.getString?, Json.getStr?, Option.map_some, Option.getD_some,
      Text.toString_isEmpty, Option.any_some, Json.isStr]
    cases t.length <;> simp
  all_goals simp_all [Json.isStr, Json.getString?, Json.getStr?]

/-- A port member reads as a number exactly when it is given. -/
theorem Json.numField?_isNone {a : Json} {k : String} {v : Option Json} (ha : a.field? k = v) {least : Int}
    (h : v.all (Json.isPort least) = true) : (a.numField? k).isNone = !(v.any (Json.isPort least)) := by
  simp only [Json.numField?, ha]
  rcases v with _ | ⟨_ | b | x | t | xs | gs⟩
  case some.num => simp_all [Json.getNum?]
  all_goals simp_all [Json.isPort, Json.getNum?]

/-- A port member that reads as a number is a whole number from `least` to `65535`. -/
theorem Json.numField?_port {a : Json} {k : String} {v : Option Json} (ha : a.field? k = v) {least : Int}
    (h : v.all (Json.isPort least) = true) {x : Double} (hx : a.numField? k = some x) :
    ∃ n : Int, x.toInt? = some n ∧ least ≤ n ∧ n ≤ 65535 := by
  simp only [Json.numField?, ha] at hx
  rcases v with _ | ⟨_ | b | y | t | xs | gs⟩
  case some.num =>
    simp only [Option.bind_some, Json.getNum?, Option.some.injEq] at hx
    subst hx
    simp only [Option.all_some, Json.isPort] at h
    split at h
    · next n hn => simp only [Bool.and_eq_true, decide_eq_true_eq] at h; exact ⟨n, hn, h⟩
    · cases h
  all_goals simp [Json.getNum?] at hx

/-- A flag member with the default `false` reads as `true` exactly when it is given as `true`. -/
theorem Json.boolField?_withDefault {a : Json} {k : String} {v : Option Json}
    (ha : a.field? k = some (v.getD (.bool false))) :
    (a.boolField? k).getD false = true ↔ v = some (.bool true) := by
  simp only [Json.boolField?, ha, Option.bind_some]
  rcases v with _ | ⟨_ | b | x | t | xs | gs⟩
  case some.bool => cases b <;> simp [Json.getBool?]
  all_goals simp [Json.getBool?]

/-- A name read as an option that is not empty is there. -/
theorem Option.exists_of_getD_isEmpty {o : Option String} (h : (o.getD "").isEmpty = false) :
    ∃ s, o = some s ∧ s ≠ "" := by
  cases o with
  | none => cases h
  | some s => exact ⟨s, rfl, fun hs => by simp [hs] at h⟩

/-- A read that fails fails with a configuration error. -/
def FailsAsConfiguration {α : Type} (r : Except AdapterError α) : Prop :=
  ∀ e, r = .error e → ∃ m, e = .configuration m

theorem failsAsConfiguration_error {α : Type} {r : Except AdapterError α} {m : String}
    (h : r = .error (.configuration m)) : FailsAsConfiguration r := by
  intro e he
  rw [h] at he
  cases he
  exact ⟨m, rfl⟩

theorem failsAsConfiguration_ok {α : Type} {r : Except AdapterError α} {c : α} (h : r = .ok c) :
    FailsAsConfiguration r := by
  intro e he
  rw [h] at he
  cases he

/-- Arguments that do not fit the kinds a schema accepts make a read that starts from them refuse
them with a configuration error. -/
theorem checkArguments_bind_of_unfit {α : Type} (what : String) {schema : Schema}
    {kinds : List (String × (Json → Bool))}
    (hs : ∀ v, (V.check schema [] (some v)).1 = [] ↔ Json.fitsKinds kinds v = true) {raw : Option Json}
    (f : Json → Except AdapterError α) (hfit : Json.fitsKinds kinds (Session.orEmpty raw) = false) :
    ∃ m, (checkArguments V what schema raw >>= f) = .error (.configuration m) := by
  have hne : (V.check schema [] (some (Session.orEmpty raw))).1 ≠ [] := fun h => by
    rw [(hs _).1 h] at hfit
    cases hfit
  obtain ⟨m, hm⟩ := @checkArguments_of_ne_nil V what schema raw hne
  exact ⟨m, by rw [hm]; rfl⟩

/-- Arguments that fit the kinds a schema accepts are an object, which the schema accepts and
reads. -/
theorem checkArguments_of_fit (what : String) {schema : Schema} {kinds : List (String × (Json → Bool))}
    (hs : ∀ v, (V.check schema [] (some v)).1 = [] ↔ Json.fitsKinds kinds v = true) {raw : Option Json}
    (hfit : Json.fitsKinds kinds (Session.orEmpty raw) = true) :
    ∃ fs, Session.orEmpty raw = .obj fs ∧ (V.check schema [] (some (.obj fs))).1 = [] ∧
      checkArguments V what schema raw = .ok ((V.check schema [] (some (.obj fs))).2.getD (.obj fs)) := by
  obtain ⟨fs, hg⟩ := Json.obj_of_fitsKinds hfit
  have hnil := (hs _).2 hfit
  rw [hg] at hnil
  refine ⟨fs, hg, hnil, ?_⟩
  rw [checkArguments_of_nil ((hs _).2 hfit), hg]

namespace LaunchConfig

/-- The kinds of the members a launch names: a program of at least one unit, argument texts, a
directory, an environment of texts, the flags, a transport's name, a host, a port from `0` to
`65535`, a pipe name, and a launcher command of at least one text. -/
def argumentKinds : List (String × (Json → Bool)) :=
  [("program", Json.isStr 1), ("args", Json.isArrayOf (Json.isStr 0) 0), ("cwd", Json.isStr 0),
    ("env", Json.isRecordOf (Json.isStr 0)), ("stopOnEntry", Json.isBool), ("noDebug", Json.isBool),
    ("inProcess", Json.isBool), ("ipcTransport", Json.isOneOf (Transport.all.map Transport.name)),
    ("ipcHost", Json.isStr 0), ("ipcPort", Json.isPort 0), ("ipcPipeName", Json.isStr 0),
    ("useBinaryIpc", Json.isBool), ("subProcess", Json.isBool), ("launcher", Json.isArrayOf (Json.isStr 0) 1)]

/-- The launch schema accepts exactly the objects whose named members are of their kinds. -/
theorem schema_nil_iff (hV : V.Laws) (v : Json) :
    (V.check launchSchema [] (some v)).1 = [] ↔ Json.fitsKinds argumentKinds v = true := by
  unfold launchSchema transportSchema portSchema
  refine Schema.check_object_nil_iff hV ?_ .keep [] v
  exact .cons ⟨rfl, (Schema.requires_string hV 1).optional hV⟩ <|
    .cons ⟨rfl, (Schema.requires_array hV (Schema.requires_string hV 0) 0).withDefault hV rfl⟩ <|
    .cons ⟨rfl, (Schema.requires_string hV 0).optional hV⟩ <|
    .cons ⟨rfl, (Schema.requires_record hV (Schema.requires_string hV 0)).optional hV⟩ <|
    .cons ⟨rfl, (Schema.requires_boolean hV).withDefault hV rfl⟩ <|
    .cons ⟨rfl, (Schema.requires_boolean hV).withDefault hV rfl⟩ <|
    .cons ⟨rfl, (Schema.requires_boolean hV).withDefault hV rfl⟩ <|
    .cons ⟨rfl, (Schema.requires_oneOf hV _).optional hV⟩ <|
    .cons ⟨rfl, (Schema.requires_string hV 0).optional hV⟩ <|
    .cons ⟨rfl, (Schema.requires_port hV (by norm_num)).optional hV⟩ <|
    .cons ⟨rfl, (Schema.requires_string hV 0).optional hV⟩ <|
    .cons ⟨rfl, (Schema.requires_boolean hV).optional hV⟩ <|
    .cons ⟨rfl, (Schema.requires_boolean hV).withDefault hV rfl⟩ <|
    .cons ⟨rfl, (Schema.requires_array hV (Schema.requires_string hV 0) 1).optional hV⟩ .nil

/-- A launch, once its arguments `a` are read: refused when it runs neither in process nor a
program, otherwise configured from the arguments, the defaults and the built-in settings. -/
theorem read_of_arguments {raw : Option Json} {d : EngineDefaults} {p : Platform} {a : Json}
    (ha : checkArguments V "launch" launchSchema raw = .ok a) :
    (a.boolField? "inProcess").getD false = false ∧ ((a.strField? "program").getD "").isEmpty = true ∧
        LaunchConfig.read V raw d p = .error (.configuration "Program path is required for launch mode") ∨
      ((a.boolField? "inProcess").getD false = true ∨ ((a.strField? "program").getD "").isEmpty = false) ∧
        ∃ c, LaunchConfig.read V raw d p = .ok c ∧
          c.ipc.transport = settingOf a "ipcTransport" d.transport (.string (Transport.default p).name) ∧
          c.ipc.host = settingOf a "ipcHost" d.host (.string defaultIpcHost) ∧
          c.ipc.binary = settingOf a "useBinaryIpc" d.binary (.bool true) ∧
          c.launcher = settingOf a "launcher" d.launcher (Json.strings defaultLauncher) ∧
          c.ipc.port = (a.numField? "ipcPort").getD 0 := by
  unfold LaunchConfig.read
  rw [ha]
  simp only [bind, Except.bind]
  cases hi : (a.boolField? "inProcess").getD false <;> cases hp : ((a.strField? "program").getD "").isEmpty
  · exact .inr ⟨.inr rfl, _, rfl, rfl, rfl, rfl, rfl, rfl⟩
  · exact .inl ⟨rfl, rfl, rfl⟩
  · exact .inr ⟨.inl rfl, _, rfl, rfl, rfl, rfl, rfl, rfl⟩
  · exact .inr ⟨.inl rfl, _, rfl, rfl, rfl, rfl, rfl, rfl⟩

/-- The launch arguments, as the schema reads them back: the program, the transport, the host,
the port, the binary flag and the launcher as given, and the in-process flag as given or
`false`. -/
theorem schema_members (hV : V.Laws) {fs : Json.Fields} (h : (V.check launchSchema [] (some (.obj fs))).1 = []) (g : Json) :
    ((V.check launchSchema [] (some (.obj fs))).2.getD g).field? "program" = fs.get? "program" ∧
      ((V.check launchSchema [] (some (.obj fs))).2.getD g).field? "inProcess" =
        some ((fs.get? "inProcess").getD (.bool false)) ∧
      ((V.check launchSchema [] (some (.obj fs))).2.getD g).field? "ipcTransport" = fs.get? "ipcTransport" ∧
      ((V.check launchSchema [] (some (.obj fs))).2.getD g).field? "ipcHost" = fs.get? "ipcHost" ∧
      ((V.check launchSchema [] (some (.obj fs))).2.getD g).field? "ipcPort" = fs.get? "ipcPort" ∧
      ((V.check launchSchema [] (some (.obj fs))).2.getD g).field? "useBinaryIpc" = fs.get? "useBinaryIpc" ∧
      ((V.check launchSchema [] (some (.obj fs))).2.getD g).field? "launcher" = fs.get? "launcher" := by
  unfold launchSchema transportSchema portSchema at h ⊢
  have hn : ["program", "args", "cwd", "env", "stopOnEntry", "noDebug", "inProcess", "ipcTransport", "ipcHost",
    "ipcPort", "ipcPipeName", "useBinaryIpc", "subProcess", "launcher"].Nodup := by decide
  have hr : ∀ k ∈ ["program", "inProcess", "ipcTransport", "ipcHost", "ipcPort", "useBinaryIpc", "launcher"],
      k ≠ Schema.reservedKey := by
    simp [Schema.reservedKey]
  exact ⟨Schema.field?_of_transparent hV h hn (by simp) (hr _ (by simp))
      (Message.transparent_optional hV (Message.transparent_str hV 1)) g,
    Schema.field?_of_withDefault hV h hn (by simp) (hr _ (by simp)) (Message.transparent_boolean hV) g,
    Schema.field?_of_transparent hV h hn (by simp) (hr _ (by simp))
      (Message.transparent_optional hV (Message.transparent_oneOf hV (Transport.all.map Transport.name))) g,
    Schema.field?_of_transparent hV h hn (by simp) (hr _ (by simp))
      (Message.transparent_optional hV (Message.transparent_str hV 0)) g,
    Schema.field?_of_transparent hV h hn (by simp) (hr _ (by simp))
      (Message.transparent_optional hV (Message.transparent_number hV [.int, .atLeast 0, .atMost 65535])) g,
    Schema.field?_of_transparent hV h hn (by simp) (hr _ (by simp))
      (Message.transparent_optional hV (Message.transparent_boolean hV)) g,
    Schema.field?_of_transparent hV h hn (by simp) (hr _ (by simp))
      (Message.transparent_optional hV (Schema.transparent_array hV (Message.transparent_str hV 0) 1)) g⟩

/-- A launch is refused, always with a configuration error, exactly when its arguments (an
empty object when there are none) do not fit the launch schema, or run neither in process nor a
program. A launch it configures takes the transport, host, binary flag and launcher from the
arguments when they give them, else from the engine's defaults, else the built-in ones, and the
port from the arguments, else `0`. -/
theorem read_spec (hV : V.Laws) (raw : Option Json) (d : EngineDefaults) (p : Platform) :
    ((∃ m, LaunchConfig.read V raw d p = .error (.configuration m)) ↔
        Json.fitsKinds argumentKinds (Session.orEmpty raw) = false ∨
          (Session.orEmpty raw).field? "inProcess" ≠ some (.bool true) ∧
            (Session.orEmpty raw).field? "program" = none) ∧
      FailsAsConfiguration (LaunchConfig.read V raw d p) ∧
      ∀ c, LaunchConfig.read V raw d p = .ok c →
        c.ipc.transport =
            ((Session.orEmpty raw).field? "ipcTransport").getD (d.transport.getD (.string (Transport.default p).name)) ∧
          c.ipc.host = ((Session.orEmpty raw).field? "ipcHost").getD (d.host.getD (.string defaultIpcHost)) ∧
          c.ipc.binary = ((Session.orEmpty raw).field? "useBinaryIpc").getD (d.binary.getD (.bool true)) ∧
          c.launcher = ((Session.orEmpty raw).field? "launcher").getD (d.launcher.getD (Json.strings defaultLauncher)) ∧
          ((Session.orEmpty raw).field? "ipcPort").getD (.num 0) = .num c.ipc.port := by
  cases hfit : Json.fitsKinds argumentKinds (Session.orEmpty raw)
  · -- arguments that do not fit are refused before anything else is looked at
    obtain ⟨m, hread⟩ := checkArguments_bind_of_unfit "launch" (schema_nil_iff hV) _ hfit
    refine ⟨⟨fun _ => .inl rfl, fun _ => ⟨m, hread⟩⟩, failsAsConfiguration_error hread, fun c hc => ?_⟩
    rw [LaunchConfig.read, hread] at hc
    cases hc
  · obtain ⟨fs, hg, hnil, ha⟩ := checkArguments_of_fit "launch" (schema_nil_iff hV) hfit
    rw [hg] at hfit ⊢
    obtain ⟨hprog, hin, htr, hhost, hport, hbin, hlaunch⟩ := schema_members hV hnil (.obj fs)
    generalize (V.check launchSchema [] (some (.obj fs))).2.getD (.obj fs) = a at *
    -- the members given are of their kinds
    simp only [Json.fitsKinds, argumentKinds, List.all_cons, List.all_nil, Bool.and_true, Bool.and_eq_true] at hfit
    obtain ⟨kprog, -, -, -, -, -, -, ktr, khost, kport, -, kbin, -, klaunch⟩ := hfit
    have hprogram := Json.strField?_nonempty hprog kprog
    have hinProcess := Json.boolField?_withDefault hin
    simp only [Json.field?]
    rcases read_of_arguments (d := d) (p := p) ha with ⟨hi, hp, hread⟩ | ⟨hcond, c, hread, hct, hch, hcb, hcl, hcp⟩
    · -- refused: it runs neither in process nor a program
      refine ⟨⟨fun _ => .inr ⟨fun h => ?_, hprogram.1 hp⟩, fun _ => ⟨_, hread⟩⟩, failsAsConfiguration_error hread,
        fun c hc => ?_⟩
      · rw [hinProcess.2 h] at hi
        cases hi
      · rw [hread] at hc
        cases hc
    · refine ⟨⟨fun hm => ?_, fun h => ?_⟩, failsAsConfiguration_ok hread, fun c' hc' => ?_⟩
      · obtain ⟨m, hm⟩ := hm
        rw [hread] at hm
        cases hm
      · rcases h with h | ⟨hi, hp⟩
        · cases h
        · rcases hcond with hc | hc
          · exact absurd (hinProcess.1 hc) hi
          · rw [hprogram.2 hp] at hc
            cases hc
      · rw [hread] at hc'
        cases hc'
        refine ⟨?_, ?_, ?_, ?_, ?_⟩
        · rw [hct, settingOf_eq (by rw [htr]; exact Json.ne_null_of_all rfl ktr), htr]
        · rw [hch, settingOf_eq (by rw [hhost]; exact Json.ne_null_of_all rfl khost), hhost]
        · rw [hcb, settingOf_eq (by rw [hbin]; exact Json.ne_null_of_all rfl kbin), hbin]
        · rw [hcl, settingOf_eq (by rw [hlaunch]; exact Json.ne_null_of_all rfl klaunch), hlaunch]
        · -- the port given is a number
          rw [hcp, Json.numField?, hport]
          rcases hk : Json.Fields.get? fs "ipcPort" with _ | ⟨_ | b | x | t | xs | gs⟩
          case none => rfl
          case some.num => rfl
          all_goals rw [hk] at kport; simp [Json.isPort] at kport

end LaunchConfig

/-- Where a transport connects: the member of the arguments that names its address, and the
kind of value the address has to be. -/
def Transport.endpoint : Transport → String × (Json → Bool)
  | .tcp => ("ipcPort", Json.isPort 1)
  | .unix => ("ipcPath", Json.isStr 1)
  | .pipe => ("ipcPipeName", Json.isStr 1)

namespace AttachConfig

/-- The kinds of the members an attach names: a program, the in-process flag, a transport's
name, a host, a port from `1` to `65535`, a socket path, a pipe name and the binary flag. -/
def argumentKinds : List (String × (Json → Bool)) :=
  [("program", Json.isStr 0), ("inProcess", Json.isBool),
    ("ipcTransport", Json.isOneOf (Transport.all.map Transport.name)), ("ipcHost", Json.isStr 0),
    ("ipcPort", Json.isPort 1), ("ipcPath", Json.isStr 0), ("ipcPipeName", Json.isStr 0),
    ("useBinaryIpc", Json.isBool)]

/-- The attach schema accepts exactly the objects whose named members are of their kinds. -/
theorem schema_nil_iff (hV : V.Laws) (v : Json) :
    (V.check attachSchema [] (some v)).1 = [] ↔ Json.fitsKinds argumentKinds v = true := by
  unfold attachSchema transportSchema portSchema
  refine Schema.check_object_nil_iff hV ?_ .keep [] v
  exact .cons ⟨rfl, (Schema.requires_string hV 0).optional hV⟩ <|
    .cons ⟨rfl, (Schema.requires_boolean hV).withDefault hV rfl⟩ <|
    .cons ⟨rfl, (Schema.requires_oneOf hV _).optional hV⟩ <|
    .cons ⟨rfl, (Schema.requires_string hV 0).optional hV⟩ <|
    .cons ⟨rfl, (Schema.requires_port hV (by norm_num)).optional hV⟩ <|
    .cons ⟨rfl, (Schema.requires_string hV 0).optional hV⟩ <|
    .cons ⟨rfl, (Schema.requires_string hV 0).optional hV⟩ <|
    .cons ⟨rfl, (Schema.requires_boolean hV).optional hV⟩ .nil

/-- The attach arguments, as the schema reads them back: the transport, the port, the path and
the pipe name as given, and the in-process flag as given or `false`. -/
theorem schema_members (hV : V.Laws) {fs : Json.Fields} (h : (V.check attachSchema [] (some (.obj fs))).1 = []) (g : Json) :
    ((V.check attachSchema [] (some (.obj fs))).2.getD g).field? "inProcess" =
        some ((fs.get? "inProcess").getD (.bool false)) ∧
      ((V.check attachSchema [] (some (.obj fs))).2.getD g).field? "ipcTransport" = fs.get? "ipcTransport" ∧
      ((V.check attachSchema [] (some (.obj fs))).2.getD g).field? "ipcPort" = fs.get? "ipcPort" ∧
      ((V.check attachSchema [] (some (.obj fs))).2.getD g).field? "ipcPath" = fs.get? "ipcPath" ∧
      ((V.check attachSchema [] (some (.obj fs))).2.getD g).field? "ipcPipeName" = fs.get? "ipcPipeName" := by
  unfold attachSchema transportSchema portSchema at h ⊢
  have hn : ["program", "inProcess", "ipcTransport", "ipcHost", "ipcPort", "ipcPath", "ipcPipeName",
    "useBinaryIpc"].Nodup := by decide
  have hr : ∀ k ∈ ["inProcess", "ipcTransport", "ipcPort", "ipcPath", "ipcPipeName"], k ≠ Schema.reservedKey := by
    simp [Schema.reservedKey]
  exact ⟨Schema.field?_of_withDefault hV h hn (by simp) (hr _ (by simp)) (Message.transparent_boolean hV) g,
    Schema.field?_of_transparent hV h hn (by simp) (hr _ (by simp))
      (Message.transparent_optional hV (Message.transparent_oneOf hV (Transport.all.map Transport.name))) g,
    Schema.field?_of_transparent hV h hn (by simp) (hr _ (by simp))
      (Message.transparent_optional hV (Message.transparent_number hV [.int, .atLeast 1, .atMost 65535])) g,
    Schema.field?_of_transparent hV h hn (by simp) (hr _ (by simp))
      (Message.transparent_optional hV (Message.transparent_str hV 0)) g,
    Schema.field?_of_transparent hV h hn (by simp) (hr _ (by simp))
      (Message.transparent_optional hV (Message.transparent_str hV 0)) g⟩

/-- Whether the arguments `a` leave out the address of transport `t`, as an attach checks it:
no port for TCP, no path or an empty one for a unix socket, no name or an empty one for a pipe. -/
def endpointMissing (a : Json) : Transport → Bool
  | .tcp => (a.numField? "ipcPort").isNone
  | .unix => ((a.strField? "ipcPath").getD "").isEmpty
  | .pipe => ((a.strField? "ipcPipeName").getD "").isEmpty

/-- An attach, once its arguments `a` are read: refused when it asks to run in process or its
transport's address is missing, otherwise connecting with that transport to the address given. -/
theorem read_of_arguments {raw : Option Json} {d : EngineDefaults} {p : Platform} {a : Json}
    (ha : checkArguments V "attach" attachSchema raw = .ok a) :
    (((a.boolField? "inProcess").getD false = true ∨
        ∃ t, Transport.ofJson? (settingOf a "ipcTransport" d.transport (.string (Transport.default p).name)) = some t ∧
          endpointMissing a t = true) ∧
        ∃ m, AttachConfig.read V raw d p = .error (.configuration m)) ∨
      (a.boolField? "inProcess").getD false = false ∧
        (∀ t, Transport.ofJson? (settingOf a "ipcTransport" d.transport (.string (Transport.default p).name)) = some t →
          endpointMissing a t = false) ∧
        ∃ c, AttachConfig.read V raw d p = .ok c ∧
          c.ipc.transport = settingOf a "ipcTransport" d.transport (.string (Transport.default p).name) ∧
          c.ipc.port = (a.numField? "ipcPort").getD 0 ∧ c.ipc.path = a.strField? "ipcPath" ∧
          c.ipc.pipeName = a.strField? "ipcPipeName" := by
  unfold AttachConfig.read
  rw [ha]
  simp only [bind, Except.bind]
  cases hi : (a.boolField? "inProcess").getD false
  · rcases ht : Transport.ofJson? (settingOf a "ipcTransport" d.transport (.string (Transport.default p).name))
      with _ | ⟨_ | _ | _⟩
    · refine .inr ⟨rfl, ?_, _, rfl, rfl, rfl, rfl, rfl⟩
      intro t h
      cases h
    · cases hm : (a.numField? "ipcPort").isNone
      · refine .inr ⟨rfl, ?_, _, rfl, rfl, rfl, rfl, rfl⟩
        intro t h
        cases h
        exact hm
      · exact .inl ⟨.inr ⟨.tcp, rfl, hm⟩, _, rfl⟩
    · cases hm : ((a.strField? "ipcPath").getD "").isEmpty
      · refine .inr ⟨rfl, ?_, _, rfl, rfl, rfl, rfl, rfl⟩
        intro t h
        cases h
        exact hm
      · exact .inl ⟨.inr ⟨.unix, rfl, hm⟩, _, rfl⟩
    · cases hm : ((a.strField? "ipcPipeName").getD "").isEmpty
      · refine .inr ⟨rfl, ?_, _, rfl, rfl, rfl, rfl, rfl⟩
        intro t h
        cases h
        exact hm
      · exact .inl ⟨.inr ⟨.pipe, rfl, hm⟩, _, rfl⟩
  · exact .inl ⟨.inl rfl, _, rfl⟩

/-- With arguments the schema accepts, an attach misses the address of transport `t` exactly
when the arguments do not give one of the kind it needs. -/
theorem endpointMissing_iff (hV : V.Laws) {fs : Json.Fields} (h : (V.check attachSchema [] (some (.obj fs))).1 = [])
    (g : Json) (t : Transport) :
    endpointMissing ((V.check attachSchema [] (some (.obj fs))).2.getD g) t =
      !((fs.get? t.endpoint.1).any t.endpoint.2) := by
  obtain ⟨-, -, hport, hpath, hpipe⟩ := schema_members hV h g
  have hfit := (schema_nil_iff hV _).1 h
  simp only [Json.fitsKinds, argumentKinds, List.all_cons, List.all_nil, Bool.and_true, Bool.and_eq_true] at hfit
  obtain ⟨-, -, -, -, kport, kpath, kpipe, -⟩ := hfit
  cases t
  · exact Json.numField?_isNone hport kport
  · exact Json.strField?_isEmpty hpath kpath
  · exact Json.strField?_isEmpty hpipe kpipe

/-- An attach is refused, always with a configuration error, exactly when its arguments (an
empty object when there are none) do not fit the attach schema, ask to run in process, or
leave out the address of the transport chosen (the one they give, else the engine's default,
else the platform's). An attach it configures connects with that transport, and has what it
connects to: a whole port from `1` to `65535` for TCP, a path for a unix socket and a name for
a pipe, neither empty. -/
theorem read_spec (hV : V.Laws) (raw : Option Json) (d : EngineDefaults) (p : Platform) :
    ((∃ m, AttachConfig.read V raw d p = .error (.configuration m)) ↔
        Json.fitsKinds argumentKinds (Session.orEmpty raw) = false ∨
          (Session.orEmpty raw).field? "inProcess" = some (.bool true) ∨
          ∃ t, Transport.ofJson? (((Session.orEmpty raw).field? "ipcTransport").getD
              (d.transport.getD (.string (Transport.default p).name))) = some t ∧
            ((Session.orEmpty raw).field? t.endpoint.1).any t.endpoint.2 = false) ∧
      FailsAsConfiguration (AttachConfig.read V raw d p) ∧
      ∀ c, AttachConfig.read V raw d p = .ok c →
        c.ipc.transport = ((Session.orEmpty raw).field? "ipcTransport").getD
            (d.transport.getD (.string (Transport.default p).name)) ∧
          (c.ipc.kind? = some .tcp → ∃ n : Int, c.ipc.port.toInt? = some n ∧ 1 ≤ n ∧ n ≤ 65535) ∧
          (c.ipc.kind? = some .unix → ∃ path, c.ipc.path = some path ∧ path ≠ "") ∧
          (c.ipc.kind? = some .pipe → ∃ name, c.ipc.pipeName = some name ∧ name ≠ "") := by
  cases hfit : Json.fitsKinds argumentKinds (Session.orEmpty raw)
  · -- arguments that do not fit are refused before anything else is looked at
    obtain ⟨m, hread⟩ := checkArguments_bind_of_unfit "attach" (schema_nil_iff hV) _ hfit
    refine ⟨⟨fun _ => .inl rfl, fun _ => ⟨m, hread⟩⟩, failsAsConfiguration_error hread, fun c hc => ?_⟩
    rw [AttachConfig.read, hread] at hc
    cases hc
  · obtain ⟨fs, hg, hnil, ha⟩ := checkArguments_of_fit "attach" (schema_nil_iff hV) hfit
    rw [hg] at hfit ⊢
    have hmiss := endpointMissing_iff hV hnil (.obj fs)
    obtain ⟨hin, htr, hport, hpath, hpipe⟩ := schema_members hV hnil (.obj fs)
    generalize (V.check attachSchema [] (some (.obj fs))).2.getD (.obj fs) = a at *
    simp only [Json.fitsKinds, argumentKinds, List.all_cons, List.all_nil, Bool.and_true, Bool.and_eq_true] at hfit
    obtain ⟨-, -, ktr, -, kport, -, -, -⟩ := hfit
    have hinProcess := Json.boolField?_withDefault hin
    -- the transport chosen is the one given, else the default's, else the platform's
    have hchosen := settingOf_eq (by rw [htr]; exact Json.ne_null_of_all rfl ktr) d.transport
      (.string (Transport.default p).name)
    rw [htr] at hchosen
    simp only [Json.field?]
    rcases read_of_arguments (d := d) (p := p) ha with ⟨hrefused, m, hread⟩ |
      ⟨hi, hready, c, hread, hct, hcp, hcpath, hcpipe⟩
    · refine ⟨⟨fun _ => .inr ?_, fun _ => ⟨m, hread⟩⟩, failsAsConfiguration_error hread, fun c hc => ?_⟩
      · rcases hrefused with hi | ⟨t, ht, hm⟩
        · exact .inl (hinProcess.1 hi)
        · rw [hchosen] at ht
          rw [hmiss] at hm
          exact .inr ⟨t, ht, by simpa using hm⟩
      · rw [hread] at hc
        cases hc
    · refine ⟨⟨fun hm => ?_, fun h => ?_⟩, failsAsConfiguration_ok hread, fun c' hc' => ?_⟩
      · obtain ⟨m, hm⟩ := hm
        rw [hread] at hm
        cases hm
      · rcases h with h | h | ⟨t, ht, hm⟩
        · cases h
        · rw [hinProcess.2 h] at hi
          cases hi
        · rw [← hchosen] at ht
          have hgiven := hready t ht
          rw [hmiss, hm] at hgiven
          cases hgiven
      · rw [hread] at hc'
        cases hc'
        -- the transport the settings name had its address checked
        have hkind : ∀ t, c.ipc.kind? = some t → endpointMissing a t = false := fun t ht =>
          hready t (by rw [← hct]; exact ht)
        refine ⟨hct.trans hchosen, fun ht => ?_, fun ht => ?_, fun ht => ?_⟩
        · have h := hkind .tcp ht
          simp only [endpointMissing] at h
          cases hx : a.numField? "ipcPort" with
          | none => rw [hx] at h; cases h
          | some x =>
            rw [hcp, hx]
            exact Json.numField?_port hport kport hx
        · rw [hcpath]
          exact Option.exists_of_getD_isEmpty (hkind .unix ht)
        · rw [hcpipe]
          exact Option.exists_of_getD_isEmpty (hkind .pipe ht)

end AttachConfig

/-- The two reads together. A launch is refused exactly when its arguments do not fit its
schema or run neither in process nor a program, and otherwise takes its transport, host, binary
flag and launcher from the arguments, the defaults and the built-in settings in that order, and
its port from the arguments or `0`. An attach is refused exactly when its arguments do not fit
its schema, ask to run in process, or leave out the address of the transport chosen, and
otherwise has what that transport connects to. Every refusal is a configuration error. -/
theorem configuration_refusals_and_defaults (V : Validator) (hV : V.Laws) (raw : Option Json) (d : EngineDefaults)
    (p : Platform) :
    (((∃ m, LaunchConfig.read V raw d p = .error (.configuration m)) ↔
        Json.fitsKinds LaunchConfig.argumentKinds (Session.orEmpty raw) = false ∨
          (Session.orEmpty raw).field? "inProcess" ≠ some (.bool true) ∧
            (Session.orEmpty raw).field? "program" = none) ∧
      FailsAsConfiguration (LaunchConfig.read V raw d p) ∧
      ∀ c, LaunchConfig.read V raw d p = .ok c →
        c.ipc.transport =
            ((Session.orEmpty raw).field? "ipcTransport").getD (d.transport.getD (.string (Transport.default p).name)) ∧
          c.ipc.host = ((Session.orEmpty raw).field? "ipcHost").getD (d.host.getD (.string defaultIpcHost)) ∧
          c.ipc.binary = ((Session.orEmpty raw).field? "useBinaryIpc").getD (d.binary.getD (.bool true)) ∧
          c.launcher = ((Session.orEmpty raw).field? "launcher").getD (d.launcher.getD (Json.strings defaultLauncher)) ∧
          ((Session.orEmpty raw).field? "ipcPort").getD (.num 0) = .num c.ipc.port) ∧
    (((∃ m, AttachConfig.read V raw d p = .error (.configuration m)) ↔
        Json.fitsKinds AttachConfig.argumentKinds (Session.orEmpty raw) = false ∨
          (Session.orEmpty raw).field? "inProcess" = some (.bool true) ∨
          ∃ t, Transport.ofJson? (((Session.orEmpty raw).field? "ipcTransport").getD
              (d.transport.getD (.string (Transport.default p).name))) = some t ∧
            ((Session.orEmpty raw).field? t.endpoint.1).any t.endpoint.2 = false) ∧
      FailsAsConfiguration (AttachConfig.read V raw d p) ∧
      ∀ c, AttachConfig.read V raw d p = .ok c →
        c.ipc.transport = ((Session.orEmpty raw).field? "ipcTransport").getD
            (d.transport.getD (.string (Transport.default p).name)) ∧
          (c.ipc.kind? = some .tcp → ∃ n : Int, c.ipc.port.toInt? = some n ∧ 1 ≤ n ∧ n ≤ 65535) ∧
          (c.ipc.kind? = some .unix → ∃ path, c.ipc.path = some path ∧ path ≠ "") ∧
          (c.ipc.kind? = some .pipe → ∃ name, c.ipc.pipeName = some name ∧ name ≠ "")) :=
  ⟨LaunchConfig.read_spec hV raw d p, AttachConfig.read_spec hV raw d p⟩

/-- A launch with no arguments asks neither for in-process mode nor for a program, so the
adapter's own validator refuses it as a configuration error. -/
theorem launch_without_arguments_refused :
    Validator.standard.Laws ∧ ∃ m, LaunchConfig.read .standard none default .posix = .error (.configuration m) :=
  ⟨Validator.standard_laws,
    (configuration_refusals_and_defaults .standard Validator.standard_laws none default .posix).1.1.2
      (.inr ⟨by simp [Session.orEmpty, Json.field?, Json.Fields.get?], by simp [Session.orEmpty, Json.field?, Json.Fields.get?]⟩)⟩

end DapBridge
