import DapBridge.Session.Breakpoints
import DapBridge.Child.Launcher
import DapBridge.Proofs.JsonText

/-!
# Breakpoint keys are canonical

A breakpoint's file is kept under a key: a relative path read against the book's working
directory, an absolute one normalised, then the host's canonical form of the place when there
is one (`breakpointPath`). This module shows the key is a fixed point, and says which one.

* `location cwd p` is the place a path names read lexically: from the root, or from `cwd` for
  a relative path, an empty or `.` segment stays, `..` goes up (the root is its own parent), a
  name goes down. Resolving and normalising both compute it (`resolve_of_relative`,
  `normalize_of_absolute`); normalising keeps a final slash, resolving drops it.
* `canonical?_self`: a canonical form the host gives is its own canonical form, since every
  directory the lookup passed on its way is one the lookup finds again (`Placed`, kept by
  `walk_reached`, replayed by `walk_replay`).
* `breakpoint_keys_canonical`: the key of any path, read against an absolute directory, keys
  itself against every directory; a path with no final slash is keyed by the canonical form of
  its location, the root or names without `.`, `..` or empty segments, so two spellings of one
  location share a key.
-/

namespace DapBridge

namespace Path

/-! ## Segments -/

theorem splitSlash_ne_nil (cs : List Char) : splitSlash cs ≠ [] := by
  cases cs with
  | nil => simp [splitSlash]
  | cons c cs =>
    simp only [splitSlash]
    split
    · simp
    · split <;> simp

/-- A segment holds no slash. -/
theorem not_slash_of_mem_splitSlash : ∀ {cs s : List Char}, s ∈ splitSlash cs → '/' ∉ s
  | [], s, h => by simp only [splitSlash, List.mem_singleton] at h; subst h; simp
  | c :: cs, s, h => by
    simp only [splitSlash] at h
    split at h
    · rcases List.mem_cons.1 h with rfl | h
      · simp
      · exact not_slash_of_mem_splitSlash h
    · next hc =>
      have ih : ∀ t ∈ splitSlash cs, '/' ∉ t := fun t ht => not_slash_of_mem_splitSlash ht
      split at h
      · next r rs hrs =>
        rcases List.mem_cons.1 h with rfl | h
        · simp only [List.mem_cons, not_or]
          exact ⟨fun h' => hc h'.symm, ih r (by rw [hrs]; exact List.mem_cons_self)⟩
        · exact ih s (by rw [hrs]; exact List.mem_cons_of_mem r h)
      · exact absurd ‹splitSlash cs = []› (splitSlash_ne_nil cs)

/-- Every character of a segment is a character of the path. -/
theorem subset_of_mem_splitSlash : ∀ {cs s : List Char}, s ∈ splitSlash cs → s ⊆ cs
  | [], s, h => by simp only [splitSlash, List.mem_singleton] at h; subst h; simp
  | c :: cs, s, h => by
    simp only [splitSlash] at h
    split at h
    · rcases List.mem_cons.1 h with rfl | h
      · simp
      · exact List.Subset.trans (subset_of_mem_splitSlash h) (List.subset_cons_self c cs)
    · split at h
      · next r rs hrs =>
        rcases List.mem_cons.1 h with rfl | h
        · exact List.cons_subset_cons c (subset_of_mem_splitSlash (by rw [hrs]; exact List.mem_cons_self))
        · exact List.Subset.trans (subset_of_mem_splitSlash (by rw [hrs]; exact List.mem_cons_of_mem r h))
            (List.subset_cons_self c cs)
      · exact absurd ‹splitSlash cs = []› (splitSlash_ne_nil cs)

theorem splitSlash_of_not_slash : ∀ {cs : List Char}, '/' ∉ cs → splitSlash cs = [cs]
  | [], _ => rfl
  | c :: cs, h => by
    simp only [List.mem_cons, not_or] at h
    simp only [splitSlash, if_neg (Ne.symm h.1), splitSlash_of_not_slash h.2]

theorem splitSlash_append_slash (rest : List Char) :
    ∀ {cs : List Char}, '/' ∉ cs → splitSlash (cs ++ '/' :: rest) = cs :: splitSlash rest
  | [], _ => by simp [splitSlash]
  | c :: cs, h => by
    simp only [List.mem_cons, not_or] at h
    simp only [List.cons_append, splitSlash, if_neg (Ne.symm h.1), splitSlash_append_slash rest h.2]

/-- Joining slash-free parts with slashes and splitting again gives the parts back. -/
theorem splitSlash_intercalate :
    ∀ {ls : List (List Char)}, ls ≠ [] → (∀ l ∈ ls, '/' ∉ l) → splitSlash (['/'].intercalate ls) = ls
  | [], hne, _ => absurd rfl hne
  | [l], _, h => by simpa using splitSlash_of_not_slash (h l List.mem_cons_self)
  | l :: l' :: ls, _, h => by
    rw [List.intercalate_cons_cons, List.append_assoc, List.singleton_append, splitSlash_append_slash _ (h l List.mem_cons_self),
      splitSlash_intercalate (List.cons_ne_nil l' ls) fun x hx => h x (List.mem_cons_of_mem l hx)]


/-- The segments of a path hold no slash. -/
theorem not_slash_of_mem_segments {p s : String} (h : s ∈ segments p) : '/' ∉ s.toList := by
  obtain ⟨l, hl, rfl⟩ := List.mem_map.1 h
  rw [String.toList_ofList]
  exact not_slash_of_mem_splitSlash hl

/-- The characters of a segment are characters of the path. -/
theorem subset_of_mem_segments {p s : String} (h : s ∈ segments p) : s.toList ⊆ p.toList := by
  obtain ⟨l, hl, rfl⟩ := List.mem_map.1 h
  rw [String.toList_ofList]
  exact subset_of_mem_splitSlash hl

/-! ## The place a path names -/

/-- A name of a canonical path: a segment that is not empty, `.` or `..`, and holds no slash. -/
structure IsName (s : String) : Prop where
  ne_empty : s ≠ ""
  ne_dot : s ≠ "."
  ne_up : s ≠ ".."
  no_slash : '/' ∉ s.toList

/-- One segment read from a place: an empty or `.` segment stays, `..` goes up to the parent
(the root is its own), a name goes down into it. -/
def descend (loc : List String) (seg : String) : List String :=
  if seg = "" ∨ seg = "." then loc else if seg = ".." then loc.dropLast else loc ++ [seg]

/-- The place a path names once its `.`, `..` and repeated slashes are resolved, as the names
leading to it from the root: an absolute path is read from the root, a relative one from the
directory `cwd`. -/
def location (cwd p : String) : List String :=
  (segments p).foldl descend (if isAbsolute p then [] else (segments cwd).foldl descend [])

example : location "/w" "../x//./y/" = ["x", "y"] := by decide +kernel

/-- Reading slash-free segments from a place of names leads to a place of names. -/
theorem names_foldl_descend : ∀ {segs loc : List String}, (∀ s ∈ segs, '/' ∉ s.toList) →
    (∀ x ∈ loc, IsName x) → ∀ x ∈ segs.foldl descend loc, IsName x
  | [], _, _, hloc => hloc
  | seg :: rest, loc, hsegs, hloc => by
    rw [List.foldl_cons]
    refine @names_foldl_descend rest (descend loc seg) (fun s hs => hsegs s (List.mem_cons_of_mem seg hs)) ?_
    unfold descend
    split
    · exact hloc
    split
    · exact fun x hx => hloc x (List.dropLast_subset loc hx)
    · next h₁ h₂ =>
      intro x hx
      rcases List.mem_append.1 hx with hx | hx
      · exact hloc x hx
      · rw [List.mem_singleton.1 hx]
        exact ⟨fun h => h₁ (.inl h), fun h => h₁ (.inr h), h₂, hsegs seg List.mem_cons_self⟩

/-- The names of a place come from the segments read, and from where the reading started. -/
theorem mem_foldl_descend : ∀ {segs loc : List String} {x : String}, x ∈ segs.foldl descend loc →
    x ∈ loc ∨ x ∈ segs
  | [], _, _, h => .inl h
  | seg :: rest, loc, x, h => by
    rw [List.foldl_cons] at h
    rcases @mem_foldl_descend rest (descend loc seg) x h with h | h
    · unfold descend at h
      split at h
      · exact .inl h
      split at h
      · exact .inl (List.dropLast_subset loc h)
      · rcases List.mem_append.1 h with h | h
        · exact .inl h
        · exact .inr (List.mem_singleton.1 h ▸ List.mem_cons_self)
    · exact .inr (List.mem_cons_of_mem seg h)

theorem location_names (cwd p : String) : ∀ x ∈ location cwd p, IsName x := by
  unfold location
  refine names_foldl_descend (fun s hs => not_slash_of_mem_segments hs) ?_
  split
  · exact fun _ h => absurd h List.not_mem_nil
  · exact names_foldl_descend (fun s hs => not_slash_of_mem_segments hs) fun _ h => absurd h List.not_mem_nil

/-- Every character of a name of the place is a character of the path or of `cwd`. -/
theorem char_of_mem_location {cwd p x : String} {ch : Char} (hx : x ∈ location cwd p) (hch : ch ∈ x.toList) :
    ch ∈ p.toList ∨ ch ∈ cwd.toList := by
  unfold location at hx
  rcases mem_foldl_descend hx with h | h
  · split at h
    · exact absurd h List.not_mem_nil
    · rcases mem_foldl_descend h with h | h
      · exact absurd h List.not_mem_nil
      · exact .inr (subset_of_mem_segments h hch)
  · exact .inl (subset_of_mem_segments h hch)

/-- Collapsing segments with nothing kept above the start reads them one by one from the place
the accumulator stands for, kept in reverse. -/
theorem collapse_false : ∀ (acc segs : List String), ".." ∉ acc →
    collapse false acc segs = segs.foldl descend acc.reverse
  | acc, [], _ => rfl
  | acc, seg :: rest, hacc => by
    rw [List.foldl_cons]
    by_cases hskip : seg = "" ∨ seg = "."
    · have hb : (seg.isEmpty || decide (seg = ".")) = true := by
        rcases hskip with h | h <;> simp [h]
      unfold collapse
      rw [if_pos hb, collapse_false acc rest hacc, descend, if_pos hskip]
    have hb : (seg.isEmpty || decide (seg = ".")) = false := by
      simp only [not_or] at hskip
      simp [hskip.1, hskip.2]
    rw [descend, if_neg hskip]
    by_cases hup : seg = ".."
    · rw [if_pos hup]
      cases acc with
      | nil =>
        unfold collapse
        rw [if_neg (by simp [hb]), if_pos hup]
        exact collapse_false [] rest List.not_mem_nil
      | cons last earlier =>
        have hlast : last ≠ ".." := fun h => hacc (h ▸ List.mem_cons_self)
        unfold collapse
        rw [if_neg (by simp [hb]), if_pos hup]
        simp only [if_neg hlast]
        rw [collapse_false earlier rest fun h => hacc (List.mem_cons_of_mem last h), List.reverse_cons,
          List.dropLast_concat]
    · unfold collapse
      rw [if_neg hup, if_neg (by simp [hb]), if_neg hup,
        collapse_false (seg :: acc) rest
          (List.not_mem_cons_of_ne_of_not_mem (Ne.symm hup) hacc),
        List.reverse_cons]
theorem splitSlash_slash_intercalate {ls : List (List Char)} (hne : ls ≠ []) (h : ∀ l ∈ ls, '/' ∉ l) :
    splitSlash ('/' :: ['/'].intercalate ls) = [] :: ls := by
  rw [splitSlash, if_pos rfl, splitSlash_intercalate hne h]

theorem segments_slash_join {parts : List String} (hne : parts ≠ []) (h : ∀ x ∈ parts, '/' ∉ x.toList) :
    segments ("/" ++ "/".intercalate parts) = "" :: parts := by
  have hl : ("/" ++ "/".intercalate parts).toList = '/' :: ['/'].intercalate (parts.map String.toList) := by
    simp
  rw [segments, hl, splitSlash_slash_intercalate (by simpa using hne) (by simpa using h)]
  simp

theorem endsWith_slash_iff (s : String) : s.endsWith "/" = true ↔ s.toList.getLast? = some '/' := by
  rw [← List.singleton_suffix_iff_getLast?_eq_some]
  simp [← String.endsWith_toSlice]


theorem length_splitSlash_le : ∀ cs : List Char, (splitSlash cs).length ≤ cs.length + 1
  | [] => by simp [splitSlash]
  | c :: cs => by
    have ih := length_splitSlash_le cs
    simp only [splitSlash]
    split
    · simp only [List.length_cons]; omega
    · split
      · next r rs hrs => rw [hrs] at ih; simp only [List.length_cons] at ih ⊢; omega
      · simp

/-! ## Paths of names -/

theorem isAbsolute_append {p : String} (h : isAbsolute p = true) (q : String) : isAbsolute (p ++ q) = true := by
  simp only [isAbsolute, String.startsWith_string_iff, String.toList_append] at h ⊢
  exact h.trans (List.prefix_append _ _)

@[simp] theorem isAbsolute_ofComponents (cs : List String) : isAbsolute (ofComponents cs) = true :=
  isAbsolute_append (by simp [isAbsolute]) _

theorem segments_ofComponents {cs : List String} (hne : cs ≠ []) (h : ∀ x ∈ cs, IsName x) :
    segments (ofComponents cs) = "" :: cs :=
  segments_slash_join hne fun x hx => (h x hx).no_slash

theorem segments_root : segments (ofComponents []) = ["", ""] := by decide

theorem segments_empty : segments "" = [""] := by decide

theorem ofComponents_append_slash {cs : List String} (hne : cs ≠ []) :
    ofComponents cs ++ "/" = "/" ++ "/".intercalate (cs ++ [""]) := by
  rw [ofComponents, String.intercalate_append_of_ne_nil hne (List.cons_ne_nil _ _), String.intercalate_singleton,
    String.append_empty, String.append_assoc]

/-- The last name of a path of names ends it. -/
theorem ofComponents_concat (e : List String) (x : String) : ∃ pre, ofComponents (e ++ [x]) = pre ++ x := by
  by_cases he : e = []
  · exact ⟨"/", by rw [he, List.nil_append, ofComponents, String.intercalate_singleton]⟩
  · refine ⟨"/" ++ "/".intercalate e ++ "/", ?_⟩
    rw [ofComponents, String.intercalate_append_of_ne_nil he (List.cons_ne_nil _ _), String.intercalate_singleton]
    simp only [String.append_assoc]

theorem endsWith_append_name {pre x : String} (hx : IsName x) : (pre ++ x).endsWith "/" = false := by
  rw [Bool.eq_false_iff]
  intro h
  rw [endsWith_slash_iff, String.toList_append, List.getLast?_append] at h
  obtain ⟨y, hy⟩ : ∃ y, x.toList.getLast? = some y :=
    Option.isSome_iff_exists.1 (List.getLast?_isSome.2 (by simpa using hx.ne_empty))
  rw [hy, Option.some_or, Option.some.injEq] at h
  exact hx.no_slash (h ▸ List.mem_of_getLast? hy)

/-- A path of names ends in a slash only when it is the root. -/
theorem endsWith_ofComponents {cs : List String} (hne : cs ≠ []) (h : ∀ x ∈ cs, IsName x) :
    (ofComponents cs).endsWith "/" = false := by
  obtain ⟨e, x, rfl⟩ : ∃ e x, cs = e ++ [x] := ⟨cs.dropLast, cs.getLast hne, (List.dropLast_concat_getLast hne).symm⟩
  obtain ⟨pre, hpre⟩ := ofComponents_concat e x
  rw [hpre]
  exact endsWith_append_name (h x (List.mem_append_right e List.mem_cons_self))

theorem descend_name {loc : List String} {x : String} (h : IsName x) : descend loc x = loc ++ [x] := by
  rw [descend, if_neg fun h' => h'.elim h.ne_empty h.ne_dot, if_neg h.ne_up]

/-- Names only go down. -/
theorem foldl_descend_names : ∀ {cs : List String} (loc : List String), (∀ x ∈ cs, IsName x) →
    cs.foldl descend loc = loc ++ cs
  | [], loc, _ => (List.append_nil loc).symm
  | c :: cs, loc, h => by
    rw [List.foldl_cons, descend_name (h c List.mem_cons_self),
      foldl_descend_names _ fun x hx => h x (List.mem_cons_of_mem c hx), List.append_assoc, List.singleton_append]

/-- A path of names is the place it names. -/
theorem location_ofComponents (cwd : String) {cs : List String} (h : ∀ x ∈ cs, IsName x) :
    location cwd (ofComponents cs) = cs := by
  rw [location, if_pos (isAbsolute_ofComponents cs)]
  cases cs with
  | nil => rw [segments_root]; rfl
  | cons x xs =>
    rw [segments_ofComponents (List.cons_ne_nil x xs) h, List.foldl_cons, descend, if_pos (.inl rfl),
      foldl_descend_names [] h, List.nil_append]

/-- So is a path of names with a final slash. -/
theorem location_ofComponents_slash (cwd : String) {cs : List String} (hne : cs ≠ []) (h : ∀ x ∈ cs, IsName x) :
    location cwd (ofComponents cs ++ "/") = cs := by
  have hsegs : segments (ofComponents cs ++ "/") = "" :: (cs ++ [""]) := by
    rw [ofComponents_append_slash hne]
    refine segments_slash_join (by simp) fun x hx => ?_
    rcases List.mem_append.1 hx with hx | hx
    · exact (h x hx).no_slash
    · rw [List.mem_singleton.1 hx]; decide
  rw [location, if_pos (isAbsolute_append (isAbsolute_ofComponents cs) _), hsegs, List.foldl_cons, descend,
    if_pos (.inl rfl), List.foldl_append, foldl_descend_names [] h, List.nil_append]
  simp [descend]

theorem intercalate_names_ne_empty {L : List String} (hne : L ≠ []) (h : ∀ x ∈ L, IsName x) :
    "/".intercalate L ≠ "" := by
  obtain ⟨x, rest, rfl⟩ := List.exists_cons_of_ne_nil hne
  have hx := (h x List.mem_cons_self).ne_empty
  cases rest with
  | nil => simpa using hx
  | cons y rest => simp [String.append_eq_empty_iff, hx]

/-- Normalising an absolute path writes out the place it names, with a final slash kept when it
names more than the root. -/
theorem normalize_of_absolute {p : String} (h : isAbsolute p = true) (cwd : String) :
    normalize p = ofComponents (location cwd p) ++
      (if p.endsWith "/" = true ∧ location cwd p ≠ [] then "/" else "") := by
  have hne : p.isEmpty = false := by
    simp only [isAbsolute, String.startsWith_string_iff] at h
    simpa [String.isEmpty_iff] using fun hp => by simp [hp] at h
  have hL : collapse false [] (segments p) = location cwd p := by
    rw [location, if_pos h]
    exact collapse_false [] _ List.not_mem_nil
  have hnames := location_names cwd p
  simp only [normalize, hne, h, Bool.not_true, hL]
  by_cases hL0 : location cwd p = []
  · simp [hL0, ofComponents]
  · have hbody := intercalate_names_ne_empty hL0 hnames
    cases p.endsWith "/" <;> simp [hL0, hbody, ofComponents, String.append_assoc]

/-- Reading a relative path against an absolute directory writes out the place it names. -/
theorem resolve_of_relative {cwd p : String} (hc : isAbsolute cwd = true) (hp : isAbsolute p = false) :
    resolve cwd p = ofComponents (location cwd p) := by
  have hc0 : cwd.isEmpty = false := by
    simp only [isAbsolute, String.startsWith_string_iff] at hc
    simpa [String.isEmpty_iff] using fun h => by simp [h] at hc
  rw [location, if_neg (by simp [hp])]
  by_cases hp0 : p = ""
  · subst hp0
    have hused : collapse false [] (segments cwd) = (segments cwd).foldl descend [] :=
      collapse_false [] _ List.not_mem_nil
    simp [resolve, hc0, hc, List.findIdx?_cons, hused, ofComponents, segments_empty, descend]
  · have hused : collapse false [] (segments cwd ++ segments p) = (segments p).foldl descend ((segments cwd).foldl descend []) := by
      rw [collapse_false [] _ List.not_mem_nil, List.reverse_nil, List.foldl_append]
    simp [resolve, hc0, hc, hp, hp0, List.findIdx?_cons, hused, ofComponents]

/-! ## The host's canonical forms -/

/-! ## Walking a host's file tree -/

variable {files : List (String × Node)}

theorem IsName.not_skip {x : String} (h : IsName x) : (x.isEmpty || decide (x = ".")) = false := by
  simp [h.ne_empty, h.ne_dot]

/-- A directory a walk may stand in: its components are names, and each of their prefixes is a
directory of the host. -/
structure Placed (files : List (String × Node)) (d : List String) : Prop where
  names : ∀ x ∈ d, IsName x
  dirs : ∀ k, 0 < k → k ≤ d.length → entryAt? files (ofComponents (d.take k)) = some .directory

namespace Placed

theorem root : Placed files [] :=
  ⟨fun _ h => absurd h List.not_mem_nil, fun _ hk hle => absurd hle (by simp only [List.length_nil]; omega)⟩

theorem dropLast {d : List String} (h : Placed files d) : Placed files d.dropLast where
  names x hx := h.names x (List.dropLast_subset d hx)
  dirs k hk hle := by
    have hle' : k ≤ d.length - 1 := by simpa using hle
    rw [List.dropLast_eq_take, List.take_take, Nat.min_eq_left hle']
    exact h.dirs k hk (by omega)

theorem child {d : List String} {x : String} (h : Placed files d) (hx : IsName x)
    (he : entryAt? files (ofComponents (d ++ [x])) = some .directory) : Placed files (d ++ [x]) where
  names y hy := (List.mem_append.1 hy).elim (h.names y) fun hy => List.mem_singleton.1 hy ▸ hx
  dirs k hk hle := by
    rw [List.length_append, List.length_singleton] at hle
    rcases Nat.lt_or_eq_of_le hle with hlt | rfl
    · rw [List.take_append_of_le_length (by omega)]
      exact h.dirs k hk (by omega)
    · rwa [List.take_of_length_le (by simp)]

/-- The next component of a placed directory is a directory of the host. -/
theorem next {done rest : List String} {c : String} (h : Placed files (done ++ c :: rest)) :
    IsName c ∧ entryAt? files (ofComponents (done ++ [c])) = some .directory := by
  refine ⟨h.names c (List.mem_append_right done List.mem_cons_self), ?_⟩
  have he := h.dirs (done.length + 1) (Nat.succ_pos _) (by simp)
  rwa [List.take_length_add_append, List.take_succ_cons, List.take_zero] at he

end Placed

/-- Where a walk ends: in a placed directory, or at a file of the host in one. -/
inductive Reached (files : List (String × Node)) : List String → Node → Prop
  | directory {d : List String} : Placed files d → Reached files d .directory
  | file {d : List String} {x : String} : Placed files d → IsName x →
      entryAt? files (ofComponents (d ++ [x])) = some .file → Reached files (d ++ [x]) .file

theorem Reached.names {cs : List String} {node : Node} : Reached files cs node → ∀ y ∈ cs, IsName y
  | .directory hd => hd.names
  | .file hd hx _ => fun y hy => (List.mem_append.1 hy).elim (hd.names y) fun hy => List.mem_singleton.1 hy ▸ hx

/-- A walk from a placed directory ends where it can be reached. The invariant is `Placed`: a
name steps into a directory the host has, `..` leaves one, and a link restarts from the root or
from the directory it sits in. -/
theorem walk_reached : ∀ (fuel links : Nat) (done todo : List String) {r : List String × Node},
    Placed files done → (∀ s ∈ todo, '/' ∉ s.toList) → walk files fuel links done .directory todo = .ok r →
    Reached files r.1 r.2
  | 0, _, _, _, _, _, _, h => by rw [walk] at h; cases h
  | fuel + 1, _, done, [], _, hd, _, h => by
    rw [walk] at h
    cases h
    exact .directory hd
  | fuel + 1, links, done, c :: rest, r, hd, hsl, h => by
    have hrest : ∀ s ∈ rest, '/' ∉ s.toList := fun s hs => hsl s (List.mem_cons_of_mem c hs)
    rw [walk] at h
    split at h
    · exact walk_reached fuel links done rest hd hrest h
    split at h
    · exact walk_reached fuel links done.dropLast rest hd.dropLast hrest h
    next hskip hup =>
    have hc : IsName c :=
      ⟨fun h' => hskip (by simp [h']), fun h' => hskip (by simp [h']), hup, hsl c List.mem_cons_self⟩
    cases he : entryAt? files (ofComponents (done ++ [c])) with
    | none => simp only [he] at h; cases h
    | some node =>
      cases node with
      | directory =>
        simp only [he] at h
        exact walk_reached fuel links (done ++ [c]) rest (hd.child hc he) hrest h
      | file =>
        simp only [he] at h
        split at h
        · cases h
          exact .file hd hc he
        · cases h
      | link target =>
        simp only [he] at h
        cases links with
        | zero => cases h
        | succ k =>
          refine walk_reached fuel k _ (segments target ++ rest) ?_ ?_ h
          · split
            · exact Placed.root
            · exact hd
          · intro s hs
            rcases List.mem_append.1 hs with hs | hs
            · exact not_slash_of_mem_segments hs
            · exact hrest s hs

/-- Walking the names of a placed directory passes through it unchanged. -/
theorem walk_replay : ∀ (fuel links : Nat) (done cs rest : List String), Placed files (done ++ cs) →
    cs.length < fuel →
    walk files fuel links done .directory (cs ++ rest) = walk files (fuel - cs.length) links (done ++ cs) .directory rest
  | fuel, _, done, [], rest, _, _ => by rw [List.nil_append, List.append_nil, List.length_nil, Nat.sub_zero]
  | 0, _, _, _ :: _, _, _, hlt => absurd hlt (Nat.not_lt_zero _)
  | fuel + 1, links, done, c :: cs, rest, hp, hlt => by
    obtain ⟨hc, he⟩ := hp.next
    rw [List.cons_append, walk, if_neg (by simp [hc.not_skip]), if_neg hc.ne_up]
    simp only [he]
    rw [walk_replay fuel links (done ++ [c]) cs rest (by rwa [List.append_assoc, List.singleton_append])
      (by simp only [List.length_cons] at hlt; omega)]
    simp only [List.length_cons, Nat.add_sub_add_right, List.append_assoc, List.singleton_append]

theorem length_le_ofComponents {cs : List String} (h : ∀ x ∈ cs, IsName x) :
    cs.length ≤ (ofComponents cs).length := by
  by_cases hcs : cs = []
  · simp [hcs]
  · have hlen := length_splitSlash_le (ofComponents cs).toList
    have hsegs := congrArg List.length (segments_ofComponents hcs h)
    rw [segments, List.length_map, List.length_cons] at hsegs
    rw [String.length_toList] at hlen
    omega

theorem skip_empty : ("".isEmpty || decide ("" = ".")) = true := by simp

/-- A reached place is found again by walking its names. -/
theorem walk_ofComponents {cs : List String} {node : Node} (h : Reached files cs node) (fuel links : Nat)
    (hf : cs.length + 2 < fuel) : walk files fuel links [] .directory (segments (ofComponents cs)) = .ok (cs, node) := by
  obtain ⟨f, rfl⟩ : ∃ f, fuel = f + 1 := ⟨fuel - 1, by omega⟩
  cases h with
  | directory hd =>
    by_cases hcs : cs = []
    · subst hcs
      obtain ⟨g, rfl⟩ : ∃ g, f = g + 2 := ⟨f - 2, by simp only [List.length_nil] at hf; omega⟩
      rw [segments_root]
      rfl
    · rw [segments_ofComponents hcs hd.names, walk, if_pos skip_empty]
      have hr := walk_replay f links [] cs [] (by rwa [List.nil_append]) (by omega)
      rw [List.append_nil, List.nil_append] at hr
      obtain ⟨g, hg⟩ : ∃ g, f - cs.length = g + 1 := ⟨f - cs.length - 1, by omega⟩
      rw [hr, hg, walk]
  | @file d x hd hx he =>
    have hnames := (Reached.file hd hx he).names
    have hlen : d.length + 2 < f := by
      simp only [List.length_append, List.length_singleton] at hf
      omega
    rw [segments_ofComponents (by simp) hnames, walk, if_pos skip_empty]
    have hr := walk_replay f links [] d [x] (by rwa [List.nil_append]) (by omega)
    rw [List.nil_append] at hr
    obtain ⟨g, hg⟩ : ∃ g, f - d.length = g + 1 := ⟨f - d.length - 1, by omega⟩
    rw [hr, hg, walk, if_neg (by simp [hx.not_skip]), if_neg hx.ne_up]
    simp only [he]
    rfl

/-- A reached place is the lookup of its own path. -/
theorem locate_ofComponents {cs : List String} {node : Node} (h : Reached files cs node) :
    locate files (ofComponents cs) = .ok (cs, node) := by
  have hw := walk_ofComponents h ((ofComponents cs).length + maxLinks * 64 + 2) maxLinks
    (by have := length_le_ofComponents h.names; simp only [maxLinks]; omega)
  unfold locate
  rw [hw]
  cases h with
  | directory => simp [bind, Except.bind]
  | @file d x hd hx he =>
    have hend := endsWith_ofComponents (by simp) (Reached.file hd hx he).names
    simp [bind, Except.bind, hend]

/-- What a lookup finds is a reached place. -/
theorem locate_reached {p : String} {cs : List String} {node : Node} (h : locate files p = .ok (cs, node)) :
    Reached files cs node := by
  unfold locate at h
  cases hw : walk files (p.length + maxLinks * 64 + 2) maxLinks [] .directory (segments p) with
  | error e => rw [hw] at h; cases h
  | ok r =>
    obtain ⟨cs', node'⟩ := r
    have hr := walk_reached _ _ [] _ Placed.root (fun s hs => not_slash_of_mem_segments hs) hw
    rw [hw] at h
    simp only [bind, Except.bind] at h
    split at h
    · cases h
    · cases h
      exact hr

theorem canonical?_reached {p s : String} (h : canonical? files p = some s) :
    ∃ cs node, Reached files cs node ∧ s = ofComponents cs := by
  unfold canonical? at h
  split at h
  · next cs node hl => exact ⟨cs, node, locate_reached hl, (Option.some.inj h).symm⟩
  · cases h

/-- The host's canonical form of a path is its own canonical form. -/
theorem canonical?_self {p s : String} (h : canonical? files p = some s) : canonical? files s = some s := by
  obtain ⟨cs, node, hr, rfl⟩ := canonical?_reached h
  unfold canonical?
  rw [locate_ofComponents hr]

/-- The recorded host's paths are written in characters below U+10000. -/
theorem hostTree_narrow : ∀ e ∈ hostTree, Text.Narrow e.1 := by decide

theorem narrow_of_entryAt (hn : ∀ e ∈ files, Text.Narrow e.1) {p : String} {n : Node} (h : entryAt? files p = some n) :
    Text.Narrow p := by
  obtain ⟨e, he, -⟩ := Option.map_eq_some_iff.1 h
  have hp : e.1 = p := by simpa using List.find?_some he
  exact hp ▸ hn e (List.mem_of_find?_eq_some he)

/-- On a host whose paths are narrow, so is every place a walk reaches: the root, or an entry. -/
theorem Reached.narrow (hn : ∀ e ∈ files, Text.Narrow e.1) {cs : List String} {node : Node}
    (h : Reached files cs node) : Text.Narrow (ofComponents cs) := by
  cases h with
  | directory hd =>
    by_cases hcs : cs = []
    · subst hcs; decide
    · have he := hd.dirs cs.length (List.length_pos_iff.2 hcs) (Nat.le_refl _)
      rw [List.take_length] at he
      exact narrow_of_entryAt hn he
  | file _ _ he => exact narrow_of_entryAt hn he

/-! ## Keys -/

theorem normalize_ofComponents {cs : List String} (h : ∀ x ∈ cs, IsName x) :
    normalize (ofComponents cs) = ofComponents cs := by
  rw [normalize_of_absolute (isAbsolute_ofComponents cs) "", location_ofComponents "" h]
  by_cases hcs : cs = []
  · simp [hcs]
  · simp [endsWith_ofComponents hcs h]

theorem normalize_ofComponents_slash {cs : List String} (hne : cs ≠ []) (h : ∀ x ∈ cs, IsName x) :
    normalize (ofComponents cs ++ "/") = ofComponents cs ++ "/" := by
  have hend : (ofComponents cs ++ "/").endsWith "/" = true := by
    rw [endsWith_slash_iff]
    simp
  rw [normalize_of_absolute (isAbsolute_append (isAbsolute_ofComponents cs) "/") "",
    location_ofComponents_slash "" hne h]
  simp [hend, hne]

/-- Keying a path again keys it to itself: a canonical form is its own, and a path the host
does not have stays as it was written, which normalising does not change. -/
theorem real_normalize_real {x : String} (hx : normalize x = x) : real files (normalize (real files x)) = real files x := by
  cases hcan : canonical? files x with
  | none => simp only [real, hcan, Option.getD_none, hx]
  | some s =>
    obtain ⟨cs, node, hr, rfl⟩ := canonical?_reached hcan
    simp only [real, hcan, Option.getD_some, normalize_ofComponents hr.names, canonical?_self hcan]

/-- A key is the path itself, or a place the host has. -/
theorem real_eq (x : String) : real files x = x ∨ ∃ cs node, Reached files cs node ∧ real files x = ofComponents cs := by
  cases hcan : canonical? files x with
  | none => exact .inl (by simp only [real, hcan, Option.getD_none])
  | some s =>
    obtain ⟨cs, node, hr, rfl⟩ := canonical?_reached hcan
    exact .inr ⟨cs, node, hr, by simp only [real, hcan, Option.getD_some]⟩

theorem isAbsolute_real {x : String} (h : isAbsolute x = true) : isAbsolute (real files x) = true := by
  rcases real_eq x with hx | ⟨cs, _, _, hx⟩ <;> rw [hx]
  · exact h
  · exact isAbsolute_ofComponents cs

/-- The key of a path of names is a path of names. -/
theorem real_ofComponents {L : List String} (h : ∀ x ∈ L, IsName x) :
    ∃ cs, (∀ x ∈ cs, IsName x) ∧ real files (ofComponents L) = ofComponents cs := by
  rcases real_eq (ofComponents L) with hx | ⟨cs, _, hr, hx⟩
  · exact ⟨L, h, hx⟩
  · exact ⟨cs, hr.names, hx⟩

end Path

namespace Text

/-- A string every character of which stands for one code unit, as those of a text do. -/
def Carried (s : String) : Prop := ∀ ch ∈ s.toList, ∃ u, charOfUnit u = ch

theorem carried_toString (t : Text) : Carried t.toString := by
  intro ch hch
  rw [Text.toString, String.toList_ofList] at hch
  obtain ⟨u, -, hu⟩ := List.mem_map.1 hch
  exact ⟨u, hu⟩

theorem Narrow.carried {s : String} (h : Narrow s) : Carried s := by
  intro ch hch
  obtain ⟨u, -, hu⟩ := List.mem_map.1 ((units_of_lt (h ch hch)).symm ▸ List.mem_singleton_self ch)
  exact ⟨u, hu⟩

theorem Carried.append {a b : String} (ha : Carried a) (hb : Carried b) : Carried (a ++ b) := by
  intro ch hch
  rw [String.toList_append] at hch
  exact (List.mem_append.1 hch).elim (ha ch) (hb ch)

theorem Carried.intercalate {sep : String} (hsep : Carried sep) :
    ∀ {l : List String}, (∀ s ∈ l, Carried s) → Carried (sep.intercalate l)
  | [], _ => by simp [Carried]
  | [s], h => by rw [String.intercalate_singleton]; exact h s List.mem_cons_self
  | s :: t :: rest, h => by
    rw [String.intercalate_cons_cons]
    exact ((h s List.mem_cons_self).append hsep).append
      (Carried.intercalate hsep fun x hx => h x (List.mem_cons_of_mem s hx))

/-- The text of a carried string reads back as the string. -/
theorem Carried.toString_ofString {s : String} (h : Carried s) : (ofString s).toString = s := by
  have hmap : ∀ cs : List Char, (∀ ch ∈ cs, ∃ u, charOfUnit u = ch) →
      (cs.flatMap unitsOfChar).map charOfUnit = cs := by
    intro cs hcs
    induction cs with
    | nil => rfl
    | cons ch cs ih =>
      obtain ⟨u, rfl⟩ := hcs ch List.mem_cons_self
      rw [List.flatMap_cons, unitsOfChar_charOfUnit, List.singleton_append, List.map_cons,
        ih fun d hd => hcs d (List.mem_cons_of_mem _ hd)]
  rw [Text.toString, ofString, hmap s.toList h, String.ofList_toList]

end Text

namespace Path

variable {files : List (String × Node)}

theorem carried_real (hn : ∀ e ∈ files, Text.Narrow e.1) {x : String} (h : Text.Carried x) :
    Text.Carried (real files x) := by
  rcases real_eq x with hx | ⟨cs, _, hr, hx⟩ <;> rw [hx]
  · exact h
  · exact (hr.narrow hn).carried

theorem carried_ofComponents {cs : List String} (h : ∀ x ∈ cs, Text.Carried x) :
    Text.Carried (ofComponents cs) :=
  have hslash : Text.Carried "/" := Text.Narrow.carried (by decide)
  hslash.append (hslash.intercalate h)

/-- The names of a place read from texts are carried. -/
theorem carried_location (c p : Text) : ∀ x ∈ location c.toString p.toString, Text.Carried x := by
  intro x hx ch hch
  rcases char_of_mem_location hx hch with h | h
  · exact Text.carried_toString p ch h
  · exact Text.carried_toString c ch h

end Path

variable {files : List (String × Path.Node)}

theorem breakpointPath_absolute {p : Text} (hp : Path.isAbsolute p.toString = true) (cwd : Option Json) :
    breakpointPath files (some (.str p)) cwd = .ok (Path.real files (Path.normalize p.toString)) := by
  simp [breakpointPath, pathText, hp, bind, Except.bind, pure, Except.pure]

theorem breakpointPath_relative {p : Text} (hp : Path.isAbsolute p.toString = false) (c : Text) :
    breakpointPath files (some (.str p)) (some (.str c)) = .ok (Path.real files (Path.resolve c.toString p.toString)) := by
  simp [breakpointPath, pathText, hp, bind, Except.bind, pure, Except.pure]

/-- The key of a text path, read against an absolute directory, is the key of a written path:
the location's names, with a final slash when an absolute spelling has one. -/
theorem breakpointPath_written (p c : Text) (hc : Path.isAbsolute c.toString = true) :
    ∃ x, breakpointPath files (some (.str p)) (some (.str c)) = .ok (Path.real files x) ∧ Path.normalize x = x ∧
      Path.isAbsolute x = true ∧ Text.Carried x ∧
      (p.toString.endsWith "/" = false → x = Path.ofComponents (Path.location c.toString p.toString)) := by
  have hnames := Path.location_names c.toString p.toString
  have hcarried := Path.carried_ofComponents (Path.carried_location c p)
  cases hp : Path.isAbsolute p.toString with
  | true =>
    refine ⟨Path.normalize p.toString, breakpointPath_absolute hp _, ?_⟩
    rw [Path.normalize_of_absolute hp c.toString]
    by_cases ht : p.toString.endsWith "/" = true ∧ Path.location c.toString p.toString ≠ []
    · rw [if_pos ht]
      have hslash : Text.Carried "/" := Text.Narrow.carried (by decide)
      exact ⟨Path.normalize_ofComponents_slash ht.2 hnames,
        Path.isAbsolute_append (Path.isAbsolute_ofComponents _) _, hcarried.append hslash,
        fun hend => absurd ht.1 (by simp [hend])⟩
    · rw [if_neg ht, String.append_empty]
      exact ⟨Path.normalize_ofComponents hnames, Path.isAbsolute_ofComponents _, hcarried, fun _ => rfl⟩
  | false =>
    refine ⟨Path.ofComponents (Path.location c.toString p.toString), ?_, Path.normalize_ofComponents hnames,
      Path.isAbsolute_ofComponents _, hcarried, fun _ => rfl⟩
    rw [← Path.resolve_of_relative hc hp]
    exact breakpointPath_relative hp c

/-- Breakpoint keys are canonical, on every host whose paths are written in characters below
U+10000. Read against an absolute directory, the key of any text path keys to itself against
every directory. The key of a path with no final slash is the root or names, none of them
empty, `.` or `..`; every other such path naming the same location shares it. -/
theorem breakpoint_keys_canonical (host : Host) (hn : ∀ e ∈ host.files, Text.Narrow e.1) (p c : Text)
    (hc : Path.isAbsolute c.toString = true) :
    ∃ r, breakpointPath host.files (some (.str p)) (some (.str c)) = .ok r ∧
      (∀ c₂ : Option Json, breakpointPath host.files (some (.string r)) c₂ = .ok r) ∧
      (p.toString.endsWith "/" = false →
        (∃ cs, (∀ x ∈ cs, Path.IsName x) ∧ r = Path.ofComponents cs) ∧
        ∀ q : Text, q.toString.endsWith "/" = false →
          Path.location c.toString q.toString = Path.location c.toString p.toString →
          breakpointPath host.files (some (.str q)) (some (.str c)) = .ok r) := by
  obtain ⟨x, hkey, hfix, habs, hcarried, hplain⟩ := @breakpointPath_written host.files p c hc
  refine ⟨Path.real host.files x, hkey, fun c₂ => ?_, fun hp => ⟨?_, fun q hq hloc => ?_⟩⟩
  · -- the key is absolute and its text reads back as itself, so keying it normalises it again
    have hread : (Text.ofString (Path.real host.files x)).toString = Path.real host.files x :=
      (Path.carried_real hn hcarried).toString_ofString
    have habs' : Path.isAbsolute (Text.ofString (Path.real host.files x)).toString = true := by
      rw [hread]
      exact Path.isAbsolute_real habs
    rw [Json.string, breakpointPath_absolute habs' c₂, hread, Path.real_normalize_real hfix]
  · obtain ⟨cs, hcs, hreal⟩ := @Path.real_ofComponents host.files _ (Path.location_names c.toString p.toString)
    exact ⟨cs, hcs, by rw [hplain hp, hreal]⟩
  · obtain ⟨y, hkey', -, -, -, hplain'⟩ := @breakpointPath_written host.files q c hc
    rw [hkey', hplain' hq, hloc, hplain hp]

theorem relative_file_keys :
    (∀ e ∈ (⟨0, fun _ => "", Path.hostTree, Validator.standard⟩ : Host).files, Text.Narrow e.1) ∧
    Path.isAbsolute (Text.ofString "/w").toString = true ∧
    ∃ r, breakpointPath Path.hostTree (some (.str (Text.ofString "a/../b.py"))) (some (.str (Text.ofString "/w"))) = .ok r ∧
      (∀ c₂ : Option Json, breakpointPath Path.hostTree (some (.string r)) c₂ = .ok r) ∧
      ((Text.ofString "a/../b.py").toString.endsWith "/" = false →
        (∃ cs, (∀ x ∈ cs, Path.IsName x) ∧ r = Path.ofComponents cs) ∧
        ∀ q : Text, q.toString.endsWith "/" = false →
          Path.location (Text.ofString "/w").toString q.toString =
            Path.location (Text.ofString "/w").toString (Text.ofString "a/../b.py").toString →
          breakpointPath Path.hostTree (some (.str q)) (some (.str (Text.ofString "/w"))) = .ok r) :=
  ⟨Path.hostTree_narrow, by decide +kernel,
    breakpoint_keys_canonical ⟨0, fun _ => "", Path.hostTree, Validator.standard⟩ Path.hostTree_narrow _ _ (by decide +kernel)⟩

end DapBridge
