import DapBridge.Json.Value

/-!
# POSIX paths

Paths are `/`-separated. Normalising drops empty and `.` segments and lets `..` cancel the
segment before it; above the root there is nothing to cancel. A path keeps its trailing
slash through `normalize`; `resolve` reads a path against a base directory (itself read
against the root when relative) and gives an absolute path without one.
-/

namespace DapBridge

namespace Path

def isAbsolute (p : String) : Bool := p.startsWith "/"

/-- Segments of a path after `.` and `..` have done their work; `..` stays only where a
relative path climbs above its start (`aboveStart`). -/
def collapse (aboveStart : Bool) : List String → List String → List String
  | acc, [] => acc.reverse
  | acc, seg :: rest =>
    if seg.isEmpty || seg = "." then collapse aboveStart acc rest
    else if seg = ".." then
      match acc with
      | last :: earlier => if last = ".." then collapse aboveStart (seg :: acc) rest else collapse aboveStart earlier rest
      | [] => collapse aboveStart (if aboveStart then [seg] else []) rest
    else collapse aboveStart (seg :: acc) rest

/-- The runs of characters between slashes. -/
def splitSlash : List Char → List (List Char)
  | [] => [[]]
  | c :: cs =>
    let rest := splitSlash cs
    if c = '/' then [] :: rest
    else
      match rest with
      | r :: rs => (c :: r) :: rs
      | [] => [[c]]

/-- The segments between slashes. -/
def segments (p : String) : List String := (splitSlash p.toList).map String.ofList

/-- A path with redundant separators, `.` and `..` removed; a trailing slash stays. -/
def normalize (p : String) : String :=
  if p.isEmpty then "."
  else
    let abs := isAbsolute p
    let body := "/".intercalate (collapse (!abs) [] (segments p))
    let trailing := p.endsWith "/"
    if body.isEmpty then
      if abs then "/" else if trailing then "./" else "."
    else
      let body := if trailing then body ++ "/" else body
      if abs then "/" ++ body else body

/-- `p` read against the directory `base`; a relative `base` is read against the root. An
empty `p` is `base` itself. -/
def resolve (base p : String) : String :=
  let parts := ["/", base, p].filter (!·.isEmpty)
  let start := (parts.reverse.findIdx? isAbsolute).map (parts.length - 1 - ·)
  let used := match start with
    | some i => parts.drop i
    | none => parts
  let body := "/".intercalate (collapse false [] ((used.map segments).flatten))
  "/" ++ body

/-- The last component of a path; slashes at its end do not count. -/
def baseName (p : String) : String :=
  String.ofList ((p.toList.reverse.dropWhile (· == '/')).takeWhile (· != '/')).reverse

example : normalize "/abs//double//slash/" = "/abs/double/slash/" := by decide +kernel
example : resolve "/proj" "../other/../m.py" = "/m.py" := by decide +kernel
example : resolve "/zz" "" = "/zz" := by cbv
example : baseName "/srv/tools/" = "tools" := by cbv

end Path

end DapBridge
