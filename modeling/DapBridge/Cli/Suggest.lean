import DapBridge.Json.Value

/-!
# Suggesting a flag

When a flag is unknown, the closest known flags are suggested: those within three edits
(insertions, deletions, substitutions, and swaps of two neighbours) of it, and similar
enough, i.e. the edits touch at most 60% of the longer of the two; of these the ones with
the fewest edits, in alphabetical order. One-character names are never suggested.

Words are compared, measured and ordered as UTF-16 code units, so a character outside the
basic plane counts as two: an emoji in a mistyped flag costs two edits, not one.
-/

namespace DapBridge

namespace Cli

/-- Edits never counted beyond this. -/
def maxEdits : Nat := 3

/-- The number of edits between two words, where each swap of neighbours counts once and no
part is edited twice; words whose lengths differ by more than `maxEdits` count as the longer
length. -/
def editDistance (a b : List UInt16) : Nat := Id.run do
  if a.length > b.length + maxEdits || b.length > a.length + maxEdits then
    return max a.length b.length
  let xs := a.toArray
  let ys := b.toArray
  let charAt (arr : Array UInt16) (i : Nat) : UInt16 := arr[i]?.getD 0
  let cell (row : Array Nat) (j : Nat) : Nat := row[j]?.getD 0
  let mut older : Array Nat := #[]
  let mut prev : Array Nat := (List.range (ys.size + 1)).toArray
  for i in [1:xs.size + 1] do
    let mut cur : Array Nat := #[i]
    for j in [1:ys.size + 1] do
      let cost := if charAt xs (i - 1) == charAt ys (j - 1) then 0 else 1
      let mut v := min (min (cell prev j + 1) (cell cur (j - 1) + 1)) (cell prev (j - 1) + cost)
      if i > 1 && j > 1 && charAt xs (i - 1) == charAt ys (j - 2) && charAt xs (i - 2) == charAt ys (j - 1) then
        v := min v (cell older (j - 2) + 1)
      cur := cur.push v
    older := prev
    prev := cur
  return cell prev ys.size

/-- Whether `a` comes before `b` in the order of their code units. -/
def before (a b : String) : Bool :=
  compare (Text.ofString a).units (Text.ofString b).units == .lt

/-- The closest candidates to a word (flags compared without their leading `--`). -/
def similar (word : String) (candidates : List String) : List String :=
  let long := word.startsWith "--"
  let strip (s : String) : String := if long then String.ofList (s.toList.drop 2) else s
  let wu := (Text.ofString (strip word)).units
  let unique := candidates.foldl (fun acc c => if acc.contains c then acc else acc ++ [c]) []
  let step (acc : Nat × List String) (c : String) : Nat × List String :=
    let c := strip c
    let cu := (Text.ofString c).units
    if cu.length ≤ 1 then acc
    else
      let d := editDistance wu cu
      let len := max wu.length cu.length
      -- similar enough: (len - d) / len > 0.4
      if 5 * (len - d) > 2 * len then
        if d < acc.1 then (d, [c])
        else if d = acc.1 then (acc.1, acc.2 ++ [c])
        else acc
      else acc
  let found := ((unique.foldl step (maxEdits, [])).2.mergeSort fun a b => !before b a)
  if long then found.map ("--" ++ ·) else found

/-- The hint added to an unknown flag's message. -/
def suggestion (word : String) (candidates : List String) : String :=
  match similar word candidates with
  | [] => ""
  | [one] => s!"\n(Did you mean {one}?)"
  | many =>
    let listed := ", ".intercalate many
    s!"\n(Did you mean one of {listed}?)"

end Cli

end DapBridge
