/-!
# Text as UTF-16 code units

The string values carried by protocol messages are sequences of UTF-16 code units: that is
what a JSON `\u` escape denotes, what string lengths count and where a string may be cut.
A cut can split a surrogate pair, so a `Text` need not be well-formed Unicode.

The strings of this library hold one character per code unit. A unit that is no surrogate is
the character with its number; a surrogate `u`, paired or not, is the character
`u + 0x102000`, one of the last 2048 code points (U+10F800 to U+10FFFF). So a character
beyond the basic plane is two characters, its surrogates, and string length, cutting and
indexing are those of code units. `Text.ofString` and `Text.toString` are inverse
(`ofString_toString`); a `String` from elsewhere (a literal, the command line) reads a
character beyond the basic plane outside that block as its pair. Text enters and leaves as
UTF-8 only through `Utf8.decode` and `Utf8.encode`, which join pairs into characters and write
an unpaired surrogate as U+FFFD.

* `Text.ofString` and `Text.toString` convert between the two views.
* `Text.take` keeps a prefix of code units, `Text.length` counts them.
* `Text.characters` splits a text into characters, a surrogate pair being one.
-/

namespace DapBridge

/-- A sequence of UTF-16 code units. -/
structure Text where
  units : List UInt16
  deriving DecidableEq, Hashable, Inhabited, Repr

namespace Text

/-- The distance from a surrogate to the character that stands for it in a `String`. -/
def keptOffset : Nat := 0x102000

def isHigh (u : UInt16) : Bool := 0xD800 ≤ u.toNat ∧ u.toNat < 0xDC00

def isLow (u : UInt16) : Bool := 0xDC00 ≤ u.toNat ∧ u.toNat < 0xE000

/-- The code point of a high and a low surrogate. -/
def pairCode (u v : UInt16) : Nat := 0x10000 + (u.toNat - 0xD800) * 0x400 + (v.toNat - 0xDC00)

/-- The UTF-16 units of a character taken as itself: one below U+10000, else a pair. -/
def utf16 (c : Char) : List UInt16 :=
  let n := c.toNat
  if n < 0x10000 then [n.toUInt16]
  else
    let v := n - 0x10000
    [(0xD800 + v / 0x400).toUInt16, (0xDC00 + v % 0x400).toUInt16]

/-- The character that stands for one code unit in a `String`. -/
def charOfUnit (u : UInt16) : Char :=
  if isHigh u || isLow u then Char.ofNat (u.toNat + keptOffset) else Char.ofNat u.toNat

/-- The code units a character of a `String` stands for: a character of the block of
surrogates is its surrogate; any other character is its own units. -/
def unitsOfChar (c : Char) : List UInt16 :=
  if 0x10F800 ≤ c.toNat then [(c.toNat - keptOffset).toUInt16] else utf16 c

def ofString (s : String) : Text := ⟨s.toList.flatMap unitsOfChar⟩

instance : Coe String Text := ⟨ofString⟩

protected def toString (t : Text) : String := String.ofList (t.units.map charOfUnit)

/-- Characters taken as themselves, as a string of this library: one character per unit. -/
def ofChars (cs : List Char) : String := String.ofList (cs.flatMap fun c => (utf16 c).map charOfUnit)

theorem toNat_charOfNat (n : Nat) (h : n < 0xD800 ∨ (0xDFFF < n ∧ n < 0x110000)) :
    (Char.ofNat n).toNat = n := by
  have e : Char.ofNat n = Char.ofNatAux n h := dif_pos h
  rw [e]
  rfl

theorem toUInt16_of_toNat {n : Nat} {u : UInt16} (h : n = u.toNat) : n.toUInt16 = u := by
  subst h
  exact UInt16.ofNat_toNat

/-- A unit's character stands for that unit. -/
theorem unitsOfChar_charOfUnit (u : UInt16) : unitsOfChar (charOfUnit u) = [u] := by
  have hu := u.toNat_lt
  by_cases hs : (isHigh u || isLow u) = true
  · have hr : 0xD800 ≤ u.toNat ∧ u.toNat < 0xE000 := by
      simp only [isHigh, isLow, Bool.or_eq_true, decide_eq_true_eq] at hs
      omega
    have hc : (charOfUnit u).toNat = u.toNat + keptOffset := by
      rw [charOfUnit, if_pos hs]
      exact toNat_charOfNat _ (by simp only [keptOffset]; omega)
    rw [unitsOfChar, hc, if_pos (by simp only [keptOffset]; omega)]
    rw [toUInt16_of_toNat (u := u) (by simp only [keptOffset]; omega)]
  · have hr : u.toNat < 0xD800 ∨ 0xE000 ≤ u.toNat := by
      simp only [isHigh, isLow, Bool.or_eq_true, decide_eq_true_eq, not_or, not_and] at hs
      omega
    have hc : (charOfUnit u).toNat = u.toNat := by
      rw [charOfUnit, if_neg hs]
      exact toNat_charOfNat _ (by omega)
    rw [unitsOfChar, hc, if_neg (by omega), utf16, hc, if_pos (by omega), toUInt16_of_toNat rfl]

theorem flatMap_map_charOfUnit (us : List UInt16) : (us.map charOfUnit).flatMap unitsOfChar = us := by
  induction us with
  | nil => rfl
  | cons u us ih => rw [List.map_cons, List.flatMap_cons, unitsOfChar_charOfUnit, ih]; rfl

/-- A text carried by a `String` comes back unchanged. -/
theorem ofString_toString (t : Text) : ofString t.toString = t := by
  cases t with
  | mk us => simp only [ofString, Text.toString, String.toList_ofList, flatMap_map_charOfUnit]

/-- A string holds one character per unit. -/
theorem length_toString (t : Text) : t.toString.length = t.units.length := by
  simp [Text.toString]

instance : ToString Text := ⟨Text.toString⟩

/-- Number of code units. -/
def length (t : Text) : Nat := t.units.length

/-- The first `n` code units. -/
def take (t : Text) (n : Nat) : Text := ⟨t.units.take n⟩

instance : Append Text := ⟨fun a b => ⟨a.units ++ b.units⟩⟩

/-- The order of code units, unit by unit. -/
instance : Ord Text := ⟨fun a b => compare a.units b.units⟩

def isEmpty (t : Text) : Bool := t.units.isEmpty

/-- Units grouped into characters: a high surrogate with the low one after it is one, every
other unit is one by itself. -/
def groupUnits : List UInt16 → List Text
  | [] => []
  | [u] => [⟨[u]⟩]
  | u :: tl@(v :: rest) =>
    if isHigh u && isLow v then ⟨[u, v]⟩ :: groupUnits rest else ⟨[u]⟩ :: groupUnits tl

/-- The characters of a text, each as a text of its units. -/
def characters (t : Text) : List Text := groupUnits t.units

@[simp] theorem length_take (t : Text) (n : Nat) : (t.take n).length = min n t.length := by
  simp [take, length]

end Text

end DapBridge
