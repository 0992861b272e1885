import DapBridge.Number.Double

/-!
# Tables in insertion order

A `Table` maps keys to values and lists its entries in the order their keys were first
inserted: setting a key that is present replaces its value where it stands, erasing a key
and setting it again moves it to the end. Keys are compared by `KeyEq.same`: numbers are one
key when equal (zeros of either sign included) or both not numbers.
-/

namespace DapBridge

/-- When two keys are one. -/
class KeyEq (κ : Type) where
  same : κ → κ → Bool

instance : KeyEq String := ⟨fun a b => a == b⟩

instance : KeyEq Double := ⟨fun a b => Double.eq a b || (a.isNaN && b.isNaN)⟩

/-- Entries in the order their keys were first inserted. -/
structure Table (κ α : Type) where
  entries : List (κ × α)
  deriving Inhabited

namespace Table

variable {κ α : Type} [KeyEq κ]

def empty : Table κ α := ⟨[]⟩

def get? (t : Table κ α) (k : κ) : Option α := (t.entries.find? (KeyEq.same ·.1 k)).map (·.2)

def contains (t : Table κ α) (k : κ) : Bool := t.entries.any (KeyEq.same ·.1 k)

/-- Set a key's value: in its place when present, at the end otherwise. -/
def set (t : Table κ α) (k : κ) (v : α) : Table κ α :=
  if t.contains k then ⟨t.entries.map fun (k', v') => if KeyEq.same k' k then (k', v) else (k', v')⟩
  else ⟨t.entries ++ [(k, v)]⟩

def erase (t : Table κ α) (k : κ) : Table κ α := ⟨t.entries.filter (!KeyEq.same ·.1 k)⟩

/-- Change the value of a present key. -/
def modify (t : Table κ α) (k : κ) (f : α → α) : Table κ α :=
  ⟨t.entries.map fun (k', v) => if KeyEq.same k' k then (k', f v) else (k', v)⟩

def keys (t : Table κ α) : List κ := t.entries.map (·.1)

def values (t : Table κ α) : List α := t.entries.map (·.2)

def size (t : Table κ α) : Nat := t.entries.length

end Table

end DapBridge
