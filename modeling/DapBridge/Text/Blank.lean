/-!
# Blank characters

The characters that trimming removes: the ASCII blanks (tab, line feed, vertical tab, form
feed, carriage return, space), no-break space, the byte-order mark, the line and paragraph
separators, and the Unicode space separators (U+1680, U+2000–U+200A, U+202F, U+205F,
U+3000).
-/

namespace DapBridge

namespace Blank

def isBlank (c : Char) : Bool :=
  let n := c.toNat
  (9 ≤ n ∧ n ≤ 13) ∨ n = 32 ∨ n = 0xA0 ∨ n = 0x1680 ∨ (0x2000 ≤ n ∧ n ≤ 0x200A) ∨
    n = 0x2028 ∨ n = 0x2029 ∨ n = 0x202F ∨ n = 0x205F ∨ n = 0x3000 ∨ n = 0xFEFF

/-- Drop blanks at both ends. -/
def trimList (cs : List Char) : List Char :=
  ((cs.dropWhile isBlank).reverse.dropWhile isBlank).reverse

def trim (s : String) : String := String.ofList (trimList s.toList)

theorem isBlank_of_isWhitespace (c : Char) (h : c.isWhitespace = true) : isBlank c = true := by
  simp only [Char.isWhitespace, Bool.or_eq_true, decide_eq_true_eq] at h
  simp only [isBlank, decide_eq_true_eq]
  rcases h with ((h | h) | h) | h <;> simp [h]

example : trim "  x y　\n" = "x y" := by decide

end Blank

end DapBridge
