/-!
# White space

The characters of Unicode that count as white space, and the removal of them
from the ends of a text.
-/

namespace LineMonitor.Text

/-- Whether a character is white space: the ASCII controls from tab to carriage
return and from file separator to unit separator, and the Unicode separators. -/
def isBlank (c : Char) : Bool :=
  let n := c.toNat
  (0x09 ≤ n && n ≤ 0x0D) || (0x1C ≤ n && n ≤ 0x20) || n == 0x85 || n == 0xA0 ||
    n == 0x1680 || (0x2000 ≤ n && n ≤ 0x200A) || n == 0x2028 || n == 0x2029 ||
    n == 0x202F || n == 0x205F || n == 0x3000

/-- The text without the white space at its front. -/
def stripFront (text : List Char) : List Char :=
  text.dropWhile isBlank

/-- The text without the white space at its end. -/
def stripEnd (text : List Char) : List Char :=
  (text.reverse.dropWhile isBlank).reverse

/-- The text without the white space at both ends. -/
def strip (text : List Char) : List Char :=
  stripEnd (stripFront text)

@[simp] theorem stripFront_nil : stripFront [] = [] := rfl

@[simp] theorem stripEnd_nil : stripEnd [] = [] := rfl

@[simp] theorem strip_nil : strip [] = [] := rfl

/-- White space of the core library is white space here. -/
theorem isBlank_of_isWhitespace {c : Char} (h : c.isWhitespace = true) : isBlank c = true := by
  simp only [Char.isWhitespace, Bool.or_eq_true, decide_eq_true_eq] at h
  rcases h with ((rfl | rfl) | rfl) | rfl <;> rfl

end LineMonitor.Text
