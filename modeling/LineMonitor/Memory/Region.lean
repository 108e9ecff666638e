import LineMonitor.Address
import LineMonitor.Text.Hex

/-!
# Regions of memory

A region is a range of addresses with both ends included.  Its ends are in order;
`Region.ofBounds` refuses numbers that are no addresses or are out of order.
-/

namespace LineMonitor

/-- The addresses from `first` to `last`. -/
structure Region where
  first : Address
  last : Address
  first_le_last : first ≤ last := by decide
  deriving DecidableEq, Repr

namespace Region

/-- Whether an address lies in the region. -/
def contains (r : Region) (a : Address) : Bool :=
  r.first ≤ a && a ≤ r.last

/-- The region between two numbers, if they are addresses in order. -/
def ofBounds? (first last : Int) : Option Region :=
  if h : 0 ≤ first ∧ first ≤ last ∧ last ≤ 0xFFFF then
    some {
      first := Address.ofInt first
      last := Address.ofInt last
      first_le_last := by rw [BitVec.le_def]; simp; omega }
  else none

/-- The numbers of the first address and of the last one. -/
def bounds (r : Region) : Int × Int :=
  (r.first.toNat, r.last.toNat)

/-- The complaint about numbers that bound no region. -/
def refusal (first last : Int) : String :=
  "Invalid memory region $" ++ Hex.ofInt 4 first ++ "-$" ++ Hex.ofInt 4 last

/-- The region between two numbers, or the complaint about them. -/
def ofBounds (first last : Int) : Except String Region :=
  match ofBounds? first last with
  | some r => .ok r
  | none => .error (refusal first last)

end Region

end LineMonitor
