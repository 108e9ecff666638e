/-!
# Likeness of texts

Two texts are alike as far as they share characters in the same order.  What they
share is counted from the longest piece that stands in both: its length, and what
the texts share before it and behind it.  `closest` finds the texts that a misspelt
word may have been meant for.
-/

namespace LineMonitor.Text

/-- The length of the longest beginning that two texts have in common. -/
def sharedStart : List Char → List Char → Nat
  | c :: s, d :: t => if c = d then sharedStart s t + 1 else 0
  | _, _ => 0

/-- A piece that stands in two texts, with its positions. -/
structure SharedPiece where
  first : Nat
  second : Nat
  length : Nat
  deriving DecidableEq, Repr

/-- The longest beginning of `s` that stands in a text, at its first position there. -/
def longestStart (s : List Char) : List Char → SharedPiece
  | [] => ⟨0, 0, 0⟩
  | d :: t =>
    let here := sharedStart s (d :: t)
    let later := longestStart s t
    if later.length ≤ here then ⟨0, 0, here⟩ else { later with second := later.second + 1 }

/-- The longest piece that stands in both texts.  Of several it is the first one in the
first text, at its first position in the second. -/
def longestShared : List Char → List Char → SharedPiece
  | [], _ => ⟨0, 0, 0⟩
  | c :: s, t =>
    let here := longestStart (c :: s) t
    let later := longestShared s t
    if later.length ≤ here.length then here else { later with first := later.first + 1 }

theorem sharedStart_le (s t : List Char) : sharedStart s t ≤ s.length := by
  induction s generalizing t with
  | nil => simp [sharedStart]
  | cons c s ih =>
    cases t with
    | nil => simp [sharedStart]
    | cons d t =>
      simp only [sharedStart, List.length_cons]
      split
      · exact Nat.succ_le_succ (ih t)
      · exact Nat.zero_le _

theorem first_longestStart (s t : List Char) : (longestStart s t).first = 0 := by
  induction t with
  | nil => rfl
  | cons d t ih =>
    simp only [longestStart]
    split <;> simp [ih]

theorem length_longestStart_le (s t : List Char) : (longestStart s t).length ≤ s.length := by
  induction t with
  | nil => simp [longestStart]
  | cons d t ih =>
    simp only [longestStart]
    split
    · exact sharedStart_le s (d :: t)
    · exact ih

/-- The shared piece lies within the first text. -/
theorem longestShared_le (s t : List Char) :
    (longestShared s t).first + (longestShared s t).length ≤ s.length := by
  induction s with
  | nil => simp [longestShared]
  | cons c s ih =>
    simp only [longestShared]
    split
    · rw [first_longestStart]
      simpa using length_longestStart_le (c :: s) t
    · simp only [List.length_cons]
      omega

/-- How many characters two texts share. -/
def shared (s t : List Char) : Nat :=
  if _ : (longestShared s t).length = 0 then 0
  else
    let piece := longestShared s t
    piece.length + shared (s.take piece.first) (t.take piece.second) +
      shared (s.drop (piece.first + piece.length)) (t.drop (piece.second + piece.length))
  termination_by s.length
  decreasing_by
    all_goals
      have inside := longestShared_le s t
      simp only [List.length_take, List.length_drop]
      omega

/-- Whether two texts are alike: three fifths of their characters are shared. -/
def alike (s t : List Char) : Bool :=
  3 * (s.length + t.length) ≤ 5 * (2 * shared s t)

/-- Whether `s` is more like a word than `t` is; of texts that are equally like it the
later one in the alphabet is preferred. -/
def closer (word s t : String) : Bool :=
  let likeness (s : String) : Nat := shared s.toList word.toList
  let ofFirst := likeness s * (t.length + word.length)
  let ofSecond := likeness t * (s.length + word.length)
  ofSecond < ofFirst || ofFirst == ofSecond && t < s

/-- The texts that are alike to a word, at most `limit` of them, in alphabetical order. -/
def closest (limit : Nat) (word : String) (texts : List String) : List String :=
  let candidates := texts.filter fun s => alike s.toList word.toList
  let best := candidates.filter fun s => candidates.countP (closer word · s) < limit
  best.mergeSort (· ≤ ·)

end LineMonitor.Text
