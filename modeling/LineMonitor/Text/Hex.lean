/-!
# Hexadecimal numbers

Numbers are written with the capital digits `0`–`9` and `A`–`F`, padded with
zeros to a least width that counts the sign of a negative number.  Reading
accepts the capital digits alone: no sign, no blank and no lower-case letter.
-/

namespace LineMonitor.Hex

/-! ### Writing -/

/-- The digit of value `n`, for `n` below 16. -/
def digit (n : Nat) : Char :=
  if n < 10 then Char.ofNat (48 + n) else Char.ofNat (55 + n)

/-- The digits of `n`, most significant first; zero is written `0`. -/
def digits (n : Nat) : List Char :=
  if n < 16 then [digit n] else digits (n / 16) ++ [digit (n % 16)]

/-- The digits of `n` with zeros in front up to `width` characters. -/
def padded (width n : Nat) : List Char :=
  List.replicate (width - (digits n).length) '0' ++ digits n

/-- An integer in at least `width` characters, among them its minus sign. -/
def ofInt (width : Nat) : Int → String
  | .ofNat n => String.ofList (padded width n)
  | .negSucc n => String.ofList ('-' :: padded (width - 1) (n + 1))

/-- A byte in two digits. -/
def ofByte (b : BitVec 8) : String :=
  String.ofList (padded 2 b.toNat)

/-- An address in four digits. -/
def ofAddress (a : BitVec 16) : String :=
  String.ofList (padded 4 a.toNat)

/-- Bytes as pairs of digits with a blank between them. -/
def ofBytes (data : List (BitVec 8)) : String :=
  " ".intercalate (data.map ofByte)

/-! ### Reading -/

/-- The value of a capital digit. -/
def digitValue? (c : Char) : Option Nat :=
  if '0' ≤ c ∧ c ≤ '9' then some (c.toNat - 48)
  else if 'A' ≤ c ∧ c ≤ 'F' then some (c.toNat - 55)
  else none

/-- Whether a character is a capital digit. -/
def isDigit (c : Char) : Bool :=
  (digitValue? c).isSome

/-- The value of a row of digits that stands behind digits of value `high`. -/
def valueAfter? (high : Nat) : List Char → Option Nat
  | [] => some high
  | c :: rest => (digitValue? c).bind fun d => valueAfter? (16 * high + d) rest

/-- The value of one or more digits. -/
def value? : List Char → Option Nat
  | [] => none
  | text => valueAfter? 0 text

@[simp] theorem value?_nil : value? [] = none := rfl

@[simp] theorem valueAfter?_nil (high : Nat) : valueAfter? high [] = some high := rfl

@[simp] theorem valueAfter?_cons (high : Nat) (c : Char) (rest : List Char) :
    valueAfter? high (c :: rest) =
      (digitValue? c).bind fun d => valueAfter? (16 * high + d) rest := rfl

/-! ### Reading undoes writing -/

theorem digitValue?_digit {n : Nat} (h : n < 16) : digitValue? (digit n) = some n := by
  revert n
  decide

theorem valueAfter?_append (high : Nat) (front back : List Char) :
    valueAfter? high (front ++ back) =
      (valueAfter? high front).bind fun value => valueAfter? value back := by
  induction front generalizing high with
  | nil => rfl
  | cons c front ih =>
    cases h : digitValue? c <;> simp [h, ih]

theorem digits_ne_nil (n : Nat) : digits n ≠ [] := by
  unfold digits
  split <;> simp

/-- The digits of a number are read as this number. -/
theorem valueAfter?_digits (n : Nat) : valueAfter? 0 (digits n) = some n := by
  induction n using Nat.strongRecOn with
  | ind n ih =>
    unfold digits
    split
    · rename_i h
      simp [digitValue?_digit h]
    · rw [valueAfter?_append, ih (n / 16) (by omega)]
      simp only [Option.bind_some, valueAfter?_cons, valueAfter?_nil,
        digitValue?_digit (Nat.mod_lt n (by decide : 16 > 0))]
      congr 1
      omega

/-- Zeros in front do not change a number. -/
theorem valueAfter?_zeros (count : Nat) (text : List Char) :
    valueAfter? 0 (List.replicate count '0' ++ text) = valueAfter? 0 text := by
  induction count with
  | zero => rfl
  | succ count ih =>
    have zero : digitValue? '0' = some 0 := by decide
    simp [List.replicate_succ, zero, ih]

/-- A number is read back from its digits at every width. -/
theorem value?_padded (width n : Nat) : value? (padded width n) = some n := by
  have read : valueAfter? 0 (padded width n) = some n := by
    rw [padded, valueAfter?_zeros, valueAfter?_digits]
  unfold value?
  split
  · rename_i h
    exact absurd (List.append_eq_nil_iff.mp h).2 (digits_ne_nil n)
  · exact read

end LineMonitor.Hex
