/-!
# Bytes and addresses

The machine has bytes of eight bits and addresses of sixteen.  Numbers typed or
computed elsewhere are integers of any size; `Byte.ofInt` and `Address.ofInt`
reduce them modulo `2 ^ 8` and `2 ^ 16`, so that arithmetic on addresses wraps
past `$FFFF` to `$0000`.
-/

namespace LineMonitor

/-- Eight bits of memory or code. -/
abbrev Byte := BitVec 8

/-- One of the 65536 places of memory. -/
abbrev Address := BitVec 16

/-- The byte congruent to `n` modulo 256. -/
def Byte.ofInt (n : Int) : Byte :=
  BitVec.ofInt 8 n

/-- The address congruent to `n` modulo 65536. -/
def Address.ofInt (n : Int) : Address :=
  BitVec.ofInt 16 n

/-- The address `n` places above `a`, past the top of memory if need be. -/
def Address.after (a : Address) (n : Nat) : Address :=
  a + BitVec.ofNat 16 n

/-- The value of bytes that are stored with the least significant one first. -/
def littleEndian : List Byte → Nat
  | [] => 0
  | b :: rest => b.toNat + 256 * littleEndian rest

/-- The value of such bytes if the highest bit of the last one is a sign. -/
def signedLittleEndian (data : List Byte) : Int :=
  (littleEndian data : Int).bmod (Nat.pow 256 data.length)

/-! ### Basic facts -/

@[simp] theorem Address.toNat_ofInt (n : Int) :
    (Address.ofInt n).toNat = (n % 65536).toNat := by
  simp [Address.ofInt]

@[simp] theorem Byte.toNat_ofInt (n : Int) : (Byte.ofInt n).toNat = (n % 256).toNat := by
  simp [Byte.ofInt]

@[simp] theorem Address.after_zero (a : Address) : a.after 0 = a := by
  simp [Address.after]

@[simp] theorem littleEndian_nil : littleEndian [] = 0 := rfl

@[simp] theorem littleEndian_cons (b : Byte) (rest : List Byte) :
    littleEndian (b :: rest) = b.toNat + 256 * littleEndian rest := rfl

end LineMonitor
