import LineMonitor.Address

/-!
# UTF-8

Bytes are read as UTF-8 text one character at a time.  A byte that begins no
character, a byte that does not continue the character begun, or a character cut
off by the end makes the bytes malformed there; the text before it is kept.
-/

namespace LineMonitor.Text.Utf8

/-- What is wrong with malformed bytes. -/
inductive Flaw where
  | startByte
  | continuationByte
  | unfinished
  deriving DecidableEq, Repr

/-- The place where bytes stop being UTF-8 text: the bytes of the character that
is not well formed, the first of which stands at `position`. -/
structure Malformed where
  flaw : Flaw
  position : Nat
  bytes : List Byte
  deriving DecidableEq, Repr

/-- The text that bytes stand for, up to the first malformed character. -/
structure Decoded where
  text : List Char
  malformed : Option Malformed
  deriving DecidableEq, Repr

/-- A character of which some bytes are still to come; the next one has to lie
between `low` and `high`. -/
structure Begun where
  seen : List Byte
  missing : Nat
  low : Nat
  high : Nat
  value : Nat

/-- The character that a byte of 128 or more begins. -/
def begin? (b : Byte) : Option Begun :=
  let n := b.toNat
  if 0xC2 ≤ n ∧ n ≤ 0xDF then some ⟨[b], 1, 0x80, 0xBF, n - 0xC0⟩
  else if n = 0xE0 then some ⟨[b], 2, 0xA0, 0xBF, 0⟩
  else if n = 0xED then some ⟨[b], 2, 0x80, 0x9F, 0xD⟩
  else if 0xE1 ≤ n ∧ n ≤ 0xEF then some ⟨[b], 2, 0x80, 0xBF, n - 0xE0⟩
  else if n = 0xF0 then some ⟨[b], 3, 0x90, 0xBF, 0⟩
  else if n = 0xF4 then some ⟨[b], 3, 0x80, 0x8F, 4⟩
  else if 0xF1 ≤ n ∧ n ≤ 0xF3 then some ⟨[b], 3, 0x80, 0xBF, n - 0xF0⟩
  else none

/-- The decoding that has one character more in front. -/
def Decoded.cons (c : Char) (d : Decoded) : Decoded :=
  { d with text := c :: d.text }

/-- The decoding that stops at once. -/
def Decoded.stop (flaw : Flaw) (position : Nat) (bytes : List Byte) : Decoded :=
  ⟨[], some ⟨flaw, position, bytes⟩⟩

/-- The text of the bytes from `position` on, inside the character `begun` if there
is one. -/
def decodeFrom (position : Nat) : Option Begun → List Byte → Decoded
  | none, [] => ⟨[], none⟩
  | some begun, [] => .stop .unfinished (position - begun.seen.length) begun.seen
  | none, b :: rest =>
    if b.toNat < 0x80 then .cons (Char.ofNat b.toNat) (decodeFrom (position + 1) none rest)
    else
      match begin? b with
      | none => .stop .startByte position [b]
      | some begun => decodeFrom (position + 1) (some begun) rest
  | some begun, b :: rest =>
    if begun.low ≤ b.toNat ∧ b.toNat ≤ begun.high then
      let value := 64 * begun.value + (b.toNat - 0x80)
      if begun.missing ≤ 1 then .cons (Char.ofNat value) (decodeFrom (position + 1) none rest)
      else
        decodeFrom (position + 1)
          (some ⟨begun.seen ++ [b], begun.missing - 1, 0x80, 0xBF, value⟩) rest
    else .stop .continuationByte (position - begun.seen.length) begun.seen

/-- The text that bytes stand for. -/
def decode (bytes : List Byte) : Decoded :=
  decodeFrom 0 none bytes

/-- Whether bytes are the first two of a surrogate, which is no character. -/
def isHalfSurrogate : List Byte → Bool
  | [a, b] => a.toNat == 0xED && 0xA0 ≤ b.toNat && b.toNat ≤ 0xBF
  | _ => false

/-- The bytes at the end that more bytes are awaited for, if the rest is well formed.
They begin a character; a surrogate is refused only when its third byte is there. -/
def Decoded.awaiting? (d : Decoded) (bytes : List Byte) : Option (List Byte) :=
  match d.malformed with
  | none => some []
  | some x =>
    let rest := bytes.drop x.position
    if x.flaw == .unfinished || isHalfSurrogate rest then some rest else none

/-- The text of bytes that are read block by block, with `held` before the first block.
The blocks before a malformed one give their text, the malformed one gives none; the
place of the malformed bytes is counted from the bytes that were awaiting more. -/
def decodeBlocks (held : List Byte) : List (List Byte) → Decoded
  | [] => decode held
  | block :: rest =>
    let bytes := held ++ block
    let decoded := decode bytes
    match decoded.awaiting? bytes with
    | none => ⟨[], decoded.malformed⟩
    | some awaiting =>
      let later := decodeBlocks awaiting rest
      { later with text := decoded.text ++ later.text }

/-- The bytes of a text. -/
def encode (text : String) : List Byte :=
  text.toUTF8.toList.map (·.toBitVec)

end LineMonitor.Text.Utf8
