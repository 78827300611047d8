/-!
# Bytes as text

Decoding UTF-8. Bytes that are not text are cut into parts as long as they could still have become a
character (`Utf8.scan`); each of them counts as one missing character.
-/

namespace TableStore.Text.Utf8

/-- The character that stands for bytes that are none. -/
def replacement : Char :=
  '\uFFFD'

/-- What a first byte of several asks of the second one: its range; and the bits it adds to the
character, and how many bytes follow the second one. -/
def leading? (b : Nat) : Option ((Nat × Nat) × Nat × Nat) :=
  if 0xc2 ≤ b ∧ b ≤ 0xdf then some ((0x80, 0xbf), b - 0xc0, 0)
  else if b = 0xe0 then some ((0xa0, 0xbf), 0, 1)
  else if b = 0xed then some ((0x80, 0x9f), 0xd, 1)
  else if 0xe1 ≤ b ∧ b ≤ 0xef then some ((0x80, 0xbf), b - 0xe0, 1)
  else if b = 0xf0 then some ((0x90, 0xbf), 0, 2)
  else if 0xf1 ≤ b ∧ b ≤ 0xf3 then some ((0x80, 0xbf), b - 0xf0, 2)
  else if b = 0xf4 then some ((0x80, 0x8f), 4, 2)
  else none

/-- A character part way through: its bits so far, what its next byte has to be, and how many bytes
follow that one. -/
structure Partial where
  bits : Nat
  range : Nat × Nat
  left : Nat

/-- The characters of bytes; nothing stands for each part that is no character. -/
def scanFrom : Option Partial → List Nat → List (Option Char)
  | none, [] => []
  | some _, [] => [none]
  | none, b :: rest =>
    if b < 0x80 then some (Char.ofNat b) :: scanFrom none rest
    else
      match leading? b with
      | some (range, bits, left) => scanFrom (some ⟨bits, range, left⟩) rest
      | none => none :: scanFrom none rest
  | some p, b :: rest =>
    if p.range.1 ≤ b ∧ b ≤ p.range.2 then
      let bits := p.bits * 64 + (b - 0x80)
      if p.left = 0 then some (Char.ofNat bits) :: scanFrom none rest
      else scanFrom (some ⟨bits, (0x80, 0xbf), p.left - 1⟩) rest
    else if b < 0x80 then none :: some (Char.ofNat b) :: scanFrom none rest
    else
      match leading? b with
      | some (range, bits, left) => none :: scanFrom (some ⟨bits, range, left⟩) rest
      | none => none :: none :: scanFrom none rest

/-- The characters of bytes; nothing stands for each part that is no character. -/
def scan (bytes : List Nat) : List (Option Char) :=
  scanFrom none bytes

/-- The text of bytes, if they are one. -/
def decode? (bytes : List Nat) : Option String :=
  ((scan bytes).mapM id).map String.ofList

/-- The text of bytes with a replacement for each part that is none. -/
def decodeLossy (bytes : List Nat) : String :=
  String.ofList ((scan bytes).map fun c => c.getD replacement)

/-- The bytes of a text. -/
def encode (text : String) : List Nat :=
  text.toUTF8.toList.map UInt8.toNat

end TableStore.Text.Utf8
