import TableStore.Text.Hex
import TableStore.Text.Scan

/-!
# Identifiers

A UUID is 128 bits. It is written as lower-case hexadecimal digits in groups of 8, 4, 4, 4 and 12
with hyphens between them (`Uuid.text`), and read from that form, with the digits in any case, also
inside braces or after `urn:uuid:`, or as the bare 32 digits (`Uuid.read?`). Identifiers are ordered
as numbers, which is the order of their bytes and of their texts. New ones are drawn by chance
(`Uuid.ofRandom`).
-/

namespace TableStore

/-- An identifier. -/
structure Uuid where
  bits : BitVec 128
deriving DecidableEq, Inhabited

namespace Uuid

instance : Ord Uuid where
  compare a b := compare a.bits.toNat b.bits.toNat

/-- The number that hexadecimal digits write after a number already read. -/
def readHex : Nat → List Char → Option Nat
  | n, [] => some n
  | n, c :: rest => do readHex (n * 16 + (← Text.hexValue? c)) rest

/-- The thirty-two hexadecimal digits of an identifier. -/
def digits (u : Uuid) : List Char :=
  Text.hexText 32 u.bits.toNat

/-- Groups of 8, 4, 4, 4 and 12 characters with hyphens between them. -/
def hyphenate (ds : List Char) : List Char :=
  ds.take 8 ++ '-' :: (ds.drop 8).take 4 ++ '-' :: (ds.drop 12).take 4 ++
    '-' :: (ds.drop 16).take 4 ++ '-' :: ds.drop 20

/-- The written form of an identifier. -/
def text (u : Uuid) : String :=
  String.ofList (hyphenate u.digits)

instance : ToString Uuid where
  toString := text

/-- Reads thirty-two digits. -/
def readDigits? (ds : List Char) : Option Uuid :=
  if ds.length = 32 then (readHex 0 ds).map fun n => ⟨BitVec.ofNat 128 n⟩ else none

/-- Reads five groups of digits with hyphens between them. -/
def readHyphenated? (s : List Char) : Option Uuid :=
  match Text.pieces '-' s with
  | [a, b, c, d, e] =>
    if a.length = 8 ∧ b.length = 4 ∧ c.length = 4 ∧ d.length = 4 ∧ e.length = 12 then
      readDigits? (a ++ b ++ c ++ d ++ e)
    else none
  | _ => none

/-- Reads an identifier in any of its written forms. -/
def read? (s : String) : Option Uuid :=
  let cs := s.toList
  match cs.length with
  | 32 => readDigits? cs
  | 36 => readHyphenated? cs
  | 38 =>
    if cs.head? = some '\x7b' ∧ cs.getLast? = some '\x7d' then
      readHyphenated? (cs.drop 1).dropLast
    else none
  | 45 =>
    if "urn:uuid:".toList.isPrefixOf cs then readHyphenated? (cs.drop 9) else none
  | _ => none

/-- The identifier that random bytes make: version 4, of the usual variant. -/
def ofRandom (bytes : List Nat) : Uuid :=
  let drawn := BitVec.ofNat 128 (bytes.foldl (fun n byte => n * 256 + byte) 0)
  let kept := BitVec.ofNat 128 0xFFFFFFFFFFFF0FFF3FFFFFFFFFFFFFFF
  ⟨drawn &&& kept ||| BitVec.ofNat 128 0x40008000000000000000⟩

end Uuid
end TableStore
