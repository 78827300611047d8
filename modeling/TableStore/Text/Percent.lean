import TableStore.Text.Hex
import TableStore.Text.Scan
import TableStore.Text.Utf8

/-!
# Percent-encoding

Bytes in addresses are written `%` and two hexadecimal digits. In a query string a plus sign is a
space, and the pairs of a name and a value stand between ampersands.
-/

namespace TableStore.Text.Percent

/-- The bytes that an encoded text stands for; a `%` without two digits stands for itself. -/
def decodeBytes : List Nat → List Nat
  | 0x25 :: a :: b :: rest =>
    match hexValue? (Char.ofNat a), hexValue? (Char.ofNat b) with
    | some high, some low => (high * 16 + low) :: decodeBytes rest
    | _, _ => 0x25 :: decodeBytes (a :: b :: rest)
  | byte :: rest => byte :: decodeBytes rest
  | [] => []

/-- The text that an encoded text stands for, if its bytes are one. -/
def decode? (text : String) : Option String :=
  Utf8.decode? (decodeBytes (Utf8.encode text))

/-- The text of a name or value in a query string. -/
def decodeForm (text : List Char) : String :=
  let spaced := text.map fun c => if c = '+' then ' ' else c
  Utf8.decodeLossy (decodeBytes (Utf8.encode (String.ofList spaced)))

/-- The name and the value of a pair; a pair without an equals sign has an empty value. -/
def pair (text : List Char) : String × String :=
  match cutAt '=' text with
  | some (name, value) => (decodeForm name, decodeForm value)
  | none => (decodeForm text, "")

/-- The pairs of a query string. -/
def pairs (query : String) : List (String × String) :=
  ((pieces '&' query.toList).filter fun p => !p.isEmpty).map pair

end TableStore.Text.Percent
