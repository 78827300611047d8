import TableStore.Number.Decimal

/-!
# Reading decimal numbers

A number in a document is read in three steps that each may round: its leading digits as a 64-bit
significand (`Numeral.scan`), that significand as a double, and one product with, or quotient by, a
power of ten that is a double too. So a text with seventeen digits need not read as the double
nearest to it; `scaled` says exactly what it reads as.
-/

namespace TableStore

/-- The bound below which a significand is collected. -/
def significandBound : Nat :=
  Nat.pow 2 64

/-- The greatest power of ten that is a double. -/
def greatestPower : Nat :=
  308

namespace Binary64

/-- The double nearest to `10 ^ k`. -/
def powerOfTen (k : Nat) : Binary64 :=
  ofNat (Nat.pow 10 k)

/-- `x` divided by `10 ^ greatestPower` as often as `steps` says, or until it is zero. -/
def scaledDown : Nat → Binary64 → Binary64
  | 0, x => x
  | steps + 1, x =>
    if x.isZero then x else scaledDown steps (x.quotient (powerOfTen greatestPower))

/-- The double that `significand · 10 ^ exponent` reads as; nothing where it is too large. -/
def scaled (significand : Nat) (exponent : Int) : Option Binary64 :=
  let x := ofNat significand
  let size := exponent.natAbs
  if 0 ≤ exponent then
    if size ≤ greatestPower then
      let y := x.product (powerOfTen size)
      if y.isInfinite then none else some y
    else if x.isZero then some x
    else none
  else
    let steps := (size - 1) / greatestPower
    let y := scaledDown steps x
    if y.isZero then some y else some (y.quotient (powerOfTen (size - steps * greatestPower)))

end Binary64

/-! ### Numerals -/

/-- A number as a document writes it: sign, digits before and after the point, and exponent. -/
structure Numeral where
  negative : Bool
  whole : List Nat
  fraction : Option (List Nat)
  exponent : Option (Bool × List Nat)
deriving DecidableEq, Inhabited

namespace Numeral

/-- Appends digits to a significand while it stays below the bound. Answers the significand and the
digits that are left. -/
def collect : Nat → List Nat → Nat × List Nat
  | significand, [] => (significand, [])
  | significand, d :: rest =>
    if significand * 10 + d < significandBound then collect (significand * 10 + d) rest
    else (significand, d :: rest)

/-- The number that digits write. -/
def value (digits : List Nat) : Nat :=
  digits.foldl (fun n d => n * 10 + d) 0

/-- The significand and the power of ten that a numeral is read with. Digits of the whole part that
do not fit raise the power; digits of the fraction that do not fit are dropped. -/
def scan (n : Numeral) : Nat × Int :=
  let (whole, dropped) := collect 0 n.whole
  let fraction := n.fraction.getD []
  let (significand, left) := collect whole fraction
  (significand, (dropped.length : Int) - (fraction.length - left.length : Nat))

/-- Exponents are read up to this bound. -/
def exponentBound : Nat :=
  Nat.pow 2 31

/-- The double that a numeral reads as; nothing where it is too large. -/
def toBinary64 (n : Numeral) : Option Binary64 :=
  let (significand, power) := n.scan
  let size : Option Binary64 :=
    match n.exponent with
    | none => Binary64.scaled significand power
    | some (down, digits) =>
      let e := value digits
      if exponentBound ≤ e then
        if significand ≠ 0 ∧ !down then none else some ⟨0⟩
      else Binary64.scaled significand (if down then power - e else power + e)
  size.map fun x => if n.negative then x.negate else x

/-! ### From text -/

/-- The leading decimal digits of a text, and what follows them. -/
def digits : List Char → List Nat × List Char
  | [] => ([], [])
  | c :: rest =>
    if c.isDigit then
      let (more, left) := digits rest
      ((c.toNat - '0'.toNat) :: more, left)
    else ([], c :: rest)

/-- The digits of a whole part: a single zero, or digits that begin with another one. -/
def readWhole (text : List Char) : Option (List Nat × List Char) :=
  match digits text with
  | ([], _) => none
  | (0 :: _ :: _, _) => none
  | (whole, left) => some (whole, left)

/-- A point and the digits of a fraction, if a point comes next. -/
def readFraction : List Char → Option (Option (List Nat) × List Char)
  | '.' :: rest =>
    match digits rest with
    | ([], _) => none
    | (fraction, left) => some (some fraction, left)
  | text => some (none, text)

/-- The sign of an exponent: whether it is negative. -/
def readExponentSign : List Char → Bool × List Char
  | '-' :: rest => (true, rest)
  | '+' :: rest => (false, rest)
  | text => (false, text)

/-- A mark, a sign and the digits of an exponent, if a mark comes next. -/
def readExponent (text : List Char) : Option (Option (Bool × List Nat) × List Char) :=
  match text with
  | c :: rest =>
    if c = 'e' ∨ c = 'E' then
      let (down, rest) := readExponentSign rest
      match digits rest with
      | ([], _) => none
      | (e, left) => some (some (down, e), left)
    else some (none, text)
  | [] => some (none, [])

/-- The numeral at the beginning of a text, and what follows it. -/
def read (text : List Char) : Option (Numeral × List Char) := do
  let (negative, text) :=
    match text with
    | '-' :: rest => (true, rest)
    | text => (false, text)
  let (whole, text) ← readWhole text
  let (fraction, text) ← readFraction text
  let (exponent, text) ← readExponent text
  return (⟨negative, whole, fraction, exponent⟩, text)

/-- The unsigned 64-bit integer that a whole text writes, perhaps after a plus sign. -/
def readUnsigned? (text : String) : Option Nat :=
  let ds :=
    match text.toList with
    | '+' :: rest => rest
    | chars => chars
  match digits ds with
  | ([], _) => none
  | (ds, []) => if value ds < significandBound then some (value ds) else none
  | _ => none

end Numeral

/-- What a finite double reads as after it has been written in a document. -/
def Binary64.reread (x : Binary64) : Binary64 :=
  match Numeral.read x.documentText.toList with
  | some (n, _) => n.toBinary64.getD x
  | none => x

end TableStore
