import TableStore.Number.Reading

/-!
# Doubles in the embedded engine

The embedded engine writes a double with fifteen significant digits, and reads a decimal text, in
extended precision: with sixty-four significant bits. It gets from one power of ten to another by
several multiplications, each of them rounded, with powers that are rounded themselves. So the last
of the fifteen digits need not be that of the double, and a text need not be read as the double
nearest to it. `Binary64.databaseText` and `Numeral.databaseValue` follow these steps.
-/

namespace TableStore

/-- The number `significand · 2 ^ exponent` of extended precision. -/
structure Extended where
  significand : Nat
  exponent : Int
deriving DecidableEq, Inhabited

namespace Extended

/-- The number nearest to the quotient `num / den`. -/
def ofRatio (num den : Nat) : Extended :=
  if num = 0 then ⟨0, 0⟩
  else
    let q := Binary64.exponentFor 64 num den
    ⟨Binary64.roundScaled num den q, q⟩

/-- The number as a quotient of natural numbers. -/
def ratio (x : Extended) : Nat × Nat :=
  if 0 ≤ x.exponent then (x.significand * Nat.pow 2 x.exponent.toNat, 1)
  else (x.significand, Nat.pow 2 (-x.exponent).toNat)

/-- The product of two numbers, rounded. -/
def times (x y : Extended) : Extended :=
  let (a, b) := x.ratio
  let (c, d) := y.ratio
  ofRatio (a * c) (b * d)

/-- The number nearest to a power of ten. -/
def powerOfTen (k : Int) : Extended :=
  if 0 ≤ k then ofRatio (Nat.pow 10 k.toNat) 1 else ofRatio 1 (Nat.pow 10 (-k).toNat)

def isBelow (x y : Extended) : Bool :=
  let (a, b) := x.ratio
  let (c, d) := y.ratio
  a * d < c * b

/-- The number without its fraction. -/
def floor (x : Extended) : Nat :=
  x.ratio.1 / x.ratio.2

/-! ### Scaling -/

/-- A number divided by `10 ^ step` while it is at least `10 ^ bound`, with the exponent of ten that
is left. No double is divided more than ten times by the steps in use. -/
def lower (step bound : Nat) : Nat → Extended × Int → Extended × Int
  | 0, x => x
  | rounds + 1, (x, e) =>
    if x.isBelow (powerOfTen bound) then (x, e)
    else lower step bound rounds (x.times (powerOfTen (-step)), e + step)

/-- A number multiplied by `10 ^ step` while it is below `10 ^ bound`, with the exponent of ten that
is left. No double is multiplied more than eleven times by the steps in use. -/
def raise (step : Nat) (bound : Int) : Nat → Extended × Int → Extended × Int
  | 0, x => x
  | rounds + 1, (x, e) =>
    if x.isBelow (powerOfTen bound) then
      raise step bound rounds (x.times (powerOfTen step), e - step)
    else (x, e)

/-- A positive number brought to eighteen or nineteen digits in front of the point, with the
exponent of ten that is left. -/
def normalized (x : Extended) : Extended × Int :=
  if x.isBelow (powerOfTen 19) then
    raise 1 17 16 (raise 10 7 16 (raise 100 (-97) 16 (x, 0)))
  else lower 1 19 16 (lower 10 29 16 (lower 100 119 16 (x, 0)))

/-- A number multiplied so many times by another one. -/
def timesRepeatedly (y : Extended) : Nat → Extended → Extended
  | 0, x => x
  | count + 1, x => timesRepeatedly y count (x.times y)

/-- A number multiplied by `10 ^ k`: by hundreds of powers first, then by tens, then one by one. -/
def scaled (x : Extended) (k : Int) : Extended :=
  let move (size count : Nat) (x : Extended) : Extended :=
    timesRepeatedly (powerOfTen (k.sign * size)) count x
  let n := k.natAbs
  move 1 (n % 10) (move 10 (n % 100 / 10) (move 100 (n / 100) x))

/-- The nearest double; beyond the largest one, the infinity. -/
def toBinary64 (x : Extended) : Binary64 :=
  let (num, den) := x.ratio
  let (largest, one) := (⟨0x7fefffffffffffff⟩ : Binary64).ratio
  if largest * den < num * one then Binary64.infinity else Binary64.ofRatio num den

end Extended

/-! ### Writing -/

/-- Plain digits from `1e-4` up to below `1e15`, and a point in front of every exponent. -/
def Decimal.databaseLayout : Decimal.Layout :=
  ⟨-3, 15, true, 2⟩

namespace Binary64

/-- The fifteen significant digits of a positive finite double, without zeros at the end. The
sixteenth digit decides whether they are rounded up, the ones after it do not. -/
def databaseDigits (x : Binary64) : Decimal :=
  let (num, den) := x.ratio
  let (y, exponent) := (Extended.ofRatio num den).normalized
  let n := y.floor
  let more := (Decimal.digitText n).length - 15
  let digits := n / Nat.pow 10 more
  let up := 5 ≤ n / Nat.pow 10 (more - 1) % 10
  Decimal.trimmed 16 ⟨if up then digits + 1 else digits, exponent + more⟩

/-- The text of a double in the embedded engine. There is no sign on zero. -/
def databaseText (x : Binary64) : String :=
  if x.isZero then "0.0"
  else
    let sign := if x.isNegative then ['-'] else []
    let size :=
      if x.isInfinite then "Inf".toList else Decimal.databaseLayout.text x.databaseDigits
    String.ofList (sign ++ size)

end Binary64

/-! ### Reading -/

namespace Numeral

/-- The bound below which the engine collects a significand; one more digit still fits 64 bits. -/
def databaseBound : Nat :=
  (significandBound - 10) / 10

/-- Appends digits to a significand while it is below the bound. Answers the significand and the
digits that are left. -/
def gather : Nat → List Nat → Nat × List Nat
  | significand, [] => (significand, [])
  | significand, d :: rest =>
    if significand < databaseBound then gather (significand * 10 + d) rest
    else (significand, d :: rest)

/-- The exponent that digits write, which stops to grow after the fourth digit. -/
def databaseExponent (digits : List Nat) : Nat :=
  digits.foldl (fun e d => if e < 10000 then e * 10 + d else 10000) 0

/-- Moves powers of ten from the exponent to the significand as long as that fits, or back as long
as the significand ends in a zero. -/
def balanced : Nat → Nat × Int → Nat × Int
  | 0, x => x
  | rounds + 1, (significand, e) =>
    if 0 < e ∧ significand < (significandBound - 1) / 10 then
      balanced rounds (significand * 10, e - 1)
    else if e < 0 ∧ significand % 10 = 0 then balanced rounds (significand / 10, e + 1)
    else (significand, e)

/-- The double that the embedded engine reads a numeral as. -/
def databaseValue (n : Numeral) : Binary64 :=
  let (whole, dropped) := gather 0 n.whole
  let fraction := n.fraction.getD []
  let (significand, left) := gather whole fraction
  let power : Int := (dropped.length : Int) - (fraction.length - left.length : Nat)
  let written : Int :=
    match n.exponent with
    | none => 0
    | some (true, digits) => -(databaseExponent digits : Int)
    | some (false, digits) => databaseExponent digits
  let size : Binary64 :=
    if significand = 0 then ⟨0⟩
    else
      let (significand, e) := balanced 20 (significand, power + written)
      if e = 0 then Binary64.ofNat significand
      else ((Extended.ofRatio significand 1).scaled e).toBinary64
  if n.negative then size.negate else size

end Numeral

/-- What the embedded engine reads a finite double as that stands in a document. -/
def Binary64.databaseValue (x : Binary64) : Binary64 :=
  match Numeral.read x.documentText.toList with
  | some (n, _) => n.databaseValue
  | none => x

/-- What the embedded engine reads an integer as, where it reads it as a double. -/
def Binary64.databaseValueOfInt (n : Int) : Binary64 :=
  Numeral.databaseValue
    ⟨n < 0, (Decimal.digitText n.natAbs).map fun c => c.toNat - '0'.toNat, none, none⟩

end TableStore
