import TableStore.Number.Binary64

/-!
# Decimal text of floating point numbers

`shortest` finds the fewest decimal digits that read back as a given double, and among those the
ones nearest to it, on the exact quotient of natural numbers that the double is. How digits and
exponent are laid out on the page is a `Layout`: one record for each format that the store writes.
-/

namespace TableStore

/-- The decimal number `digits · 10 ^ exponent`. -/
structure Decimal where
  digits : Nat
  exponent : Int
deriving DecidableEq, Inhabited

namespace Decimal

/-- `num · 10 ^ k / den` for an integer `k`, as a quotient. -/
def shift (num den : Nat) (k : Int) : Nat × Nat :=
  if 0 ≤ k then (num * Nat.pow 10 k.toNat, den) else (num, den * Nat.pow 10 (-k).toNat)

/-- The `k` with `10 ^ (k - 1) ≤ num / den < 10 ^ k`, for a positive quotient. -/
def magnitude (num den : Nat) : Int :=
  let guess := ((num.log2 : Int) - den.log2) * 30103 / 100000
  let below (k : Int) : Bool :=
    let (a, b) := shift num den (-k)
    a < b
  ([guess - 1, guess, guess + 1].find? below).getD (guess + 2)

/-- The numbers that read back as the double `x`: from `low / den` to `high / den`, with both ends
or without them. The double itself is `mid / den`. -/
structure Interval where
  low : Nat
  mid : Nat
  high : Nat
  den : Nat
  closed : Bool

/-- The interval of a positive finite double. It reaches half way to both neighbours; the lower one
is nearer where the significand is the least of its exponent. Its ends belong to it when the
significand is even. -/
def Interval.of (x : Binary64) : Interval :=
  let m := x.significand
  -- counted in quarters of the last place, the middles between neighbours are whole numbers
  let q := x.exponent - 2
  let lower := if m = Nat.pow 2 52 ∧ 1 < x.exponentField then 4 * m - 1 else 4 * m - 2
  let (up, den) := if 0 ≤ q then (Nat.pow 2 q.toNat, 1) else (1, Nat.pow 2 (-q).toNat)
  ⟨lower * up, 4 * m * up, (4 * m + 2) * up, den, m % 2 == 0⟩

/-- Whether `digits · 10 ^ exponent` lies in the interval. -/
def Interval.contains (i : Interval) (d : Decimal) : Bool :=
  let (a, b) := shift d.digits 1 d.exponent
  if i.closed then i.low * b ≤ a * i.den && a * i.den ≤ i.high * b
  else i.low * b < a * i.den && a * i.den < i.high * b

/-- The point of the grid `10 ^ exponent` that lies in the interval and is nearest to its middle,
if there is one; of two equally near ones, the even one. -/
def Interval.nearest? (i : Interval) (exponent : Int) : Option Decimal :=
  let (a, b) := shift i.mid i.den (-exponent)
  let floor : Decimal := ⟨a / b, exponent⟩
  let ceiling : Decimal := ⟨a / b + 1, exponent⟩
  let first := if Binary64.roundDiv a b = a / b then floor else ceiling
  let second := if Binary64.roundDiv a b = a / b then ceiling else floor
  if i.contains first then some first
  else if i.contains second then some second
  else none

/-- The digits without zeros at their end. -/
def trimmed : Nat → Decimal → Decimal
  | 0, d => d
  | fuel + 1, d =>
    if d.digits ≠ 0 ∧ d.digits % 10 = 0 then trimmed fuel ⟨d.digits / 10, d.exponent + 1⟩ else d

/-- The fewest digits that read back as the positive finite double `x`; seventeen always do. -/
def shortest (x : Binary64) : Decimal :=
  let i := Interval.of x
  let k := magnitude i.mid i.den
  let found := (List.range 17).findSome? fun (n : Nat) => i.nearest? (k - 1 - n)
  trimmed 20 (found.getD ⟨0, 0⟩)

/-! ### Layout -/

/-- How a number with given digits is laid out. -/
structure Layout where
  /-- The least position of the point, counted from before the first digit, written without an
  exponent. -/
  leastPoint : Int
  /-- The greatest such position. -/
  greatestPoint : Int
  /-- Whether a single digit in front of an exponent is followed by `.0`. -/
  pointBeforeExponent : Bool
  /-- The least number of digits of the exponent. -/
  exponentWidth : Nat

/-- The decimal digits of a natural number. -/
def digitText (n : Nat) : List Char :=
  Nat.toDigits 10 n

/-- Digits padded on the left with zeros to a width. -/
def padded (width : Nat) (n : Nat) : List Char :=
  let digits := digitText n
  List.replicate (width - digits.length) '0' ++ digits

/-- The text of a positive decimal number in a layout. It always looks like a fraction or has an
exponent. -/
def Layout.text (layout : Layout) (d : Decimal) : List Char :=
  let digits := digitText d.digits
  let point : Int := digits.length + d.exponent
  if layout.leastPoint ≤ point ∧ point ≤ layout.greatestPoint then
    if point ≤ 0 then
      ['0', '.'] ++ List.replicate (-point).toNat '0' ++ digits
    else if 0 ≤ d.exponent then
      digits ++ List.replicate d.exponent.toNat '0' ++ ['.', '0']
    else
      digits.take point.toNat ++ '.' :: digits.drop point.toNat
  else
    let mantissa :=
      match digits with
      | [c] => if layout.pointBeforeExponent then [c, '.', '0'] else [c]
      | c :: rest => c :: '.' :: rest
      | [] => []
    let e := point - 1
    let sign := if e < 0 then '-' else '+'
    mantissa ++ ['e', sign] ++ padded layout.exponentWidth e.natAbs

/-- Numbers in a document: plain digits from `1e-5` up to below `1e16`. -/
def documentLayout : Layout :=
  ⟨-4, 16, false, 1⟩

end Decimal

namespace Binary64

/-- The text of a finite double in a document: the fewest digits that read back, with the sign of
zero kept. -/
def documentText (x : Binary64) : String :=
  let sign := if x.isNegative then ['-'] else []
  let size :=
    if x.isZero then ['0', '.', '0'] else Decimal.documentLayout.text (Decimal.shortest x)
  String.ofList (sign ++ size)

end Binary64
end TableStore
