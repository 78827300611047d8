/-!
# Binary floating point numbers

A double is its 64 bits. Everything about it is exact arithmetic on natural numbers: a finite one is
`± m · 2 ^ q` (`significand`, `exponent`), and `Binary64.ofRatio` is the double nearest to a
quotient, ties going to the even significand. Products and quotients of doubles are the exact ones,
rounded once.
-/

namespace TableStore

/-- A double, by its bits. -/
structure Binary64 where
  bits : UInt64
deriving DecidableEq, Inhabited

namespace Binary64

/-- Whether the sign bit is set. -/
def isNegative (x : Binary64) : Bool :=
  Nat.pow 2 63 ≤ x.bits.toNat

/-- The eleven bits of the exponent. -/
def exponentField (x : Binary64) : Nat :=
  x.bits.toNat / Nat.pow 2 52 % Nat.pow 2 11

/-- The fifty-two bits of the fraction. -/
def fractionField (x : Binary64) : Nat :=
  x.bits.toNat % Nat.pow 2 52

def isFinite (x : Binary64) : Bool :=
  x.exponentField != 2047

def isInfinite (x : Binary64) : Bool :=
  x.exponentField == 2047 && x.fractionField == 0

/-- The `m` of `± m · 2 ^ q`, for a finite number. -/
def significand (x : Binary64) : Nat :=
  if x.exponentField = 0 then x.fractionField else Nat.pow 2 52 + x.fractionField

/-- The `q` of `± m · 2 ^ q`, for a finite number. -/
def exponent (x : Binary64) : Int :=
  (max x.exponentField 1 : Nat) - 1075

/-- Whether the number is zero, of either sign. -/
def isZero (x : Binary64) : Bool :=
  x.bits.toNat % Nat.pow 2 63 == 0

/-- The number with the other sign. -/
def negate (x : Binary64) : Binary64 :=
  ⟨x.bits ^^^ 0x8000000000000000⟩

/-- The positive infinity. -/
def infinity : Binary64 :=
  ⟨0x7ff0000000000000⟩

/-- What is no number. -/
def nan : Binary64 :=
  ⟨0x7ff8000000000000⟩

/-- The quotient rounded to an integer; a half goes to the even one. -/
def roundDiv (num den : Nat) : Nat :=
  let quotient := num / den
  let twice := 2 * (num % den)
  if den < twice || (den == twice && quotient % 2 == 1) then quotient + 1 else quotient

/-- The quotient `num / (den · 2 ^ q)` rounded to an integer. -/
def roundScaled (num den : Nat) (q : Int) : Nat :=
  if 0 ≤ q then roundDiv num (den * Nat.pow 2 q.toNat)
  else roundDiv (num * Nat.pow 2 (-q).toNat) den

/-- The exponent at which the positive quotient `num / den` has so many significant bits. -/
def exponentFor (bits num den : Nat) : Int :=
  -- the logarithms are rounded down, so the guess can be one too low, but never too high
  let guess : Int := (num.log2 : Int) - den.log2 - bits
  let atMost : Bool :=
    if 0 ≤ guess then num < den * Nat.pow 2 guess.toNat * Nat.pow 2 bits
    else num * Nat.pow 2 (-guess).toNat < den * Nat.pow 2 bits
  if atMost then guess else guess + 1

/-- The double nearest to the quotient `num / den`; beyond the largest one, the infinity. -/
def ofRatio (num den : Nat) : Binary64 :=
  if num = 0 then ⟨0⟩
  else
    let q := max (exponentFor 53 num den) (-1074)
    let m := roundScaled num den q
    -- the leading bit of `m` adds the one that the exponent field lacks, and where `m` has been
    -- rounded up to the next power of two, this carries into the field
    let bits := (q + 1074).toNat * Nat.pow 2 52 + m
    if bits < 0x7ff0000000000000 then ⟨UInt64.ofNat bits⟩ else infinity

/-- The double nearest to a natural number. -/
def ofNat (n : Nat) : Binary64 :=
  ofRatio n 1

/-- The double nearest to an integer. -/
def ofInt (n : Int) : Binary64 :=
  if n < 0 then (ofNat n.natAbs).negate else ofNat n.natAbs

/-- The absolute value of a finite number as a quotient of natural numbers. -/
def ratio (x : Binary64) : Nat × Nat :=
  let q := x.exponent
  if 0 ≤ q then (x.significand * Nat.pow 2 q.toNat, 1) else (x.significand, Nat.pow 2 (-q).toNat)

/-- The product of two finite numbers that are not negative. -/
def product (x y : Binary64) : Binary64 :=
  let (a, b) := x.ratio
  let (c, d) := y.ratio
  ofRatio (a * c) (b * d)

/-- The quotient of two finite numbers that are not negative, the second one not zero. -/
def quotient (x y : Binary64) : Binary64 :=
  let (a, b) := x.ratio
  let (c, d) := y.ratio
  ofRatio (a * d) (b * c)

/-- The single-precision number nearest to a finite double, widened again; beyond the largest one,
the infinity. -/
def narrowed (x : Binary64) : Binary64 :=
  let (num, den) := x.ratio
  let size : Binary64 :=
    if num = 0 then ⟨0⟩
    else
      let q := max (exponentFor 24 num den) (-149)
      let m := roundScaled num den q
      let (a, b) : Nat × Nat :=
        if 0 ≤ q then (m * Nat.pow 2 q.toNat, 1) else (m, Nat.pow 2 (-q).toNat)
      if Nat.pow 2 128 * b ≤ a then infinity else ofRatio a b
  if x.isNegative then size.negate else size

/-- A finite number as a quotient of an integer by a positive number. -/
def signedRatio (x : Binary64) : Int × Nat :=
  let (num, den) := x.ratio
  (if x.isNegative then -(num : Int) else num, den)

/-- The order of two numbers as reals; the two zeros are equal, and an infinity counts as
`2 ^ 1024`. -/
def compare (x y : Binary64) : Ordering :=
  let (a, b) := x.signedRatio
  let (c, d) := y.signedRatio
  Ord.compare (a * d) (c * b)

/-- The order of a number and an integer as reals. -/
def compareInt (x : Binary64) (n : Int) : Ordering :=
  let (a, b) := x.signedRatio
  Ord.compare a (n * b)

end Binary64
end TableStore
