import TypeProjection.Text.Digits

/-!
# Decimal numbers

A decimal number is a natural number times a power of ten. Double precision has a largest number:
what lies at least half a step above it has no finite neighbour and is out of range. Whether that is
found depends on how a number is rounded: once, or factor by factor.
-/

namespace TypeProjection

/-- The absolute value of a decimal number. -/
structure Decimal where
  significand : Nat
  exponent : Int
deriving DecidableEq, Repr

namespace Decimal

/-- The least number that double precision rounds to infinity: half a step above its largest. -/
def doubleLimit : Nat := (Nat.pow 2 54 - 1) * Nat.pow 2 970

/-- Whether double precision rounds the number to infinity. The number of digits settles all but a
few cases, so no large power is computed. -/
def overflowsDouble (d : Decimal) : Bool :=
  let magnitude : Int := (Nat.toDigits 10 d.significand).length + d.exponent
  if d.significand = 0 ∨ magnitude < 300 then false
  else if 320 < magnitude then true
  else if 0 ≤ d.exponent then decide (doubleLimit ≤ d.significand * Nat.pow 10 d.exponent.toNat)
  else decide (doubleLimit * Nat.pow 10 (-d.exponent).toNat ≤ d.significand)

/-- The natural number of double precision that is nearest to the given one. Of two that are equally
near, the one with an even last bit is taken. -/
def nearestDouble (n : Nat) : Nat :=
  let unit := Nat.pow 2 (n.log2 - 52)
  let steps := n / unit
  let rest := n % unit
  let up := unit < 2 * rest || (unit == 2 * rest && steps % 2 == 1)
  (if up then steps + 1 else steps) * unit

def largestPower : Nat := 308

/-- Whether double precision overflows when the significand and the power of ten are each rounded
before they are multiplied. A division never overflows. -/
def factorsOverflowDouble (d : Decimal) : Bool :=
  if d.significand = 0 ∨ d.exponent < 0 then false
  else if (largestPower : Int) < d.exponent then true
  else
    decide (doubleLimit ≤
      nearestDouble d.significand * nearestDouble (Nat.pow 10 d.exponent.toNat))

/-- The number written with the given digits before and after the point, and an exponent. -/
def ofDigits (whole fraction : List Char) (exponent : Int) : Decimal :=
  ⟨Digits.number 10 (whole ++ fraction), exponent - fraction.length⟩

/-- Adds digits to a number as long as it fits into 64 bits. Gives the number and the digits that
are left. -/
def gather (n : Nat) : List Char → Nat × List Char
  | [] => (n, [])
  | c :: rest =>
    let next := 10 * n + (Digits.value? c).getD 0
    if next < 2 ^ 64 then gather next rest else (n, c :: rest)

/-- The number written with the given digits, as far as its significand fits into 64 bits. Digits
that are left before the point still count in the exponent. -/
def ofLeadingDigits (whole fraction : List Char) (exponent : Int) : Decimal :=
  let (n, wholeLeft) := gather 0 whole
  let (n, fractionLeft) := gather n fraction
  ⟨n, exponent + wholeLeft.length - (fraction.length - fractionLeft.length : Nat)⟩

end Decimal

end TypeProjection
