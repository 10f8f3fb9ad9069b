/-! The shortest decimal that reads back as a given binary number, by exact arithmetic. -/
namespace Marble.Decimal

/-- `digits · 10 ^ exponent`. -/
structure Scaled where
  digits : Nat
  exponent : Int

/-- The binary number `mantissa · 2 ^ exponent`; on a step its lower neighbour is half as far
away. -/
structure Binary where
  mantissa : Nat
  exponent : Int
  onStep : Bool

/-- The numbers that round to a binary one: `low … high` around `exact`, all over one denominator.
The ends belong to it when the mantissa is even. -/
structure Interval where
  low : Nat
  exact : Nat
  high : Nat
  denominator : Nat
  closed : Bool

namespace Binary

/-- Quarters of a unit in the last place keep the ends whole. -/
def interval (b : Binary) : Interval :=
  let up := Nat.pow 2 (b.exponent - 2).toNat
  { low := (4 * b.mantissa - if b.onStep then 1 else 2) * up
    exact := 4 * b.mantissa * up
    high := (4 * b.mantissa + 2) * up
    denominator := Nat.pow 2 (2 - b.exponent).toNat
    closed := b.mantissa % 2 == 0 }

end Binary

namespace Interval

/-- The interval counted in units of `10 ^ e`. -/
def inUnits (i : Interval) (e : Int) : Interval :=
  let up := Nat.pow 10 (-e).toNat
  { low := i.low * up
    exact := i.exact * up
    high := i.high * up
    denominator := i.denominator * Nat.pow 10 e.toNat
    closed := i.closed }

def contains (i : Interval) (n : Nat) : Bool :=
  let x := n * i.denominator
  if i.closed then i.low ≤ x && x ≤ i.high else i.low < x && x < i.high

/-- Of the two whole numbers around the exact one, the nearer that lies in the interval; a tie goes
up. -/
def nearest? (i : Interval) : Option Nat :=
  let below := i.exact / i.denominator
  let above := below + 1
  if i.contains below then
    if i.contains above && i.denominator ≤ 2 * (i.exact % i.denominator) then some above
    else some below
  else if i.contains above then some above
  else none

/-- How many digits the exact number has before the point; none or fewer for small fractions. -/
def magnitude (i : Interval) : Int :=
  if i.denominator ≤ i.exact then (Nat.toDigits 10 (i.exact / i.denominator)).length
  else
    let zeros := (Nat.toDigits 10 (i.denominator / i.exact)).length
    if i.denominator ≤ i.exact * Nat.pow 10 (zeros - 1) then 2 - zeros else 1 - zeros

/-- Tries `count` digits, then one more at a time. -/
def shortestFrom (i : Interval) (count : Nat) : Nat → Scaled
  | 0 => ⟨i.exact / i.denominator, 0⟩
  | tries + 1 =>
    let e := i.magnitude - count
    match (i.inUnits e).nearest? with
    | some d => ⟨d, e⟩
    | none => i.shortestFrom (count + 1) tries

end Interval

namespace Scaled

/-- Drops the zeros at the end of the digits, at most `fuel` of them. -/
def strip (s : Scaled) : Nat → Scaled
  | 0 => s
  | fuel + 1 =>
    if s.digits % 10 = 0 ∧ s.digits ≠ 0 then strip ⟨s.digits / 10, s.exponent + 1⟩ fuel else s

end Scaled

/-- Seventeen digits suffice for every binary number of 53 bits. -/
def shortest (b : Binary) : Scaled := (b.interval.shortestFrom 1 17).strip 20

end Marble.Decimal
