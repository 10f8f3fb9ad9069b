import Marble.Decimal.Shortest

/-! The text of a floating-point number: shortest digits, positional unless very large or very
small. -/
namespace Marble.Decimal

/-- The exponents written out in place are those from `lowest` to below `highest`. -/
structure Layout where
  lowest : Int
  highest : Int

/-- From a ten-thousandth to below ten quadrillion. -/
def layout : Layout := ⟨-4, 16⟩

/-- A finite number other than zero, without its sign. -/
def ofBits (bits : Nat) : Binary :=
  let hidden : Nat := Nat.pow 2 52
  let fraction : Nat := bits % hidden
  let biased : Nat := bits / hidden % 2048
  if biased = 0 then ⟨fraction, -1074, false⟩
  else ⟨hidden + fraction, Int.ofNat biased - 1075, fraction == 0 && biased != 1⟩

namespace Scaled

/-- The digits with the point in its place; a whole number ends in one zero place. -/
def positional (s : Scaled) : List Char :=
  let ds := Nat.toDigits 10 s.digits
  if 0 ≤ s.exponent then ds ++ List.replicate s.exponent.toNat '0' ++ ['.', '0']
  else
    let places := (-s.exponent).toNat
    let padded := List.replicate (places + 1 - ds.length) '0' ++ ds
    padded.take (padded.length - places) ++ '.' :: padded.drop (padded.length - places)

/-- One digit before the point, and the power of ten behind. -/
def scientific (s : Scaled) : List Char :=
  let ds := Nat.toDigits 10 s.digits
  let power := s.exponent + (ds.length - 1)
  ds.take 1 ++ (if ds.length = 1 then [] else '.' :: ds.drop 1) ++ 'e' :: (toString power).toList

def text (s : Scaled) : List Char :=
  let power := s.exponent + ((Nat.toDigits 10 s.digits).length - 1)
  if layout.lowest ≤ power ∧ power < layout.highest then s.positional else s.scientific

end Scaled

def floatText (x : Float) : String :=
  let bits := x.toBits.toNat
  let signBit : Nat := Nat.pow 2 63
  let sign := if bits / signBit = 1 then ['-'] else []
  let magnitude := bits % signBit
  if x.isNaN then "NaN"
  else if magnitude = 0 then .ofList (sign ++ ['0', '.', '0'])
  else if x.isInf then .ofList (sign ++ ['i', 'n', 'f'])
  else .ofList (sign ++ (shortest (ofBits magnitude)).text)

end Marble.Decimal
