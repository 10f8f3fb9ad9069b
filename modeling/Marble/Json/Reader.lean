import Marble.Decimal.Digits
import Marble.Json.Basic

/-! Reading JSON text. -/
namespace Marble.Json

namespace Reader

def skip (cs : List Char) : List Char := cs.dropWhile fun c => c ∈ [' ', '\t', '\n', '\r']

/-! ## Strings -/

/-- A unit of 16 bits by its four hexadecimal digits. -/
def unit? (a b c d : Char) : Option Nat := do
  let digits ← [a, b, c, d].mapM Decimal.hexDigit?
  return digits.foldl (fun n d => 16 * n + d) 0

def escaped? : Char → Option Char
  | 'b' => some '\x08'
  | 'f' => some '\x0c'
  | 'n' => some '\n'
  | 'r' => some '\r'
  | 't' => some '\t'
  | c => if c ∈ ['"', '\\', '/'] then some c else none

/-- The characters of a string up to its closing quote. A character beyond the first plane is a pair
of units, and no half of such a pair stands alone. -/
def characters : List Char → Option (List Char × List Char)
  | [] => none
  | '"' :: rest => some ([], rest)
  | '\\' :: 'u' :: a :: b :: c :: d :: rest => do
    let high ← unit? a b c d
    if 0xd800 ≤ high ∧ high < 0xdc00 then
      match rest with
      | '\\' :: 'u' :: a :: b :: c :: d :: rest => do
        let low ← unit? a b c d
        if 0xdc00 ≤ low ∧ low < 0xe000 then
          let (cs, rest) ← characters rest
          return (.ofNat (0x10000 + 0x400 * (high - 0xd800) + (low - 0xdc00)) :: cs, rest)
        else none
      | _ => none
    else if high.isValidChar then
      let (cs, rest) ← characters rest
      return (.ofNat high :: cs, rest)
    else none
  | '\\' :: c :: rest => do
    let c ← escaped? c
    let (cs, rest) ← characters rest
    return (c :: cs, rest)
  | c :: rest => do
    if c = '\\' ∨ c.toNat < 0x20 then none
    else
      let (cs, rest) ← characters rest
      return (c :: cs, rest)

/-! ## Numbers -/

def maxWord : Nat := 18446744073709551615

/-- Appends digits to a number while it fits 64 bits, and counts those that are left. -/
def absorb (n : Nat) : List Char → Nat × Nat
  | [] => (n, 0)
  | c :: rest =>
    let next := 10 * n + Decimal.digit c
    if next ≤ maxWord then absorb next rest else (n, rest.length + 1)

/-- The greatest power of ten by which a number is scaled at once. -/
def maxPower : Nat := 308

def divide (x : Float) (power : Nat) : Float :=
  if power ≤ maxPower then x / .ofScientific 1 false power
  else if x == 0 then x
  else divide (x / .ofScientific 1 false maxPower) (power - maxPower)
termination_by power
decreasing_by simp only [maxPower] at *; omega

/-- A number times a power of ten, in floating point; none if that is too great. -/
def scale? (x : Float) (power : Int) : Option Float :=
  if power < 0 then some (divide x power.natAbs)
  else if power ≤ maxPower then
    let y := x * .ofScientific 1 false power.toNat
    if y.isFinite then some y else none
  else if x == 0 then some x
  else none

/-- The value of a number: whole if it is written so, is not a negative zero, and fits 64 bits. -/
def number? (negative : Bool) (whole : List Char) (fraction : Option (List Char))
    (power : Option Int) : Option Json :=
  let (n, left) := absorb 0 whole
  let isWhole := fraction = none && power = none && left = 0 &&
    (!negative || (0 < n && n ≤ 9223372036854775808))
  if isWhole then some (.int (if negative then -(n : Int) else n))
  else do
    let digits := fraction.getD []
    let (n, rest) := absorb n digits
    let x ← scale? n.toUInt64.toFloat (power.getD 0 + left + rest - digits.length)
    return .float (if negative then -x else x)

def sign : List Char → Bool × List Char
  | '-' :: rest => (true, rest)
  | '+' :: rest => (false, rest)
  | cs => (false, cs)

/-- Digits and what follows them, if there are any. -/
def digits? (cs : List Char) : Option (List Char × List Char) :=
  let digits := cs.takeWhile Char.isDigit
  if digits = [] then none else some (digits, cs.dropWhile Char.isDigit)

def fraction? : List Char → Option (Option (List Char) × List Char)
  | '.' :: rest => do
    let (digits, rest) ← digits? rest
    return (some digits, rest)
  | cs => some (none, cs)

def power? : List Char → Option (Option Int × List Char)
  | 'e' :: rest | 'E' :: rest => do
    let (negative, rest) := sign rest
    let (digits, rest) ← digits? rest
    let n : Int := Decimal.ofDigits digits
    return (some (if negative then -n else n), rest)
  | cs => some (none, cs)

/-- A number; before the point a zero in front is not followed by digits. -/
def number (cs : List Char) : Option (Json × List Char) := do
  let (negative, rest) := match cs with
    | '-' :: rest => (true, rest)
    | cs => (false, cs)
  let (whole, rest) ← digits? rest
  if whole.head? = some '0' ∧ whole.length ≠ 1 then none
  else
    let (fraction, rest) ← fraction? rest
    let (power, rest) ← power? rest
    return (← number? negative whole fraction power, rest)

/-! ## Values -/

mutual
/-- A value and what follows it. -/
def value : Nat → List Char → Option (Json × List Char)
  | 0, _ => none
  | fuel + 1, cs =>
    match skip cs with
    | 'n' :: 'u' :: 'l' :: 'l' :: rest => some (.null, rest)
    | 't' :: 'r' :: 'u' :: 'e' :: rest => some (.bool true, rest)
    | 'f' :: 'a' :: 'l' :: 's' :: 'e' :: rest => some (.bool false, rest)
    | '"' :: rest => (characters rest).map fun (cs, rest) => (.string (.ofList cs), rest)
    | '[' :: rest =>
      match skip rest with
      | ']' :: rest => some (.array [], rest)
      | rest => (items fuel rest).map fun (items, rest) => (.array items, rest)
    | '\x7b' :: rest =>
      match skip rest with
      | '\x7d' :: rest => some (.object [], rest)
      | rest => (fields fuel [] rest).map fun (fields, rest) => (.object fields, rest)
    | cs => number cs

/-- The items of an array, at least one, and its closing bracket. -/
def items : Nat → List Char → Option (List Json × List Char)
  | 0, _ => none
  | fuel + 1, cs => do
    let (item, rest) ← value fuel cs
    match skip rest with
    | ']' :: rest => return ([item], rest)
    | ',' :: rest => do
      let (others, rest) ← items fuel rest
      return (item :: others, rest)
    | _ => none

/-- The fields of an object, at least one, and its closing brace; of two with one name the later
one counts. -/
def fields : Nat → List (String × Json) → List Char → Option (List (String × Json) × List Char)
  | 0, _, _ => none
  | fuel + 1, read, cs =>
    match skip cs with
    | '"' :: rest => do
      let (name, rest) ← characters rest
      match skip rest with
      | ':' :: rest => do
        let (content, rest) ← value fuel rest
        let read := putField (.ofList name) content read
        match skip rest with
        | '\x7d' :: rest => return (read, rest)
        | ',' :: rest => fields fuel read rest
        | _ => none
      | _ => none
    | _ => none
end

end Reader

/-- The value that a text holds and nothing else; each bracket takes two layers of reading. -/
def ofText? (s : String) : Option Json :=
  let cs := s.toList
  match Reader.value (2 * cs.length + 1) cs with
  | some (j, rest) => if Reader.skip rest = [] then some j else none
  | none => none

end Marble.Json
