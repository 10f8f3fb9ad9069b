import Marble.Comparer
import Marble.Decimal.FloatText

/-! The values sequences are tested with: their texts, their JSON forms, and comparers for them. -/
namespace Marble

variable {α β : Type}

instance : Shown Int64 := ⟨fun n => toString n.toInt⟩
instance : Shown String := ⟨Text.quotedString⟩
instance : Shown Char := ⟨Text.quotedChar⟩
instance : Shown Float := ⟨Decimal.floatText⟩
instance [Shown α] [Shown β] : Shown (α × β) :=
  ⟨fun p => "(" ++ text p.1 ++ ", " ++ text p.2 ++ ")"⟩
instance [Shown α] : Shown (List α) := ⟨fun xs => "[" ++ ", ".intercalate (xs.map text) ++ "]"⟩

/-- A map whose keys are pairs, as its entries in the order of the keys. -/
structure PairMap where
  entries : List ((Int64 × Int64) × Int64)
deriving BEq

namespace PairMap

/-- Puts an entry in its place; a key that is there already takes the new value. -/
def insert (key : Int64 × Int64) (value : Int64) :
    List ((Int64 × Int64) × Int64) → List ((Int64 × Int64) × Int64)
  | [] => [(key, value)]
  | (k, v) :: rest =>
    if key = k then (key, value) :: rest
    else if key.1 < k.1 ∨ key.1 = k.1 ∧ key.2 < k.2 then (key, value) :: (k, v) :: rest
    else (k, v) :: insert key value rest

/-- A later entry replaces an earlier one under its key. -/
def ofList (entries : List ((Int64 × Int64) × Int64)) : PairMap :=
  ⟨entries.foldl (fun m e => insert e.1 e.2 m) []⟩

end PairMap

instance : Shown PairMap where
  text m :=
    "\x7b" ++ ", ".intercalate (m.entries.map fun e => text e.1 ++ ": " ++ text e.2) ++ "\x7d"

instance : Encode Char := ⟨fun c => .ok (.string c.toString)⟩
instance [Encode α] : Encode (List α) := ⟨fun xs => return .array (← xs.mapM encode)⟩

/-- A number that is not finite has no digits, and `null` stands for it. -/
instance : Encode Float := ⟨fun x => .ok (if x.isFinite then .float x else .null)⟩

/-- The keys of an object are strings, so only the map without keys is one. -/
instance : Encode PairMap where
  encode m := if m.entries.isEmpty then .ok (.object []) else .error "key must be a string"

namespace Comparer

/-- Equality up to the sign. -/
def byMagnitude : Comparer Int64 := ofFunction fun e a => e.toInt.natAbs == a.toInt.natAbs

/-- Whether the actual number reaches the expected one. -/
def atLeast : Comparer Int64 := ofFunction fun e a => e ≤ a

/-- Equality of texts up to the case of ASCII letters. -/
def ignoringCase : Comparer String :=
  ofFunction fun e a => e.toList.map Char.toLower == a.toList.map Char.toLower

/-- Whether two numbers are closer than a billionth. -/
def close : Comparer Float := ofFunction fun e a => (e - a).abs < 1e-9

/-- Equality of numbers that cannot decide about thirteen. -/
def refusingThirteen : Comparer Int64 := refusing 13

end Comparer

end Marble
