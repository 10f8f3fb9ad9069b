import Marble.Error
import Marble.Json.Domain

/-! Comparers: pluggable equality of an expected and an actual value, which may fail to decide. -/
namespace Marble

variable {α : Type}

/-- A question about an expected and an actual value, in this order. -/
abbrev Compare (α : Type) := α → α → Except ComparerError Bool

/-- A comparison with the name it is shown by. -/
structure Comparer (α : Type) where
  name : String
  compare : Compare α

namespace Compare

/-- Equality of the values themselves. -/
def structural [BEq α] : Compare α := fun expected actual => .ok (expected == actual)

/-- Equality of the JSON forms; a value without one cannot be compared. -/
def serialized [Encode α] : Compare α := fun expected actual =>
  match encode expected, encode actual with
  | .ok e, .ok a => .ok (e == a)
  | .error reason, _ => .error (.unserializable reason)
  | .ok _, .error reason => .error (.unserializable reason)

/-- In step through both lists; the first pair that is not equal decides, then the lengths. -/
def elementWise (inner : Compare α) : Compare (List α)
  | [], [] => .ok true
  | e :: expected, a :: actual => do
    if ← inner e a then elementWise inner expected actual else return false
  | _, _ => .ok false

end Compare

namespace Comparer

def structural [BEq α] : Comparer α := ⟨"StructuralEq", .structural⟩

def serialized [Encode α] : Comparer α := ⟨"SerializedEq", .serialized⟩

/-- A comparison that always decides. -/
def ofFunction (f : α → α → Bool) : Comparer α := ⟨"FnComparer", fun e a => .ok (f e a)⟩

def elementWise (inner : Comparer α) : Comparer (List α) :=
  ⟨"ElementWise(" ++ inner.name ++ ")", .elementWise inner.compare⟩

/-- Equality that cannot decide about one expected value. -/
def refusing [BEq α] [Shown α] (refused : α) : Comparer α where
  name := "Failing(" ++ text refused ++ ")"
  compare expected actual :=
    if expected == refused then
      .error (.undecided ("cannot compare " ++ text expected ++ " with " ++ text actual))
    else .ok (expected == actual)

end Comparer

end Marble
