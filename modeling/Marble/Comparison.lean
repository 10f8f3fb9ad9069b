import Marble.Comparer

/-! What happened against what should have happened: the first difference, and every difference. -/
namespace Marble

variable {α ε φ : Type}

/-- Two events agree when they lie in one cell of the grid and their notifications agree. -/
def Timed.agrees [BEq ε] (compare : Compare α) (grid : TimeGrid) (expected actual : Event α ε) :
    Except ComparerError Bool :=
  if expected.time.truncate grid ≠ actual.time.truncate grid then .ok false
  else
    match expected.value, actual.value with
    | .next e, .next a => compare e a
    | .error e, .error a => .ok (e == a)
    | .completed, .completed => .ok true
    | _, _ => .ok false

/-- Looks for the first pair that does not agree; the pairs are counted from `index`. -/
def checkPairs [BEq ε] [Shown α] [Shown ε] (compare : Compare α) (grid : TimeGrid) (index : Nat) :
    List (Event α ε) → List (Event α ε) → Except Error Unit
  | e :: expected, a :: actual =>
    match e.agrees compare grid a with
    | .error cause => .error (.comparer cause)
    | .ok false => .error (.eventMismatch index (text e) (text a))
    | .ok true => checkPairs compare grid (index + 1) expected actual
  | _, _ => .ok ()

/-- Fails on the first difference; a difference in length comes before all others. -/
def checkEvents [BEq ε] [Shown α] [Shown ε] (compare : Compare α) (grid : TimeGrid)
    (actual expected : List (Event α ε)) : Except Error Unit :=
  if actual.length ≠ expected.length then .error (.countMismatch expected.length actual.length)
  else checkPairs compare grid 0 expected actual

/-- A place where two timelines differ; the side that has ended shows nothing. -/
structure Mismatch where
  index : Nat
  expected : Option String
  actual : Option String
deriving DecidableEq

namespace Mismatch

def text (m : Mismatch) : String :=
  "#" ++ toString m.index ++ ": expected " ++ m.expected.getD "<none>" ++ ", actual " ++
    m.actual.getD "<none>"

end Mismatch

/-- Every place where two timelines differ, counted from `index`. -/
def mismatchesFrom [BEq ε] [Shown α] [Shown ε] (compare : Compare α) (grid : TimeGrid)
    (index : Nat) : List (Event α ε) → List (Event α ε) → Except ComparerError (List Mismatch)
  | [], actual => .ok ((actual.zipIdx index).map fun (a, i) => ⟨i, none, some (text a)⟩)
  | e :: expected, [] =>
    .ok (((e :: expected).zipIdx index).map fun (e, i) => ⟨i, some (text e), none⟩)
  | e :: expected, a :: actual => do
    let same ← e.agrees compare grid a
    let rest ← mismatchesFrom compare grid (index + 1) expected actual
    return if same then rest else ⟨index, some (text e), some (text a)⟩ :: rest

def mismatches [BEq ε] [Shown α] [Shown ε] (compare : Compare α) (grid : TimeGrid)
    (actual expected : List (Event α ε)) : Except ComparerError (List Mismatch) :=
  mismatchesFrom compare grid 0 expected actual

/-- How an effect at an instant is shown. -/
def effectText (t : VirtualTime) : String := Text.quotedString "effect" ++ "@" ++ t.text

/-- Looks for the first instant that lies in another cell than expected. -/
def checkInstants (grid : TimeGrid) (index : Nat) :
    List VirtualTime → List VirtualTime → Except Error Unit
  | e :: expected, a :: actual =>
    if e.truncate grid ≠ a.truncate grid then
      .error (.eventMismatch index (effectText e) (effectText a))
    else checkInstants grid (index + 1) expected actual
  | _, _ => .ok ()

/-- Compares the instants at which something was invoked with those of a timeline of effects. -/
def checkEffects (grid : TimeGrid) (invocations : List VirtualTime) (expected : List (Timed φ)) :
    Except Error Unit :=
  if invocations.length ≠ expected.length then
    .error (.countMismatch expected.length invocations.length)
  else checkInstants grid 0 (expected.map (·.time)) invocations

end Marble
