import Marble.Frame

/-! Diagrams: a text read against a legend, and the two timelines it compiles to. -/
namespace Marble

variable {α ε φ : Type}

/-- What a frame other than a wait does. -/
inductive Cell (α ε φ : Type) where
  | notify (n : Notification α ε)
  | effect (f : φ)

/-- A text whose every frame has been resolved, with the position of each frame that does
something. -/
structure Diagram (α ε φ : Type) where
  source : String
  legend : Legend α ε φ
  cells : List (Nat × Cell α ε φ)

/-- The notifications and the side effects of a diagram, each in the order of the text. -/
structure Timelines (α ε φ : Type) where
  events : List (Event α ε)
  effects : List (Timed φ)

namespace PositionedFrame

/-- What a frame does under a legend; a wait does nothing. -/
def resolve (legend : Legend α ε φ) (f : PositionedFrame) :
    Except LegendError (Option (Cell α ε φ)) :=
  match f.frame with
  | .wait => .ok none
  | .complete => .ok (some (.notify .completed))
  | .error =>
    match legend.error? with
    | some e => .ok (some (.notify (.error e)))
    | none => .error (.missingError f.column)
  | .emit c =>
    match legend.get? c with
    | none => .error (.unresolvedKey c f.column)
    | some (.value v) => .ok (some (.notify (.next v)))
    | some (.error e) => .ok (some (.notify (.error e)))
    | some (.effect _) => mismatch c .effect .value
  | .effect c =>
    match legend.get? c with
    | none => .error (.unresolvedKey c f.column)
    | some (.effect e) => .ok (some (.effect e))
    | some entry => mismatch c entry.slot .effect
where
  /-- A key put to another use than it is bound for. -/
  mismatch (c : Char) (bound used : Slot) : Except LegendError (Option (Cell α ε φ)) := do
    let key ← LegendKey.parse c
    throw (.slotMismatch key f.column bound used)

end PositionedFrame

namespace Diagram

/-- Resolves frames from left to right; the first that does not resolve decides. -/
def resolveAll (legend : Legend α ε φ) :
    List PositionedFrame → Except LegendError (List (Nat × Cell α ε φ))
  | [] => .ok []
  | f :: rest => do
    let cell ← f.resolve legend
    let cells ← resolveAll legend rest
    return (cell.toList.map fun c => (f.position, c)) ++ cells

/-- Reads a text against a legend. The whole text is cut into frames before any is resolved. -/
def ofText (text : String) (legend : Legend α ε φ) : Except LegendError (Diagram α ε φ) := do
  let frames ← Frame.tokenize text.toList
  let cells ← resolveAll legend frames
  return ⟨text, legend, cells⟩

/-- A diagram that needs no legend. -/
def plain (text : String) : Except LegendError (Diagram α ε φ) := ofText text .empty

/-- The notifications a diagram shows, at their times. -/
def notifications (d : Diagram α ε φ) (unit : UnitOfTime) : List (Event α ε) :=
  d.cells.filterMap fun
    | (position, .notify n) => some ⟨unit.frameStart position, n⟩
    | _ => none

/-- The side effects a diagram shows, at their times. -/
def sideEffects (d : Diagram α ε φ) (unit : UnitOfTime) : List (Timed φ) :=
  d.cells.filterMap fun
    | (position, .effect f) => some ⟨unit.frameStart position, f⟩
    | _ => none

def compile (d : Diagram α ε φ) (unit : UnitOfTime) : Timelines α ε φ :=
  ⟨d.notifications unit, d.sideEffects unit⟩

end Diagram

end Marble
