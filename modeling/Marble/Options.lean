import Marble.Time

/-! How a scope reads and compares diagrams, and when a timed run begins and ends. -/
namespace Marble

/-- The widths a scope works with, and how long an expectation looks past its last event. -/
structure ScopeOptions where
  unit : UnitOfTime
  grid : TimeGrid
  padding : VirtualTime
deriving DecidableEq

instance : Inhabited ScopeOptions := ⟨default, default, .clamp 1000⟩

/-- When a timed run subscribes, disposes and stops; "never" means it does not. -/
structure RunOptions where
  subscribeAt : VirtualTime := .zero
  disposeAt : VirtualTime := .never
  stopAt : VirtualTime := .never
deriving DecidableEq

end Marble
