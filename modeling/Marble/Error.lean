import Marble.Legend

/-! What can go wrong while a test is set up, driven and judged, and the words for it. -/
namespace Marble

/-- Scopes are numbered from one in the order they begin. -/
structure ScopeId where
  number : Nat
deriving DecidableEq

namespace ScopeId

def text (s : ScopeId) : String := s!"scope-{s.number}"

end ScopeId

/-- Why a comparer could not decide. -/
inductive ComparerError where
  | undecided (message : String)
  | unserializable (reason : String)
deriving DecidableEq

namespace ComparerError

def message : ComparerError → String
  | .undecided message => message
  | .unserializable reason => "could not serialize value for comparison: " ++ reason

/-- The error behind an error. -/
def source? : ComparerError → Option String
  | .undecided _ => none
  | .unserializable reason => some reason

end ComparerError

/-- Why an operation failed. -/
inductive Error where
  | invalidSetting (setting reason : String)
  | malformedLegend (cause : LegendError)
  | noActiveScope
  | unbalancedScope (attempted innermost : ScopeId)
  | scopeClosed (scope : ScopeId)
  | countMismatch (expected actual : Nat)
  | eventMismatch (index : Nat) (expected actual : String)
  | comparer (cause : ComparerError)
deriving DecidableEq

namespace Error

def message : Error → String
  | .invalidSetting setting reason => s!"Invalid setting: {setting}: {reason}"
  | .malformedLegend cause => "Malformed legend: " ++ cause.message
  | .noActiveScope => "No test scheduler scope is active on this thread"
  | .unbalancedScope attempted innermost =>
    s!"Cannot end {attempted.text} while {innermost.text} is still active"
  | .scopeClosed scope => s!"{scope.text} is no longer accepting assertions"
  | .countMismatch expected actual =>
    s!"Expected {expected} notifications but {actual} were recorded"
  | .eventMismatch index expected actual =>
    s!"Notification at index {index} differs: expected {expected}, actual {actual}"
  | .comparer cause => cause.message

/-- Whether a test failed, as opposed to having been set up wrongly. -/
def isFailure : Error → Bool
  | .countMismatch .. => true
  | .eventMismatch .. => true
  | _ => false

/-- Whether an outcome is the failure of a test. -/
def isFailed {ρ : Type} : Except Error ρ → Bool
  | .ok _ => false
  | .error e => e.isFailure

end Error

end Marble
