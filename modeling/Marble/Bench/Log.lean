import Marble.Bench.Objects
import Marble.Comparison

/-! The log of a bench: what client code was told, what the bench reports about itself, and
answers. -/
namespace Marble

variable {α : Type}

/-- How much a report matters. -/
inductive Level where
  | trace
  | debug
  | warn
  | error
deriving DecidableEq

namespace Level

def text : Level → String
  | .trace => "TRACE"
  | .debug => "DEBUG"
  | .warn => "WARN"
  | .error => "ERROR"

def rank : Level → Nat
  | .trace => 0
  | .debug => 1
  | .warn => 2
  | .error => 3

end Level

/-- What a bench reports about its own work. -/
inductive Report where
  | resolved (diagram : String) (frames : Nat)
  | dispatching (clock : ClockRef) (due : VirtualTime) (sequence : Nat)
  | scopeStarted (scope : ScopeId) (depth : Nat)
  | assertionRegistered (scope : ScopeId) (horizon : VirtualTime)
  | effectsScheduled (scope : ScopeId) (count : Nat)
  | advancing (scope : ScopeId) (horizon : VirtualTime)
  | mismatched (scope : ScopeId) (diagram : String) (mismatch : Mismatch)
  | assertionFailed (scope : ScopeId) (index : Nat) (cause : Error)
  | scopeFailed (scope : ScopeId) (failures total : Nat)
  | scopeEnded (scope : ScopeId) (total : Nat)
  | abandonedOutOfOrder (scope : ScopeId) (pending : Nat)
  | abandonedInPanic (scope : ScopeId) (pending : Nat)

namespace Report

def level : Report → Level
  | .resolved .. | .dispatching .. => .trace
  | .scopeStarted .. | .assertionRegistered .. | .effectsScheduled .. | .advancing ..
  | .scopeEnded .. => .debug
  | .mismatched .. | .assertionFailed .. | .abandonedOutOfOrder .. | .abandonedInPanic .. => .warn
  | .scopeFailed .. => .error

def message : Report → String
  | .resolved .. => "resolved marble diagram"
  | .dispatching .. => "dispatching virtual action"
  | .scopeStarted .. => "Test scope started"
  | .assertionRegistered .. => "Assertion registered"
  | .effectsScheduled .. => "Side effects scheduled from diagram"
  | .advancing .. => "Advancing clock and running pending assertions"
  | .mismatched .. => "Timeline mismatch"
  | .assertionFailed .. => "Assertion failed"
  | .scopeFailed .. => "Test scope ended with failing assertions"
  | .scopeEnded .. => "Test scope ended"
  | .abandonedOutOfOrder .. =>
    "Test scope ended while a later scope was active; pending assertions discarded"
  | .abandonedInPanic .. => "Test scope dropped while panicking; pending assertions discarded"

/-- The particulars of a report, by name. -/
def fields : Report → List (String × String)
  | .resolved diagram frames => [("diagram", diagram), ("frames", toString frames)]
  | .dispatching _ due sequence => [("due", due.text), ("sequence", toString sequence)]
  | .scopeStarted scope depth => [("scope", scope.text), ("depth", toString depth)]
  | .assertionRegistered scope horizon => [("scope", scope.text), ("horizon", horizon.text)]
  | .effectsScheduled scope count => [("scope", scope.text), ("count", toString count)]
  | .advancing scope horizon => [("scope", scope.text), ("horizon", horizon.text)]
  | .mismatched scope diagram mismatch =>
    [("scope", scope.text), ("diagram", diagram), ("mismatch", mismatch.text)]
  | .assertionFailed scope index cause =>
    [("scope", scope.text), ("assertion", toString index), ("error", cause.message)]
  | .scopeFailed scope failures total =>
    [("scope", scope.text), ("failures", toString failures), ("total", toString total)]
  | .scopeEnded scope total => [("scope", scope.text), ("total", toString total)]
  | .abandonedOutOfOrder scope pending | .abandonedInPanic scope pending =>
    [("scope", scope.text), ("pending", toString pending)]

end Report

/-- What a command answers when it succeeds. -/
inductive Reply (α : Type) where
  | nothing
  | text (s : String)
  | value (j : Json)
  | instants (ts : List VirtualTime)
  | timeline (events : List (Timed (Signal α)))
  | source (s : Source α)
  | subscription (active : Bool) (description : String)
  | recorder (state : RecorderState) (messages : List (Timed (Signal α)))
  | scope (id : ScopeId) (phase : Phase) (now : VirtualTime) (pending : Nat)
    (options : ScopeOptions)
      (description : String)

/-- One line of the log. -/
inductive Entry (α : Type) where
  /-- An action of the client started. -/
  | ran (label : Json) (now : VirtualTime)
  /-- A side effect of the client was invoked. -/
  | effect (payload : Json)
  /-- A listener got a notification. -/
  | received (name : String) (n : Signal α)
  /-- A notification passed an inspecting stage. -/
  | inspected (name : String) (n : Signal α)
  /-- A factory was asked for its sequence. -/
  | built (now : VirtualTime)
  /-- An assertion of the client started. -/
  | asserted (label : Json) (now : VirtualTime)
  | report (r : Report)
  /-- A command inside a script was carried out. -/
  | performed (command : String) (result : Except Error (Reply α))

end Marble
