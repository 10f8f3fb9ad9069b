import Marble.Clock
import Marble.Comparer
import Marble.Options
import Marble.Sequence

/-! The objects of a test bench. What client code does stands in them as a callback to be called
later. -/
namespace Marble

variable {α σ : Type}

/-- Something to invoke: a callback of the client, or a probe. -/
inductive Effect (σ : Type) where
  | call (f : σ)
  | stamp (p : ProbeRef)

/-- What disposing a subscription does: nothing, leaving the source under a log entry, or a
callback. -/
inductive Teardown (σ : Type) where
  | nothing
  | leave (s : SourceRef) (entry : Nat)
  | call (f : σ)

/-- Disposing an active subscription runs its teardown; it is never active again. -/
structure Subscription (σ : Type) where
  active : Bool := true
  teardown : Teardown σ := .nothing

namespace Subscription

def text (s : Subscription σ) : String := s!"Subscription \x7b active: {s.active} \x7d"

end Subscription

/-- What a clock does when the time has come. -/
inductive Action (α σ : Type) where
  | invoke (e : Effect σ)
  /-- Hands an observer its notification unless the subscription has been disposed. -/
  | deliver (s : SubscriptionRef) (o : Observer α) (n : Signal α)
  /-- Hands a notification to every observer attached to a hot source. -/
  | multicast (s : SourceRef) (n : Signal α)
  /-- Hands an observer its notification. -/
  | push (o : Observer α) (n : Signal α)
  /-- Detaches a recorder and disposes the subscription it listens to. -/
  | release (r : RecorderRef) (s : SubscriptionRef)
  /-- Subscribes a recorder to the sequence a factory builds, and lets it hold the subscription. -/
  | openRun (r : RecorderRef) (factory : σ)
  /-- Detaches a recorder and disposes the subscription it holds, if any. -/
  | closeRun (r : RecorderRef)

/-- Whether the timeline of a source starts anew with each subscription. -/
inductive Temperature where
  | cold
  | hot
deriving DecidableEq

namespace Temperature

def text : Temperature → String
  | .cold => "cold"
  | .hot => "hot"

end Temperature

/-- When a subscription to a source began and, once disposed, ended. -/
structure SubscriptionRecord where
  subscribed : VirtualTime
  unsubscribed : Option VirtualTime
deriving DecidableEq

/-- A source replays a timeline and keeps a log of its subscriptions. The observers attached to a
hot one stand under the numbers of their log entries, in the order they subscribed. -/
structure Source (α : Type) where
  temperature : Temperature
  clock : ClockRef
  events : List (Timed (Signal α))
  log : List SubscriptionRecord := []
  attached : List (Nat × Observer α) := []

namespace Source

def isAttached (s : Source α) (entry : Nat) : Bool := s.attached.any (·.1 == entry)

/-- Closes a log entry and detaches its observer. -/
def leave (s : Source α) (entry : Nat) (now : VirtualTime) : Source α :=
  { s with
    log := s.log.modify entry fun r => { r with unsubscribed := some now }
    attached := s.attached.filter (·.1 != entry) }

end Source

/-- An observer of the client: its callbacks run at the notification with their number. -/
structure Listener (σ : Type) where
  name : String
  received : Nat := 0
  rules : List (Nat × σ)

inductive RecorderState where
  | listening
  /-- A terminal notification has come. -/
  | terminated
  /-- The recorder was told to stop first. -/
  | detached
deriving DecidableEq

namespace RecorderState

def text : RecorderState → String
  | .listening => "Listening"
  | .terminated => "Terminated"
  | .detached => "Detached"

end RecorderState

/-- Stamps notifications with the time of a clock while it is listening. -/
structure Recorder (α : Type) where
  clock : ClockRef
  state : RecorderState := .listening
  messages : Array (Timed (Signal α)) := #[]
  held : Option SubscriptionRef := none

namespace Recorder

/-- Takes a notification in at a time; a terminal one is the last. -/
def record (r : Recorder α) (now : VirtualTime) (n : Signal α) : Recorder α :=
  if r.state = .listening then
    { r with
      state := if n.isTerminal then .terminated else .listening
      messages := r.messages.push ⟨now, n⟩ }
  else r

/-- Stops for good, unless a terminal notification has already done so. -/
def detach (r : Recorder α) : Recorder α :=
  if r.state = .listening then { r with state := .detached } else r

end Recorder

/-- Notes the times at which it is invoked. -/
structure Probe where
  clock : ClockRef
  invocations : Array VirtualTime := #[]

/-- A scope goes through its phases in this order. -/
inductive Phase where
  | created
  | active
  | ending
  | disposed
deriving DecidableEq

namespace Phase

def text : Phase → String
  | .created => "created"
  | .active => "active"
  | .ending => "ending"
  | .disposed => "disposed"

/-- The name of the phase in the description of a scope. -/
def name : Phase → String
  | .created => "Created"
  | .active => "Active"
  | .ending => "Ending"
  | .disposed => "Disposed"

/-- Assertions are taken until a scope begins to end. -/
def isAccepting : Phase → Bool
  | .created | .active => true
  | .ending | .disposed => false

end Phase

/-- What is checked when a scope ends. -/
inductive Assertion (α σ : Type) where
  | check (f : σ)
  /-- What a recorder took in agrees with a diagram. -/
  | events (r : RecorderRef) (diagram : String) (expected : List (Timed (Signal α)))
      (compare : Compare α)
  /-- A probe was invoked at the times of some effects. -/
  | effects (p : ProbeRef) (expected : List (Timed (Effect σ)))

/-- A scope owns a clock and the assertions to check once the clock has reached its horizon. -/
structure Scope (α σ : Type) where
  options : ScopeOptions
  clock : ClockRef
  phase : Phase := .created
  horizon : VirtualTime := .zero
  pending : List (Assertion α σ) := []

namespace Scope

def extend (s : Scope α σ) (instant : VirtualTime) : Scope α σ :=
  { s with horizon := max s.horizon instant }

end Scope

/-- Scopes are numbered from one. -/
def Ref.scopeId (s : ScopeRef) : ScopeId := ⟨s.index + 1⟩

end Marble
