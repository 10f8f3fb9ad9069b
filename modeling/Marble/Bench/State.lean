import Marble.Bench.Log
import Marble.Diagram

/-! The state of a bench and the changes that run no client code. -/
namespace Marble

variable {α σ : Type}

/-- What has been named; of two objects under one name the later one counts. -/
structure Names (α : Type) where
  clocks : List (String × ClockRef) := []
  sources : List (String × SourceRef) := []
  sequences : List (String × Sequence α) := []
  subscriptions : List (String × SubscriptionRef) := []
  recorders : List (String × RecorderRef) := []
  probes : List (String × ProbeRef) := []
  scopes : List (String × ScopeRef) := []
  guards : List (String × ScopeRef) := []

/-- Names an object. -/
def bindName {β : Type} (name : String) (x : β) (names : List (String × β)) : List (String × β) :=
  (name, x) :: names.filter (·.1 != name)

/-- All objects, the scopes that are open with the innermost first, and the log. -/
structure Bench (α σ : Type) where
  clocks : Table .clock (Clock (Action α σ)) := {}
  sources : Table .source (Source α) := {}
  subscriptions : Table .subscription (Subscription σ) := {}
  listeners : Table .listener (Listener σ) := {}
  recorders : Table .recorder (Recorder α) := {}
  probes : Table .probe Probe := {}
  scopes : Table .scope (Scope α σ) := {}
  stack : List ScopeRef := []
  names : Names α := {}
  log : Array (Entry α) := #[]

namespace Bench

def note (b : Bench α σ) (e : Entry α) : Bench α σ := { b with log := b.log.push e }

/-! ### Clocks -/

def now (b : Bench α σ) (c : ClockRef) : VirtualTime := ((b.clocks.get? c).getD {}).now

def addClock (b : Bench α σ) : ClockRef × Bench α σ :=
  (b.clocks.next, { b with clocks := b.clocks.push {} })

def schedule (b : Bench α σ) (c : ClockRef) (due : VirtualTime) (a : Action α σ) : Bench α σ :=
  { b with clocks := b.clocks.modify c (·.schedule due a) }

def scheduleAfter (b : Bench α σ) (c : ClockRef) (delay : VirtualTime) (a : Action α σ) :
    Bench α σ :=
  { b with clocks := b.clocks.modify c (·.scheduleAfter delay a) }

def park (b : Bench α σ) (c : ClockRef) (target : VirtualTime) : Bench α σ :=
  { b with clocks := b.clocks.modify c (·.park target) }

/-- Takes the next action due by `limit` off a clock, and reports that it starts. -/
def next? (b : Bench α σ) (c : ClockRef) (limit : VirtualTime) : Option (Action α σ × Bench α σ) :=
  match (b.clocks.get? c).bind (·.next? limit) with
  | none => none
  | some (p, clock) =>
    some (p.action, { b with clocks := b.clocks.modify c fun _ => clock }
      |>.note (.report (.dispatching c p.due p.sequence)))

/-! ### Recorders, probes and subscriptions -/

def addRecorder (b : Bench α σ) (c : ClockRef) : RecorderRef × Bench α σ :=
  (b.recorders.next, { b with recorders := b.recorders.push { clock := c } })

/-- A recorder stamps what it gets with the time of its own clock. -/
def record (b : Bench α σ) (r : RecorderRef) (n : Signal α) : Bench α σ :=
  { b with recorders := b.recorders.modify r fun row => row.record (b.now row.clock) n }

def detach (b : Bench α σ) (r : RecorderRef) : Bench α σ :=
  { b with recorders := b.recorders.modify r (·.detach) }

def messages (b : Bench α σ) (r : RecorderRef) : List (Timed (Signal α)) :=
  ((b.recorders.get? r).map (·.messages.toList)).getD []

def addProbe (b : Bench α σ) (c : ClockRef) : ProbeRef × Bench α σ :=
  (b.probes.next, { b with probes := b.probes.push { clock := c } })

/-- A probe notes the time of its own clock. -/
def stamp (b : Bench α σ) (p : ProbeRef) : Bench α σ :=
  { b with probes := b.probes.modify p fun row =>
      { row with invocations := row.invocations.push (b.now row.clock) } }

def invocations (b : Bench α σ) (p : ProbeRef) : List VirtualTime :=
  ((b.probes.get? p).map (·.invocations.toList)).getD []

def addListener (b : Bench α σ) (name : String) (rules : List (Nat × σ)) :
    ListenerRef × Bench α σ :=
  (b.listeners.next, { b with listeners := b.listeners.push { name, rules } })

def addSubscription (b : Bench α σ) (teardown : Teardown σ) : SubscriptionRef × Bench α σ :=
  (b.subscriptions.next, { b with subscriptions := b.subscriptions.push { teardown } })

def isActive (b : Bench α σ) (s : SubscriptionRef) : Bool :=
  ((b.subscriptions.get? s).map (·.active)).getD false

/-! ### Sources -/

/-- Makes a source. The timeline of a hot one is queued at once, as far as it is not past. -/
def addSource (b : Bench α σ) (temperature : Temperature) (c : ClockRef)
    (events : List (Timed (Signal α))) : SourceRef × Bench α σ :=
  let s := b.sources.next
  let b' := { b with sources := b.sources.push { temperature, clock := c, events } }
  match temperature with
  | .cold => (s, b')
  | .hot =>
    (s, (events.filter fun e => decide (b.now c ≤ e.time)).foldl
      (fun b e => b.schedule c e.time (.multicast s e.value)) b')

/-- Subscribes an observer to a source. A cold one queues its whole timeline from now on; a hot one
attaches the observer. -/
def attach (b : Bench α σ) (s : SourceRef) (o : Observer α) : SubscriptionRef × Bench α σ :=
  match b.sources.get? s with
  | none => b.addSubscription .nothing
  | some source =>
    let now := b.now source.clock
    let entry := source.log.length
    let logged := { source with log := source.log ++ [⟨now, none⟩] }
    let (sub, b) := b.addSubscription (.leave s entry)
    match source.temperature with
    | .cold =>
      let b := { b with sources := b.sources.modify s fun _ => logged }
      (sub, source.events.foldl
        (fun b e => b.schedule source.clock (now + e.time) (.deliver sub o e.value)) b)
    | .hot =>
      let attached := { logged with attached := source.attached ++ [(entry, o)] }
      (sub, { b with sources := b.sources.modify s fun _ => attached })

/-- Ends a subscription to a source: closes its log entry and detaches its observer. -/
def leave (b : Bench α σ) (s : SourceRef) (entry : Nat) : Bench α σ :=
  { b with sources := b.sources.modify s fun source =>
      source.leave entry (b.now source.clock) }

/-- Whether the observer under a log entry is still attached to a hot source. -/
def isAttached (b : Bench α σ) (s : SourceRef) (entry : Nat) : Bool :=
  ((b.sources.get? s).map (·.isAttached entry)).getD false

/-! ### Stages -/

/-- What a stage leaves behind when a notification passes. -/
def witness (b : Bench α σ) : Stage α → Signal α → Bench α σ
  | .inspect name, n => b.note (.inspected name n)
  | .stamp p, .next _ => b.stamp p
  | _, _ => b

/-- Sends a notification through stages, until one of them drops it. -/
def pass (b : Bench α σ) : List (Stage α) → Signal α → Option (Signal α) × Bench α σ
  | [], n => (some n, b)
  | stage :: rest, n =>
    match stage.transform n with
    | none => (none, b.witness stage n)
    | some m => (b.witness stage n).pass rest m

/-! ### Scopes -/

def modifyScope (b : Bench α σ) (s : ScopeRef) (f : Scope α σ → Scope α σ) : Bench α σ :=
  { b with scopes := b.scopes.modify s f }

/-- Opens a scope with a clock of its own inside all that are open. -/
def beginScope (b : Bench α σ) (options : ScopeOptions) : ScopeRef × Bench α σ :=
  let (c, b) := b.addClock
  let s := b.scopes.next
  let b := { b with scopes := b.scopes.push { options, clock := c }, stack := s :: b.stack }
  let b := b.modifyScope s fun scope => { scope with phase := .active }
  (s, b.note (.report (.scopeStarted s.scopeId b.stack.length)))

/-- Takes a scope off the stack, wherever it stands. -/
def removeScope (b : Bench α σ) (s : ScopeRef) : Bench α σ := { b with stack := b.stack.erase s }

/-- Gives a scope up: its assertions are discarded unchecked. -/
def abandon (b : Bench α σ) (s : ScopeRef) (reason : ScopeId → Nat → Report) : Bench α σ :=
  let pending := ((b.scopes.get? s).map (·.pending.length)).getD 0
  b.note (.report (reason s.scopeId pending))
    |>.modifyScope s (fun scope => { scope with phase := .disposed, pending := [] })
    |>.removeScope s

/-- Fails unless a scope still takes assertions. -/
def accepting (b : Bench α σ) (s : ScopeRef) : Except Error (Scope α σ) :=
  match b.scopes.get? s with
  | some scope => if scope.phase.isAccepting then .ok scope else .error (.scopeClosed s.scopeId)
  | none => .error (.scopeClosed s.scopeId)

/-- Queues an assertion for the end of a scope, whose clock is to reach `horizon` first. -/
def register (b : Bench α σ) (s : ScopeRef) (horizon : VirtualTime) (a : Assertion α σ) :
    Except Error Unit × Bench α σ :=
  match b.accepting s with
  | .error e => (.error e, b)
  | .ok _ =>
    (.ok (), b.modifyScope s (fun scope =>
        { scope.extend horizon with pending := scope.pending ++ [a] })
      |>.note (.report (.assertionRegistered s.scopeId horizon)))

def scopeText (b : Bench α σ) (s : ScopeRef) (scope : Scope α σ) : String :=
  s!"ScopeHandle(TestScope \x7b id: ScopeId({s.scopeId.number}), phase: {scope.phase.name}, " ++
    s!"horizon: VirtualTime({scope.horizon.text}), " ++
    s!"pending_assertions: {scope.pending.length}, scheduler: " ++
    ((b.clocks.get? scope.clock).getD {}).text ++ " \x7d)"

end Bench

end Marble
