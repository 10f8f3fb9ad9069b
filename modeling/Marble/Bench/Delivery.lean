import Marble.Bench.Run

/-! Notifications on their way to observers, subscriptions, and what a due action does. -/
namespace Marble.Engine

variable {α σ : Type} (E : Engine α σ)

/-- Carries out a callback whose own error nobody sees. -/
def fire (f : σ) : Run α σ Unit := do
  let _ ← (E.call f).result
  return ()

def invoke : Effect σ → Run α σ Unit
  | .call f => E.fire f
  | .stamp p => Run.update (·.stamp p)

/-- Tells a listener; it counts the notification before its callbacks for that number run. -/
def tell (l : ListenerRef) (n : Signal α) : Run α σ Unit := do
  match ← Run.read (·.listeners.get? l) with
  | none => return ()
  | some row =>
    Run.note (.received row.name n)
    Run.update fun b =>
      { b with listeners := b.listeners.modify l fun r => { r with received := r.received + 1 } }
    Run.each (fun rule => E.fire rule.2) (row.rules.filter (·.1 == row.received))

def sink : Sink → Signal α → Run α σ Unit
  | .recorder r, n => Run.update (·.record r n)
  | .listener l, n => E.tell l n

/-- Sends a notification through the stages of an observer to its sink. -/
def notify (o : Observer α) (n : Signal α) : Run α σ Unit := do
  match ← Run.change (·.pass o.stages n) with
  | none => return ()
  | some m => E.sink o.sink m

/-- Runs a teardown. -/
def tearDown : Teardown σ → Run α σ Unit
  | .nothing => return ()
  | .leave s entry => Run.update (·.leave s entry)
  | .call f => E.fire f

/-- Disposes a subscription. It is inactive before its teardown runs, which therefore runs once. -/
def dispose (s : SubscriptionRef) : Run α σ Unit := do
  match ← Run.read (·.subscriptions.get? s) with
  | none => return ()
  | some row =>
    if row.active then
      Run.update fun b =>
        { b with subscriptions := b.subscriptions.modify s fun r => { r with active := false } }
      E.tearDown row.teardown
    else return ()

/-- Subscribes a sink to a sequence. -/
def subscribe (q : Sequence α) (k : Sink) : Run α σ SubscriptionRef :=
  let o : Observer α := ⟨q.stages, k⟩
  match q.base with
  | .empty => do
    E.notify o .completed
    Run.change (·.addSubscription .nothing)
  | .never => Run.change (·.addSubscription .nothing)
  | .source s => Run.change (·.attach s o)
  | .just items => do
    Run.each (E.notify o) items
    Run.change (·.addSubscription .nothing)
  | .after c items => do
    Run.each (fun e => Run.update (·.scheduleAfter c e.time (.push o e.value))) items
    Run.change (·.addSubscription .nothing)

/-- Hands a notification to the observers that were attached when it came, in the order they
subscribed, and skips those that have been detached since. -/
def multicast (s : SourceRef) (n : Signal α) : Run α σ Unit := do
  let attached ← Run.read fun b => ((b.sources.get? s).map (·.attached)).getD []
  Run.each (fun o => do
    if ← Run.read (·.isAttached s o.1) then E.notify o.2 n else return ()) attached

/-- Carries out an action whose time has come. -/
def perform : Action α σ → Run α σ Unit
  | .invoke e => E.invoke e
  | .deliver s o n => do
    if ← Run.read (·.isActive s) then E.notify o n else return ()
  | .multicast s n => E.multicast s n
  | .push o n => E.notify o n
  | .release r s => do
    Run.update (·.detach r)
    E.dispose s
  | .openRun r factory => do
    E.fire factory
    let q ← Run.read (E.sequence factory)
    let s ← E.subscribe q (.recorder r)
    Run.update fun b =>
      { b with recorders := b.recorders.modify r fun row => { row with held := some s } }
  | .closeRun r => do
    Run.update (·.detach r)
    match ← Run.read fun b => (b.recorders.get? r).bind (·.held) with
    | none => return ()
    | some s =>
      Run.update fun b =>
        { b with recorders := b.recorders.modify r fun row => { row with held := none } }
      E.dispose s

end Marble.Engine
