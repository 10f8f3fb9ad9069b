import Marble.Bench.Delivery

/-! Driving a clock: up to an instant, until nothing is pending, and for a timed run. -/
namespace Marble.Engine

variable {α σ : Type} (E : Engine α σ)

/-- Runs the actions due by `limit` one after the other, new ones included, as long as fuel
lasts. -/
def drainWith (c : ClockRef) (limit : VirtualTime) : Nat → Run α σ Unit
  | 0 => Run.exhaust
  | fuel + 1 => do
    match ← Run.change (fun b =>
      match b.next? c limit with
      | none => (none, b)
      | some (action, b) => (some action, b)) with
    | none => return ()
    | some action =>
      E.perform action
      drainWith c limit fuel

def drain (c : ClockRef) (limit : VirtualTime) : Run α σ Unit := E.drainWith c limit E.fuel

/-- Runs everything due by `target`, then leaves the clock there. -/
def advanceTo (c : ClockRef) (target : VirtualTime) : Run α σ Unit := do
  E.drain c target
  Run.update (·.park c target)

def advanceBy (c : ClockRef) (delay : VirtualTime) : Run α σ Unit := do
  let now ← Run.read (·.now c)
  E.advanceTo c (now + delay)

/-- Runs everything and leaves the clock at the last action. -/
def runUntilIdle (c : ClockRef) : Run α σ Unit := E.drain c .never

/-- Subscribes a recorder now, runs everything, and answers with what it recorded. -/
def record (q : Sequence α) (c : ClockRef) : Run α σ (List (Timed (Signal α))) := do
  let r ← Run.change (·.addRecorder c)
  let s ← E.subscribe q (.recorder r)
  E.runUntilIdle c
  Run.update (·.detach r)
  E.dispose s
  Run.read (·.messages r)

/-- Records the sequence a factory builds. The factory is called when it is time to subscribe. -/
def start (c : ClockRef) (factory : σ) (options : RunOptions) :
    Run α σ (List (Timed (Signal α))) := do
  let r ← Run.change (·.addRecorder c)
  Run.update (·.schedule c options.subscribeAt (.openRun r factory))
  if options.disposeAt.isNever then pure ()
  else Run.update (·.schedule c options.disposeAt (.closeRun r))
  if options.stopAt.isNever then E.runUntilIdle c else E.advanceTo c options.stopAt
  Run.read (·.messages r)

end Marble.Engine
