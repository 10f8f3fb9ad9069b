import Marble.Bench.Drive

/-! Scopes: expectations and side effects registered on them, and the ways a scope ends. -/
namespace Marble.Engine

variable {α σ ρ : Type} (E : Engine α σ)

/-! ### Registration -/

/-- Expects a sequence to behave like a diagram read from now on. It is observed up to the padding
after the last event, and judged when the scope ends. -/
def expect (s : ScopeRef) (q : Sequence α) (d : Diagram α SequenceError (Effect σ))
    (compare : Compare α) : Attempt α σ Unit := do
  let scope ← Attempt.check (·.accepting s)
  let offset ← Attempt.read (·.now scope.clock)
  let expected := Timeline.shift offset (d.notifications scope.options.unit)
  let releaseAt := Timeline.lastTime expected offset + scope.options.padding
  let r ← Attempt.change (·.addRecorder scope.clock)
  let sub ← Attempt.lift (E.subscribe q (.recorder r))
  Attempt.update (·.schedule scope.clock releaseAt (.release r sub))
  Attempt.step (·.register s releaseAt (.events r d.source expected compare))

/-- Invokes the side effects of a diagram at their times from now on. -/
def scheduleEffects (s : ScopeRef) (d : Diagram α SequenceError (Effect σ)) :
    Attempt α σ Unit := do
  let scope ← Attempt.check (·.accepting s)
  let offset ← Attempt.read (·.now scope.clock)
  let effects := Timeline.shift offset (d.sideEffects scope.options.unit)
  Attempt.note (.report (.effectsScheduled s.scopeId effects.length))
  Attempt.update fun b => effects.foldl (fun b e =>
    (b.modifyScope s (·.extend e.time)).schedule scope.clock e.time (.invoke e.value)) b

/-- Expects a probe to be invoked at the times of a diagram's side effects, read from now on. -/
def expectEffects (s : ScopeRef) (p : ProbeRef) (d : Diagram α SequenceError (Effect σ)) :
    Attempt α σ Unit := do
  let scope ← Attempt.check (·.accepting s)
  let offset ← Attempt.read (·.now scope.clock)
  let expected := Timeline.shift offset (d.sideEffects scope.options.unit)
  let horizon := Timeline.lastTime expected offset + scope.options.padding
  Attempt.step (·.register s horizon (.effects p expected))

/-! ### Ending -/

variable [Shown α]

/-- Reports every place where a timeline differs from what was expected. -/
def reportMismatches (s : ScopeRef) (diagram : String)
    (found : Except ComparerError (List Mismatch)) : Run α σ Unit :=
  Run.each (fun m => Run.note (.report (.mismatched s.scopeId diagram m))) (found.toOption.getD [])

/-- Checks one assertion. A timeline that differs is reported in full. -/
def verify (s : ScopeRef) (grid : TimeGrid) : Assertion α σ → Attempt α σ Unit
  | .check f => E.call f
  | .events r diagram expected compare => do
    let actual ← Attempt.read (·.messages r)
    let outcome := checkEvents compare grid actual expected
    if Error.isFailed outcome then
      Attempt.lift (reportMismatches s diagram (mismatches compare grid actual expected))
    else pure ()
    Attempt.check fun _ => outcome
  | .effects p expected => Attempt.check fun b => checkEffects grid (b.invocations p) expected

/-- Checks assertions in turn, counted from `index`, and answers with their failures. -/
def verifyAll (s : ScopeRef) (grid : TimeGrid) (index : Nat) :
    List (Assertion α σ) → Run α σ (List Error)
  | [] => return []
  | a :: rest => do
    match ← (E.verify s grid a).result with
    | .ok () => verifyAll s grid (index + 1) rest
    | .error e =>
      Run.note (.report (.assertionFailed s.scopeId index e))
      let failures ← verifyAll s grid (index + 1) rest
      return e :: failures

/-- Drives the clock of a scope to its horizon and then checks every assertion; the first failure
wins. -/
def settle (s : ScopeRef) : Attempt α σ Unit := do
  Attempt.update (·.modifyScope s fun scope => { scope with phase := .ending })
  match ← Attempt.read (·.scopes.get? s) with
  | none => pure ()
  | some scope =>
    Attempt.note (.report (.advancing s.scopeId scope.horizon))
    Attempt.lift (E.advanceTo scope.clock scope.horizon)
    let pending ← Attempt.read fun b => ((b.scopes.get? s).map (·.pending)).getD []
    Attempt.update (·.modifyScope s fun scope => { scope with pending := [] })
    let failures ← Attempt.lift (E.verifyAll s scope.options.grid 0 pending)
    Attempt.update (·.modifyScope s fun scope => { scope with phase := .disposed })
    match failures with
    | [] => Attempt.note (.report (.scopeEnded s.scopeId pending.length))
    | first :: _ =>
      Attempt.note (.report (.scopeFailed s.scopeId failures.length pending.length))
      Attempt.fail first

/-- Settles the innermost scope, which then leaves the stack even if an assertion panics. -/
def endInnermost (s : ScopeRef) : Attempt α σ Unit := do
  match ← Attempt.read (·.stack) with
  | [] => Attempt.fail .noActiveScope
  | top :: _ =>
    if top = s then (E.settle s).result.ensure (·.removeScope s)
    else Attempt.fail (.unbalancedScope s.scopeId top.scopeId)

/-- Gives a scope up if it could not be ended because a later one is open. -/
def giveUpIfUnbalanced (s : ScopeRef) : Except Error Unit → Run α σ Unit
  | .error (.unbalancedScope ..) => Run.update (·.abandon s .abandonedOutOfOrder)
  | _ => return ()

/-- Ends a scope for good. -/
def endScope (s : ScopeRef) : Attempt α σ Unit := do
  let outcome ← Attempt.lift (E.endInnermost s).result
  Attempt.lift (giveUpIfUnbalanced s outcome)
  Attempt.check fun _ => outcome

/-- Ends a scope whose owner lets go of it; a failure panics. -/
def dropScope (s : ScopeRef) : Run α σ Unit := do
  let outcome ← (E.endInnermost s).result
  giveUpIfUnbalanced s outcome
  match outcome with
  | .ok () => return ()
  | .error e => Run.panic e.message

/-- Runs a body inside a scope of its own. The error of the body wins over that of the scope; a
panic in the body gives the scope up. -/
def within (options : ScopeOptions) (body : ScopeRef → Attempt α σ ρ) : Attempt α σ ρ := do
  let s ← Attempt.change (·.beginScope options)
  let outcome ← Attempt.lift ((body s).result.onPanic (·.abandon s .abandonedInPanic))
  let ended ← Attempt.lift (E.endScope s).result
  Attempt.check fun _ => do
    let value ← outcome
    ended
    return value

end Marble.Engine
