import Marble.Bench.Scopes
import Marble.Scenario.Names

/-! Carrying out commands and scripts. -/
namespace Marble

variable {α : Type} [Shown α]

namespace Callback

/-- A listener's callbacks, each with the number of the notification it runs at. -/
def rules (rules : List (Nat × Script α)) : List (Nat × Callback α) :=
  rules.map fun (k, commands) => (k, .script commands)

/-- The sequence a factory is to build, with names as they stand now. -/
def sequence (f : Callback α) (b : Bench α (Callback α)) : Sequence α :=
  match f with
  | .factory _ _ recipe => (b.names.sequence? recipe).getD ⟨.never, []⟩
  | _ => ⟨.never, []⟩

end Callback

namespace Scenario

/-- Gives a scope and its clock a name. -/
def nameScope (name : String) (s : ScopeRef) : Task α Unit := do
  let row ← Task.scopeRow s
  Task.rename fun names => { names with
    scopes := bindName name s names.scopes
    clocks := bindName name row.clock names.clocks }

/-- Takes the guard under a name, which can be used once. -/
def takeGuard (name : String) : Task α ScopeRef := do
  let s ← Task.find (·.guards.lookup name)
  Task.rename fun names => { names with guards := names.guards.filter (·.1 != name) }
  return s

/-- The clock things belong to, and the unit of time there. -/
def home (unit : UnitOfTime) : Home → Task α (ClockRef × UnitOfTime)
  | .clock name => do return (← Task.clock name, unit)
  | .scope name => do
    let row ← Task.scopeRow (← Task.scope (some name))
    return (row.clock, row.options.unit)
  | .innermost => do
    let row ← Task.scopeRow (← Task.scope none)
    return (row.clock, row.options.unit)

/-- The clock and the timeline of a source. A diagram is read before its home is looked up. -/
def material : Material α (EffectScript α) → Task α (ClockRef × List (Timed (Signal α)))
  | .events clock items => do return (← Task.clock clock, items)
  | .drawing where_ unit d => do
    let diagram ← Task.diagram d
    let (c, unit) ← home unit where_
    return (c, diagram.notifications unit)

/-- Carries out one command. -/
def perform (E : Engine α (Callback α)) : Command α → Task α (Reply α)
  | .clock name => do
    let c ← Attempt.change (·.addClock)
    Task.rename fun names => { names with clocks := bindName name c names.clocks }
    return .nothing
  | .scheduleAt clock due label script => do
    let c ← Task.clock clock
    Attempt.update (·.schedule c due (.invoke (.call (.action c label script))))
    return .nothing
  | .scheduleAfter clock delay label script => do
    let c ← Task.clock clock
    Attempt.update (·.scheduleAfter c delay (.invoke (.call (.action c label script))))
    return .nothing
  | .advanceTo clock target => do
    Attempt.lift (E.advanceTo (← Task.clock clock) target)
    return .nothing
  | .advanceBy clock delay => do
    Attempt.lift (E.advanceBy (← Task.clock clock) delay)
    return .nothing
  | .runUntilIdle clock => do
    Attempt.lift (E.runUntilIdle (← Task.clock clock))
    return .nothing
  | .clockText clock => do
    let c ← Task.clock clock
    return .text (← Attempt.read fun b => ((b.clocks.get? c).getD {}).text)
  | .source name temperature from_ => do
    let (c, events) ← material from_
    let s ← Attempt.change (·.addSource temperature c events)
    Task.rename fun names => { names with sources := bindName name s names.sources }
    return .nothing
  | .sourceInfo name => do
    let s ← Task.find (·.sources.lookup name)
    match ← Attempt.read (·.sources.get? s) with
    | some row => return .source row
    | none => return .nothing
  | .sequence name recipe => do
    let q ← Task.sequence recipe
    Task.rename fun names => { names with sequences := bindName name q names.sequences }
    return .text "Observable"
  | .subscribe name recipe rules => do
    let q ← Task.sequence recipe
    let l ← Attempt.change (·.addListener name (Callback.rules rules))
    let s ← Attempt.lift (E.subscribe q (.listener l))
    Task.rename fun names => { names with subscriptions := bindName name s names.subscriptions }
    return .nothing
  | .dispose name => do
    Attempt.lift (E.dispose (← Task.find (·.subscriptions.lookup name)))
    return .nothing
  | .subscription name => do
    let s ← Task.find (·.subscriptions.lookup name)
    match ← Attempt.read (·.subscriptions.get? s) with
    | some row => return .subscription row.active row.text
    | none => return .nothing
  | .teardown name script => do
    let s ← Attempt.change (·.addSubscription (.call (.script script)))
    Task.rename fun names => { names with subscriptions := bindName name s names.subscriptions }
    return .nothing
  | .recorder name clock recipe => do
    let c ← Task.clock clock
    let r ← Attempt.change (·.addRecorder c)
    Task.rename fun names => { names with recorders := bindName name r names.recorders }
    match recipe with
    | none => return .nothing
    | some recipe =>
      let q ← Task.sequence recipe
      let s ← Attempt.lift (E.subscribe q (.recorder r))
      Task.rename fun names => { names with subscriptions := bindName name s names.subscriptions }
      return .nothing
  | .notify name items => do
    let r ← Task.find (·.recorders.lookup name)
    Attempt.lift (Run.each (fun n => Run.update (·.record r n)) items)
    return .nothing
  | .detach name => do
    let r ← Task.find (·.recorders.lookup name)
    Attempt.update (·.detach r)
    return .nothing
  | .messages name => do
    let r ← Task.find (·.recorders.lookup name)
    match ← Attempt.read (·.recorders.get? r) with
    | some row => return .recorder row.state row.messages.toList
    | none => return .nothing
  | .record recipe clock => do
    let q ← Task.sequence recipe
    let c ← Task.clock clock
    return .timeline (← Attempt.lift (E.record q c))
  | .start recipe clock options script => do
    let c ← Task.clock clock
    return .timeline (← Attempt.lift (E.start c (.factory c script recipe) options))
  | .probe name where_ => do
    let (c, _) ← home default where_
    let p ← Attempt.change (·.addProbe c)
    Task.rename fun names => { names with probes := bindName name p names.probes }
    return .nothing
  | .callProbe name => do
    let p ← Task.find (·.probes.lookup name)
    Attempt.update (·.stamp p)
    return .nothing
  | .scheduleProbe name clock due => do
    let p ← Task.find (·.probes.lookup name)
    let c ← Task.clock clock
    Attempt.update (·.schedule c due (.invoke (.stamp p)))
    return .nothing
  | .invocations name => do
    let p ← Task.find (·.probes.lookup name)
    return .instants (← Attempt.read (·.invocations p))
  | .beginScope name options => do
    let s ← Attempt.change (·.beginScope options)
    nameScope name s
    Task.rename fun names => { names with guards := bindName name s names.guards }
    return .text s.scopeId.text
  | .endScope name => do
    let s ← takeGuard name
    E.endScope s
    return .nothing
  | .dropScope name => do
    let s ← takeGuard name
    Attempt.lift (E.dropScope s)
    return .nothing
  | .panicHolding name message => do
    let s ← takeGuard name
    Attempt.lift (Run.onPanic (Run.panic message) (·.abandon s .abandonedInPanic))
  | .panic message => Attempt.lift (Run.panic message)
  | .guardText name => do
    let s ← Task.find (·.guards.lookup name)
    return .text s!"ScopeGuard \x7b scope: ScopeId({s.scopeId.number}), ended: false \x7d"
  | .innermost name => do
    let s ← Task.scope none
    match name with
    | some name => nameScope name s
    | none => pure ()
    return .text s.scopeId.text
  | .scopeInfo name => do
    let s ← Task.scope (some name)
    let row ← Task.scopeRow s
    let now ← Attempt.read (·.now row.clock)
    let text ← Attempt.read (·.scopeText s row)
    return .scope s.scopeId row.phase now row.pending.length row.options text
  | .expect scope recipe d compare => do
    let q ← Task.sequence recipe
    let diagram ← Task.diagram d
    let s ← Task.scope scope
    E.expect s q diagram compare
    return .nothing
  | .scheduleEffects scope d => do
    let diagram ← Task.diagram d
    let s ← Task.scope scope
    Engine.scheduleEffects s diagram
    return .nothing
  | .expectEffects scope probe d => do
    let p ← Task.find (·.probes.lookup probe)
    let diagram ← Task.diagram d
    let s ← Task.scope scope
    Engine.expectEffects s p diagram
    return .nothing
  | .registerAssertion scope label horizon script => do
    let s ← Task.scope scope
    let row ← Task.scopeRow s
    Attempt.step (·.register s horizon (.check (.assertion row.clock label script)))
    return .nothing
  | .within name options script value =>
    E.within options fun s => do
      nameScope name s
      E.call (.script script)
      return .value value
  | .fail cause => Attempt.fail cause

/-- Carries out commands in turn and notes each result, up to the first error. -/
def runScript (E : Engine α (Callback α)) : Script α → Task α Unit
  | [] => return ()
  | c :: rest => do
    let result ← Attempt.lift (perform E c).result
    Attempt.note (.performed c.name result)
    let _ ← Attempt.check fun _ => result
    runScript E rest

end Scenario

namespace Callback

/-- Notes the start of a callback and runs its script. -/
def run (E : Engine α (Callback α)) : Callback α → Task α Unit
  | .action c label commands => do
    Attempt.note (.ran label (← Attempt.read (·.now c)))
    Scenario.runScript E commands
  | .assertion c label commands => do
    Attempt.note (.asserted label (← Attempt.read (·.now c)))
    Scenario.runScript E commands
  | .script commands => Scenario.runScript E commands
  | .note payload => Attempt.note (.effect payload)
  | .factory c commands _ => do
    Attempt.note (.built (← Attempt.read (·.now c)))
    Scenario.runScript E commands

/-- Callbacks within callbacks, as deep as fuel lasts. -/
def call : Nat → Callback α → Task α Unit
  | 0, _ => Run.exhaust
  | fuel + 1, f => f.run ⟨call fuel, sequence, fuel⟩

/-- The engine that carries out the callbacks of a scenario. -/
def engine (fuel : Nat) : Engine α (Callback α) := ⟨call fuel, sequence, fuel⟩

end Callback

end Marble
