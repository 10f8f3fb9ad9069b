import Marble.Bench.State

/-! Commands: what a scenario does to a bench, with objects called by name and scripts as
callbacks. -/
namespace Marble

variable {α : Type}

/-- Where a named sequence starts. -/
inductive RecipeBase (α : Type) where
  | empty
  | never
  | source (name : String)
  | sequence (name : String)
  | just (items : List (Signal α))
  | after (clock : String) (items : List (Timed (Signal α)))

/-- A stage of a named sequence. -/
inductive RecipeStage (α : Type) where
  | map (f : α → α)
  | filter (keep : α → Bool)
  | inspect (name : String)
  | stamp (probe : String)

/-- A sequence described by the names of what it is made from. -/
structure Recipe (α : Type) where
  base : RecipeBase α
  stages : List (RecipeStage α)

/-- A diagram with its legend; what a side effect does is `φ`. -/
structure Drawing (α φ : Type) where
  source : String
  legend : List (Char × LegendEntry α SequenceError φ)

/-- The scope that sources and probes belong to, or the clock they use without one. -/
inductive Home where
  | innermost
  | scope (name : String)
  | clock (name : String)

/-- What a source replays. -/
inductive Material (α φ : Type) where
  | events (clock : String) (items : List (Timed (Signal α)))
  | drawing (home : Home) (unit : UnitOfTime) (d : Drawing α φ)

mutual

/-- What invoking a side effect does. -/
inductive EffectScript (α : Type) where
  | stamp (probe : String)
  | script (commands : List (Command α))
  | note (payload : Json)

/-- One step of a scenario. A scope that is not named is the innermost one. -/
inductive Command (α : Type) where
  | clock (name : String)
  | scheduleAt (clock : String) (due : VirtualTime) (label : Json) (script : List (Command α))
  | scheduleAfter (clock : String) (delay : VirtualTime) (label : Json) (script : List (Command α))
  | advanceTo (clock : String) (target : VirtualTime)
  | advanceBy (clock : String) (delay : VirtualTime)
  | runUntilIdle (clock : String)
  | clockText (clock : String)
  | source (name : String) (temperature : Temperature) (material : Material α (EffectScript α))
  | sourceInfo (name : String)
  | sequence (name : String) (recipe : Recipe α)
  | subscribe (name : String) (recipe : Recipe α) (rules : List (Nat × List (Command α)))
  | dispose (name : String)
  | subscription (name : String)
  | teardown (name : String) (script : List (Command α))
  | recorder (name : String) (clock : String) (recipe : Option (Recipe α))
  | notify (name : String) (items : List (Signal α))
  | detach (name : String)
  | messages (name : String)
  | record (recipe : Recipe α) (clock : String)
  | start (recipe : Recipe α) (clock : String) (options : RunOptions) (script : List (Command α))
  | probe (name : String) (home : Home)
  | callProbe (name : String)
  | scheduleProbe (name : String) (clock : String) (due : VirtualTime)
  | invocations (name : String)
  | beginScope (name : String) (options : ScopeOptions)
  | endScope (name : String)
  | dropScope (name : String)
  | panicHolding (name : String) (message : String)
  | panic (message : String)
  | guardText (name : String)
  | innermost (name : Option String)
  | scopeInfo (name : String)
  | expect (scope : Option String) (recipe : Recipe α) (d : Drawing α (EffectScript α))
      (compare : Compare α)
  | scheduleEffects (scope : Option String) (d : Drawing α (EffectScript α))
  | expectEffects (scope : Option String) (probe : String) (d : Drawing α (EffectScript α))
  | registerAssertion (scope : Option String) (label : Json) (horizon : VirtualTime)
      (script : List (Command α))
  | within (name : String) (options : ScopeOptions) (script : List (Command α)) (value : Json)
  | fail (cause : Error)

end

/-- Commands carried out in turn; the first that fails is the last. -/
abbrev Script (α : Type) := List (Command α)

namespace Command

/-- The word by which the log knows a command. -/
def name : Command α → String
  | .clock .. => "clock"
  | .scheduleAt .. => "schedule_at"
  | .scheduleAfter .. => "schedule_after"
  | .advanceTo .. => "advance_to"
  | .advanceBy .. => "advance_by"
  | .runUntilIdle .. => "run_until_idle"
  | .clockText .. => "clock_debug"
  | .source .. => "source"
  | .sourceInfo .. => "source_info"
  | .sequence .. => "observable"
  | .subscribe .. => "subscribe"
  | .dispose .. => "dispose"
  | .subscription .. => "subscription"
  | .teardown .. => "teardown"
  | .recorder .. => "recorder"
  | .notify .. => "notify"
  | .detach .. => "detach"
  | .messages .. => "messages"
  | .record .. => "record"
  | .start .. => "start"
  | .probe .. => "probe"
  | .callProbe .. => "call_probe"
  | .scheduleProbe .. => "schedule_probe"
  | .invocations .. => "invocations"
  | .beginScope .. => "begin"
  | .endScope .. => "end"
  | .dropScope .. => "drop"
  | .panicHolding .. => "panic_holding"
  | .panic .. => "panic"
  | .guardText .. => "guard_debug"
  | .innermost .. => "current"
  | .scopeInfo .. => "scope_info"
  | .expect .. => "expect"
  | .scheduleEffects .. => "schedule_side_effects"
  | .expectEffects .. => "expect_side_effects"
  | .registerAssertion .. => "register_assertion"
  | .within .. => "run_marble_test"
  | .fail .. => "fail"

end Command

/-- A callback of a scenario: a script, and what is noted when it starts. -/
inductive Callback (α : Type) where
  | action (clock : ClockRef) (label : Json) (script : Script α)
  | assertion (clock : ClockRef) (label : Json) (script : Script α)
  | script (script : Script α)
  | note (payload : Json)
  | factory (clock : ClockRef) (script : Script α) (recipe : Recipe α)

end Marble
