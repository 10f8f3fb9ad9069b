import Marble.Scenario.Command

/-! How much work a script can cause: a bound on the callbacks and actions it leads to. -/
namespace Marble

variable {α : Type}

/-- How many notifications a recipe holds itself. -/
def RecipeBase.size : RecipeBase α → Nat
  | .just items => items.length
  | .after _ items => items.length
  | _ => 0

mutual

/-- The work of one invocation. -/
def EffectScript.weight : EffectScript α → Nat
  | .script commands => commandsWeight commands + 1
  | _ => 1

/-- Every frame of a drawing may be a side effect, and stands for one notification otherwise. -/
def drawingWeight : Drawing α (EffectScript α) → Nat
  | ⟨source, legend⟩ => source.length * (legendWeight legend + 1)

def materialWeight : Material α (EffectScript α) → Nat
  | .events _ items => items.length
  | .drawing _ _ d => drawingWeight d

def Command.weight : Command α → Nat
  | .scheduleAt _ _ _ script => commandsWeight script + 2
  | .scheduleAfter _ _ _ script => commandsWeight script + 2
  | .source _ _ m => materialWeight m + 1
  | .sequence _ recipe => recipe.base.size + 1
  | .subscribe _ recipe rules => recipe.base.size + rulesWeight rules + 2
  | .teardown _ script => commandsWeight script + 2
  | .recorder _ _ (some recipe) => recipe.base.size + 2
  | .notify _ items => items.length + 1
  | .record recipe _ => recipe.base.size + 2
  | .start recipe _ _ script => recipe.base.size + commandsWeight script + 4
  | .expect _ recipe d _ => recipe.base.size + drawingWeight d + 3
  | .scheduleEffects _ d => drawingWeight d + 1
  | .expectEffects _ _ d => drawingWeight d + 1
  | .registerAssertion _ _ _ script => commandsWeight script + 2
  | .within _ _ script _ => commandsWeight script + 2
  | _ => 1

def commandsWeight : List (Command α) → Nat
  | [] => 0
  | c :: rest => c.weight + commandsWeight rest

def rulesWeight : List (Nat × List (Command α)) → Nat
  | [] => 0
  | (_, commands) :: rest => commandsWeight commands + 1 + rulesWeight rest

def legendWeight : List (Char × LegendEntry α SequenceError (EffectScript α)) → Nat
  | [] => 0
  | (_, .effect f) :: rest => f.weight + legendWeight rest
  | _ :: rest => legendWeight rest

end

/-- Enough fuel for a script: each of its commands queues at most as many actions as it weighs. -/
def Script.fuel (script : Script α) : Nat :=
  (commandsWeight script + 3) * (commandsWeight script + 3)

end Marble
