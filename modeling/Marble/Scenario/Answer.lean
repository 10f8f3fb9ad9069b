import Marble.Scenario.Perform
import Marble.Scenario.Weight

/-! Scenarios: commands carried out on a fresh bench, and what is seen after each. -/
namespace Marble.Scenario

variable {α : Type} [Shown α]

/-- What is seen of a command: how it ended, the named clocks, the open scopes, and the new log. -/
structure Sighting (α : Type) where
  outcome : Outcome (Except Error (Reply α))
  clocks : List (String × VirtualTime × Nat × Nat)
  depth : Nat
  log : List (Entry α)

/-- A bench with one clock, called "main". -/
def fresh : Bench α (Callback α) :=
  let (c, b) := ({} : Bench α (Callback α)).addClock
  { b with names := { clocks := [("main", c)] } }

/-- The named clocks: how late it is, how much is pending, and how much has run. -/
def clocks (b : Bench α (Callback α)) : List (String × VirtualTime × Nat × Nat) :=
  b.names.clocks.map fun (name, c) =>
    let row := (b.clocks.get? c).getD {}
    (name, row.now, row.pending, row.dispatched)

/-- Carries out one command. A panic ends the command; what it changed stays. -/
def observe (E : Engine α (Callback α)) (c : Command α) (b : Bench α (Callback α)) :
    Sighting α × Bench α (Callback α) :=
  let (outcome, after) := (perform E c).result b
  ({ outcome
     clocks := clocks after
     depth := after.stack.length
     log := after.log.toList.drop b.log.size }, after)

/-- Carries out commands one after the other, whatever comes of each. -/
def observeAll (E : Engine α (Callback α)) :
    Script α → Bench α (Callback α) → List (Sighting α)
  | [], _ => []
  | c :: rest, b =>
    let (seen, b) := observe E c b
    seen :: observeAll E rest b

/-- Carries out a scenario on a fresh bench. -/
def run (script : Script α) : List (Sighting α) :=
  observeAll (Callback.engine script.fuel) script fresh

/-- Reports below a level are not seen; without a level, none are. -/
def visible (threshold : Option Level) : Entry α → Bool
  | .report r => (threshold.map fun l => decide (l.rank ≤ r.level.rank)).getD false
  | _ => true

end Marble.Scenario
