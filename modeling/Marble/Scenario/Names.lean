import Marble.Bench.Run
import Marble.Scenario.Command

/-! From names to objects: sequences, legends and diagrams as a scenario describes them. -/
namespace Marble

variable {α : Type}

namespace Names

def stage? (names : Names α) : RecipeStage α → Option (Stage α)
  | .map f => some (.map f)
  | .filter keep => some (.filter keep)
  | .inspect name => some (.inspect name)
  | .stamp probe => (names.probes.lookup probe).map .stamp

def base? (names : Names α) : RecipeBase α → Option (Sequence α)
  | .empty => some ⟨.empty, []⟩
  | .never => some ⟨.never, []⟩
  | .source name => (names.sources.lookup name).map fun s => ⟨.source s, []⟩
  | .sequence name => names.sequences.lookup name
  | .just items => some ⟨.just items, []⟩
  | .after clock items => (names.clocks.lookup clock).map fun c => ⟨.after c items, []⟩

/-- The sequence a recipe describes; its stages come behind those of a named sequence. -/
def sequence? (names : Names α) (recipe : Recipe α) : Option (Sequence α) := do
  let q ← names.base? recipe.base
  let stages ← recipe.stages.mapM names.stage?
  return ⟨q.base, q.stages ++ stages⟩

def effect? (names : Names α) : EffectScript α → Option (Effect (Callback α))
  | .stamp probe => (names.probes.lookup probe).map .stamp
  | .script commands => some (.call (.script commands))
  | .note payload => some (.call (.note payload))

def entry? (names : Names α) :
    LegendEntry α SequenceError (EffectScript α) →
      Option (LegendEntry α SequenceError (Effect (Callback α)))
  | .value v => some (.value v)
  | .error e => some (.error e)
  | .effect f => (names.effect? f).map .effect

def entries? (names : Names α)
    (legend : List (Char × LegendEntry α SequenceError (EffectScript α))) :
    Option (List (Char × LegendEntry α SequenceError (Effect (Callback α)))) :=
  legend.mapM fun (c, entry) => (names.entry? entry).map fun e => (c, e)

end Names

/-- What a command of a scenario does: it may fail, and it may panic. -/
abbrev Task (α ρ : Type) := Attempt α (Callback α) ρ

namespace Task

/-- A scenario that names what does not exist panics. -/
def find {β : Type} (what : Names α → Option β) : Task α β := do
  match ← Attempt.read (what ·.names) with
  | some x => return x
  | none => Attempt.lift (Run.panic "nothing has this name")

def rename (f : Names α → Names α) : Task α Unit :=
  Attempt.update fun b => { b with names := f b.names }

def clock (name : String) : Task α ClockRef := find (·.clocks.lookup name)

def sequence (recipe : Recipe α) : Task α (Sequence α) := find (·.sequence? recipe)

/-- The named scope, or the innermost one. -/
def scope : Option String → Task α ScopeRef
  | some name => find (·.scopes.lookup name)
  | none => Attempt.check fun b =>
    match b.stack with
    | s :: _ => .ok s
    | [] => .error .noActiveScope

/-- Reads a drawing: the legend is built first. -/
def diagram (d : Drawing α (EffectScript α)) :
    Task α (Diagram α SequenceError (Effect (Callback α))) := do
  let entries ← find (·.entries? d.legend)
  match Legend.ofPairs entries >>= Diagram.ofText d.source with
  | .error e => Attempt.fail (.malformedLegend e)
  | .ok diagram =>
    Attempt.note (.report (.resolved diagram.source diagram.cells.length))
    return diagram

/-- The row of a scope. -/
def scopeRow (s : ScopeRef) : Task α (Scope α (Callback α)) :=
  Attempt.check fun b =>
    match b.scopes.get? s with
    | some row => .ok row
    | none => .error .noActiveScope

end Task

end Marble
