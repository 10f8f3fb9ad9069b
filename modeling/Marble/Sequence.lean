import Marble.Notification
import Marble.Table

/-! Push sequences: where notifications come from, what happens to them on the way, and who gets
them. -/
namespace Marble

variable {α : Type}

/-- The notifications of a test. -/
abbrev Signal (α : Type) := Notification α SequenceError

/-- One step between a sequence and its observer. -/
inductive Stage (α : Type) where
  /-- Replaces each value. -/
  | map (f : α → α)
  /-- Drops the values that do not pass; terminals pass. -/
  | filter (keep : α → Bool)
  /-- Notes everything and passes it on. -/
  | inspect (name : String)
  /-- Stamps a probe for each value and passes everything on. -/
  | stamp (probe : ProbeRef)

/-- Who gets the notifications in the end. -/
inductive Sink where
  | recorder (r : RecorderRef)
  | listener (l : ListenerRef)
deriving DecidableEq

/-- A sink behind the stages that lead to it, the first stage first. -/
structure Observer (α : Type) where
  stages : List (Stage α)
  sink : Sink

/-- Where a sequence starts. -/
inductive Base (α : Type) where
  /-- Completes while it is being subscribed. -/
  | empty
  /-- Stays silent. -/
  | never
  | source (s : SourceRef)
  /-- Pushes everything while it is being subscribed. -/
  | just (items : List (Signal α))
  /-- Schedules everything when it is subscribed, for good. -/
  | after (clock : ClockRef) (items : List (Timed (Signal α)))

/-- A base and the stages applied to it, the first stage first. -/
structure Sequence (α : Type) where
  base : Base α
  stages : List (Stage α)

namespace Stage

/-- What becomes of a notification, apart from what is noted on the way. -/
def transform : Stage α → Signal α → Option (Signal α)
  | .map f, n => some (n.map f)
  | .filter keep, .next v => if keep v then some (.next v) else none
  | _, n => some n

end Stage

end Marble
