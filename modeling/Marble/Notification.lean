import Marble.Text.Quoted
import Marble.Time

/-! What a sequence pushes, and when: values, at most one terminal, and their texts. -/
namespace Marble

variable {α β ε ε' : Type}

/-- Values are shown in messages by their text. -/
class Shown (α : Type) where
  text : α → String

export Shown (text)

/-- Any number of values, then an error or a completion. -/
inductive Notification (α ε : Type) where
  | next (value : α)
  | error (cause : ε)
  | completed
deriving DecidableEq

/-- The three kinds of notification. -/
inductive NotificationKind where
  | next
  | error
  | completed
deriving DecidableEq

/-- Something that happened, or is due, at an instant. -/
structure Timed (β : Type) where
  time : VirtualTime
  value : β
deriving DecidableEq

/-- Why a sequence failed. -/
structure SequenceError where
  message : String
deriving DecidableEq

abbrev Event (α ε : Type) := Timed (Notification α ε)

namespace NotificationKind

def text : NotificationKind → String
  | .next => "next"
  | .error => "error"
  | .completed => "completed"

end NotificationKind

namespace Notification

def kind : Notification α ε → NotificationKind
  | .next _ => .next
  | .error _ => .error
  | .completed => .completed

/-- Nothing follows an error or a completion. -/
def isTerminal : Notification α ε → Bool
  | .next _ => false
  | _ => true

def map (f : α → β) : Notification α ε → Notification β ε
  | .next v => .next (f v)
  | .error e => .error e
  | .completed => .completed

end Notification

namespace Timeline

/-- A timeline as read from an instant on. -/
def shift (offset : VirtualTime) (timeline : List (Timed β)) : List (Timed β) :=
  timeline.map fun e => ⟨offset + e.time, e.value⟩

/-- The last time of a timeline, or another instant if it is empty. -/
def lastTime (timeline : List (Timed β)) (otherwise : VirtualTime) : VirtualTime :=
  (timeline.getLast?.map (·.time)).getD otherwise

end Timeline

instance : Shown SequenceError where
  text e := "SequenceError \x7b message: " ++ Text.quotedString e.message ++ " \x7d"

instance [Shown α] [Shown ε] : Shown (Notification α ε) where
  text
    | .next v => "Next(" ++ text v ++ ")"
    | .error e => "Error(" ++ text e ++ ")"
    | .completed => "Completed"

instance [Shown β] : Shown (Timed β) where
  text r := text r.value ++ "@" ++ r.time.text

end Marble
