import Marble.Time

/-! The virtual clock: pending actions in the order they will start, and how the clock moves. -/
namespace Marble

variable {κ : Type}

/-- An action with its due time and its number among all actions of its clock. -/
structure Pending (κ : Type) where
  due : VirtualTime
  sequence : Nat
  action : κ

/-- The next action to start stands first in the queue. -/
structure Clock (κ : Type) where
  now : VirtualTime := .zero
  scheduled : Nat := 0
  dispatched : Nat := 0
  queue : List (Pending κ) := []

instance : Inhabited (Clock κ) := ⟨{}⟩

namespace Clock

/-- Puts an action behind all that are due no later. -/
def enqueue (p : Pending κ) : List (Pending κ) → List (Pending κ)
  | [] => [p]
  | q :: rest => if q.due ≤ p.due then q :: enqueue p rest else p :: q :: rest

/-- Queues an action; what is due in the past is due now. -/
def schedule (c : Clock κ) (due : VirtualTime) (action : κ) : Clock κ :=
  { c with
    scheduled := c.scheduled + 1
    queue := enqueue ⟨max due c.now, c.scheduled, action⟩ c.queue }

def scheduleAfter (c : Clock κ) (delay : VirtualTime) (action : κ) : Clock κ :=
  c.schedule (c.now + delay) action

/-- Takes the first action off the queue if it is due by `limit`, and moves the clock to it. -/
def next? (c : Clock κ) (limit : VirtualTime) : Option (Pending κ × Clock κ) :=
  match c.queue with
  | [] => none
  | p :: rest =>
    if p.due ≤ limit then
      some (p, { c with now := max c.now p.due, dispatched := c.dispatched + 1, queue := rest })
    else none

/-- Moves the clock forward; it never moves back. -/
def park (c : Clock κ) (target : VirtualTime) : Clock κ := { c with now := max c.now target }

def pending (c : Clock κ) : Nat := c.queue.length

def text (c : Clock κ) : String :=
  s!"VirtualScheduler \x7b now: VirtualTime({c.now.text}), pending: {c.pending}, " ++
    s!"dispatched: {c.dispatched} \x7d"

end Clock

end Marble
