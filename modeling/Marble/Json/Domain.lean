import Marble.Json.Basic
import Marble.Notification

/-! The JSON forms of times, widths, notifications and events. -/
namespace Marble

variable {α β ε : Type}

/-- Times and widths are whole numbers of at most 64 bits. -/
def Json.ticks? : Json → Option Nat
  | .int n => if 0 ≤ n ∧ n.toNat ≤ maxTicks then some n.toNat else none
  | _ => none

instance : Encode VirtualTime := ⟨fun t => .ok (.int t.ticks)⟩
instance : Decode VirtualTime := ⟨fun j => j.ticks?.bind VirtualTime.ofNat?⟩

instance : Encode UnitOfTime := ⟨fun u => .ok (.int u.ticks)⟩
instance : Decode UnitOfTime := ⟨fun j => j.ticks?.bind fun n => (UnitOfTime.ofNat? n).toOption⟩

instance : Encode TimeGrid := ⟨fun g => .ok (.int g.ticks)⟩
instance : Decode TimeGrid := ⟨fun j => j.ticks?.bind fun n => (TimeGrid.ofNat? n).toOption⟩

instance : Encode Int64 := ⟨fun n => .ok (.int n.toInt)⟩

instance : Decode Int64 where
  decode
    | .int n =>
      if Int64.minValue.toInt ≤ n ∧ n ≤ Int64.maxValue.toInt then some (.ofInt n) else none
    | _ => none

instance : Encode String := ⟨fun s => .ok (.string s)⟩

instance : Decode String where
  decode
    | .string s => some s
    | _ => none

instance : Encode SequenceError := ⟨fun e => .ok (.object [("message", .string e.message)])⟩

instance : Decode SequenceError where
  decode j := do
    match ← j.record? ["message"] with
    | [message] => return ⟨← decode message⟩
    | _ => none

namespace NotificationKind

def name : NotificationKind → String
  | .next => "Next"
  | .error => "Error"
  | .completed => "Completed"

def ofName? : String → Option NotificationKind
  | "Next" => some .next
  | "Error" => some .error
  | "Completed" => some .completed
  | _ => none

end NotificationKind

instance : Encode NotificationKind := ⟨fun k => .ok (.string k.name)⟩

instance : Decode NotificationKind where
  decode j := do
    let (name, content) ← j.variant?
    if Json.bare content then NotificationKind.ofName? name else none

instance [Encode α] [Encode ε] : Encode (Notification α ε) where
  encode
    | .next v => do return .object [("Next", ← encode v)]
    | .error e => do return .object [("Error", ← encode e)]
    | .completed => .ok (.string "Completed")

instance [Decode α] [Decode ε] : Decode (Notification α ε) where
  decode j := do
    let (name, content) ← j.variant?
    match ← NotificationKind.ofName? name, content with
    | .next, some v => return .next (← decode v)
    | .error, some e => return .error (← decode e)
    | .completed, content => if Json.bare content then some .completed else none
    | _, none => none

instance [Encode β] : Encode (Timed β) where
  encode r := do return .object [("time", ← encode r.time), ("value", ← encode r.value)]

instance [Decode β] : Decode (Timed β) where
  decode j := do
    match ← j.record? ["time", "value"] with
    | [time, value] => return ⟨← decode time, ← decode value⟩
    | _ => none

end Marble
