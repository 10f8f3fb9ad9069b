/-! Tables of objects that are only ever added and changed, and typed references into them. -/
namespace Marble

/-- What a reference refers to. -/
inductive Kind where
  | clock
  | source
  | subscription
  | listener
  | recorder
  | probe
  | scope

/-- The place of an object in the table of its kind. -/
structure Ref (k : Kind) where
  index : Nat
deriving DecidableEq

abbrev ClockRef := Ref .clock
abbrev SourceRef := Ref .source
abbrev SubscriptionRef := Ref .subscription
abbrev ListenerRef := Ref .listener
abbrev RecorderRef := Ref .recorder
abbrev ProbeRef := Ref .probe
abbrev ScopeRef := Ref .scope

/-- The objects of one kind in the order they were made. -/
structure Table (k : Kind) (β : Type) where
  rows : Array β := #[]

namespace Table

variable {k : Kind} {β : Type}

instance : Inhabited (Table k β) := ⟨{}⟩

def get? (t : Table k β) (r : Ref k) : Option β := t.rows[r.index]?

/-- The reference the next object will have. -/
def next (t : Table k β) : Ref k := ⟨t.rows.size⟩

def push (t : Table k β) (row : β) : Table k β := ⟨t.rows.push row⟩

/-- Changes one object; a reference to nothing changes nothing. -/
def modify (t : Table k β) (r : Ref k) (f : β → β) : Table k β := ⟨t.rows.modify r.index f⟩

theorem get?_push (t : Table k β) (row : β) (r : Ref k) :
    (t.push row).get? r = if r = t.next then some row else t.get? r := by
  cases r with | mk i =>
  simp only [get?, push, next, Array.getElem?_push, Ref.mk.injEq]

theorem get?_modify (t : Table k β) (r s : Ref k) (f : β → β) :
    (t.modify r f).get? s = if r = s then (t.get? s).map f else t.get? s := by
  cases r with | mk i =>
  cases s with | mk j =>
  simp only [get?, modify, Array.getElem?_modify, Ref.mk.injEq]

theorem get?_next (t : Table k β) : t.get? t.next = none := by
  simp [get?, next]

end Table

end Marble
