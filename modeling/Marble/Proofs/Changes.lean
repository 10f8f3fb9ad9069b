import Marble.Bench.Scopes
import Marble.Proofs.Run

/-! The changes a bench goes through: whatever is done on a bench, it goes from one change of a few
kinds to the next. -/
namespace Marble

variable {α σ ρ : Type}

theorem Table.ext_get? {k : Kind} {β : Type} {t t' : Table k β} (h : ∀ r, t.get? r = t'.get? r) :
    t = t' := by
  have hrows : t.rows = t'.rows := Array.ext_getElem? fun i => h ⟨i⟩
  cases t
  cases t'
  simpa using hrows

theorem Table.modify_congr {k : Kind} {β : Type} {t : Table k β} {r : Ref k} {f g : β → β}
    (h : ∀ row, t.get? r = some row → f row = g row) : t.modify r f = t.modify r g := by
  apply Table.ext_get?
  intro s
  rw [Table.get?_modify, Table.get?_modify]
  split
  next hr =>
    subst hr
    cases hrow : t.get? r with
    | none => rfl
    | some row => simp [h row hrow]
  · rfl

theorem Table.modify_modify {k : Kind} {β : Type} (t : Table k β) (r : Ref k) (f g : β → β) :
    (t.modify r f).modify r g = t.modify r fun row => g (f row) := by
  apply Table.ext_get?
  intro s
  simp only [Table.get?_modify]
  split <;> simp [Function.comp_def]

theorem Table.modify_id {k : Kind} {β : Type} (t : Table k β) (r : Ref k) :
    t.modify r (fun row => row) = t := by
  apply Table.ext_get?
  intro s
  simp [Table.get?_modify]

/-- The clock, the due time and the number of an action whose start is reported. -/
def Entry.started? : Entry α → Option (ClockRef × VirtualTime × Nat)
  | .report (.dispatching c due n) => some (c, due, n)
  | _ => none

/-- Whether an entry tells of a notification, on its way or with its listener. -/
def Entry.isHeard : Entry α → Bool
  | .received .. | .inspected .. => true
  | _ => false

/-- What a base hands over while it is being subscribed. -/
def Base.announces : Base α → List (Signal α)
  | .empty => [.completed]
  | .just items => items
  | _ => []

/-- The log entry that disposing a subscription closes, and the source it belongs to. -/
def Teardown.leaves? : Teardown σ → Option (SourceRef × Nat)
  | .leave s entry => some (s, entry)
  | _ => none

/-- Whether an action is an event of a hot source. -/
def Action.isMulticast : Action α σ → Bool
  | .multicast .. => true
  | _ => false

/-- Whether an action is an event of a source, hot or cold. -/
def Action.isEvent : Action α σ → Bool
  | .multicast .. | .deliver .. => true
  | _ => false

theorem Action.isMulticast_of_isEvent {a : Action α σ} (h : a.isEvent = false) :
    a.isMulticast = false := by
  cases a <;> first | rfl | cases h

/-- Whether an action hands a notification on when its time has come. -/
def Action.hands : Action α σ → Bool
  | .deliver .. | .multicast .. | .push .. => true
  | _ => false

/-- The recorder whose timed run an action opens or closes. -/
def Action.run? : Action α σ → Option RecorderRef
  | .openRun r _ | .closeRun r => some r
  | _ => none

theorem Action.isEvent_of_run? {a : Action α σ} {r : RecorderRef} (h : a.run? = some r) :
    a.isEvent = false := by
  cases a <;> first | rfl | cases h

/-- The subscription that an action is to end. -/
def Action.released? : Action α σ → Option SubscriptionRef
  | .release _ s => some s
  | _ => none

theorem Action.released?_of_run? {a : Action α σ} {r : RecorderRef} (h : a.run? = some r) :
    a.released? = none := by
  cases a <;> first | rfl | cases h

namespace Bench

variable {b b' : Bench α σ}

/-- The state of a clock; one that is yet to be made is still fresh. -/
def clock (b : Bench α σ) (c : ClockRef) : Clock (Action α σ) := (b.clocks.get? c).getD {}

/-- The subscription that a recorder holds. -/
def held (b : Bench α σ) (r : RecorderRef) : Option SubscriptionRef :=
  (b.recorders.get? r).bind (·.held)

/-- A recorder gets a subscription to hold, or lets go of it. -/
def hold (b : Bench α σ) (r : RecorderRef) (s : Option SubscriptionRef) : Bench α σ :=
  { b with recorders := b.recorders.modify r fun row => { row with held := s } }

/-- What the log tells of notifications. -/
def tidings (b : Bench α σ) : List (Entry α) := b.log.toList.filter (·.isHeard)

/-- A subscription is told that it is over. -/
def deactivate (b : Bench α σ) (s : SubscriptionRef) : Bench α σ :=
  { b with subscriptions := b.subscriptions.modify s fun r => { r with active := false } }

/-- A clock that is added is fresh, as it was before it was made. -/
theorem clock_addClock (b : Bench α σ) (c : ClockRef) : b.addClock.2.clock c = b.clock c := by
  simp only [clock, addClock, Table.get?_push]
  split
  next hc => simp [hc, Table.get?_next]
  · rfl

theorem clock_register (b : Bench α σ) (s : ScopeRef) (t : VirtualTime) (a : Assertion α σ)
    (c : ClockRef) : (b.register s t a).2.clock c = b.clock c := by
  rw [register]
  split <;> rfl

theorem held_register (b : Bench α σ) (s : ScopeRef) (t : VirtualTime) (a : Assertion α σ)
    (r : RecorderRef) : (b.register s t a).2.held r = b.held r := by
  rw [register]
  split <;> rfl

/-- A new recorder holds nothing, as before it was made. -/
theorem held_addRecorder (b : Bench α σ) (c : ClockRef) (r : RecorderRef) :
    (b.addRecorder c).2.held r = b.held r := by
  simp only [held, addRecorder, Table.get?_push]
  split
  next hr => simp [hr, Table.get?_next]
  · rfl

theorem held_modify (b : Bench α σ) (r r' : RecorderRef) {f : Recorder α → Recorder α}
    (hf : ∀ row, (f row).held = row.held) :
    ({ b with recorders := b.recorders.modify r f } : Bench α σ).held r' = b.held r' := by
  simp only [held, Table.get?_modify]
  split
  · cases b.recorders.get? r' <;> simp [hf]
  · rfl

theorem held_record (b : Bench α σ) (r : RecorderRef) (n : Signal α) (r' : RecorderRef) :
    (b.record r n).held r' = b.held r' := by
  refine held_modify b r r' fun row => ?_
  rw [Recorder.record]
  split <;> rfl

theorem held_detach (b : Bench α σ) (r r' : RecorderRef) : (b.detach r).held r' = b.held r' := by
  refine held_modify b r r' fun row => ?_
  rw [Recorder.detach]
  split <;> rfl

theorem accepting_eq_ok {s : ScopeRef} {scope : Scope α σ} :
    b.accepting s = .ok scope ↔ b.scopes.get? s = some scope ∧ scope.phase.isAccepting := by
  rw [accepting]
  cases b.scopes.get? s with
  | none => simp
  | some row =>
    simp only [Option.some.injEq]
    constructor
    · intro h
      split at h
      next ha =>
        obtain rfl := Except.ok.inj h
        exact ⟨rfl, ha⟩
      · cases h
    · rintro ⟨rfl, ha⟩
      exact if_pos ha

/-- A change that closes no scope, nor enters a phase of its end, and leaves the guards where they
are. Only the start of an action is reported as one; an observer leaves its source together with the
end of its subscription; a scope that takes no assertions any more is left alone. -/
inductive Plain : Bench α σ → Bench α σ → Prop
  | note (b : Bench α σ) (e : Entry α) (he : e.started? = none) :
    Plain b (b.note e)
  | rename (b : Bench α σ) {names : Names α} (h : names.guards = b.names.guards) :
    Plain b { b with names }
  | addClock (b : Bench α σ) : Plain b b.addClock.2
  | schedule (b : Bench α σ) (c : ClockRef) (due : VirtualTime) {a : Action α σ}
    (ha : a.isMulticast = false) : Plain b (b.schedule c due a)
  | start {b b' : Bench α σ} {c : ClockRef} {limit : VirtualTime} {a : Action α σ}
    (h : b.next? c limit = some (a, b')) : Plain b b'
  | park {b : Bench α σ} {c : ClockRef} {target : VirtualTime} (h : b.next? c target = none) :
    Plain b (b.park c target)
  | addRecorder (b : Bench α σ) (c : ClockRef) : Plain b (b.addRecorder c).2
  | record (b : Bench α σ) (r : RecorderRef) (n : Signal α) : Plain b (b.record r n)
  | detach (b : Bench α σ) (r : RecorderRef) : Plain b (b.detach r)
  | hold (b : Bench α σ) (r : RecorderRef) (s : Option SubscriptionRef) :
    Plain b { b with recorders := b.recorders.modify r fun row => { row with held := s } }
  | addProbe (b : Bench α σ) (c : ClockRef) : Plain b (b.addProbe c).2
  | stamp (b : Bench α σ) (p : ProbeRef) : Plain b (b.stamp p)
  | addListener (b : Bench α σ) (name : String) (rules : List (Nat × σ)) :
    Plain b (b.addListener name rules).2
  | hear (b : Bench α σ) (l : ListenerRef) :
    Plain b { b with listeners := b.listeners.modify l fun r =>
      { r with received := r.received + 1 } }
  | addSubscription (b : Bench α σ) {teardown : Teardown σ} (ht : teardown.leaves? = none) :
    Plain b (b.addSubscription teardown).2
  | deactivate {b : Bench α σ} {s : SubscriptionRef} {row : Subscription σ}
    (h : b.subscriptions.get? s = some row) (ht : row.teardown.leaves? = none) :
    Plain b (b.deactivate s)
  | close {b : Bench α σ} {s : SubscriptionRef} {row : Subscription σ} {source : SourceRef}
    {entry : Nat} (h : b.subscriptions.get? s = some row) (ha : row.active)
    (ht : row.teardown = .leave source entry) : Plain b ((b.deactivate s).leave source entry)
  | addSource (b : Bench α σ) (temperature : Temperature) (c : ClockRef)
    (events : List (Timed (Signal α))) : Plain b (b.addSource temperature c events).2
  | attach (b : Bench α σ) (s : SourceRef) (o : Observer α) : Plain b (b.attach s o).2
  | beginScope (b : Bench α σ) (options : ScopeOptions) : Plain b (b.beginScope options).2
  | extend {b : Bench α σ} {s : ScopeRef} {scope : Scope α σ} (h : b.accepting s = .ok scope)
    (t : VirtualTime) : Plain b (b.modifyScope s (·.extend t))
  | register (b : Bench α σ) (s : ScopeRef) (t : VirtualTime) (a : Assertion α σ) :
    Plain b (b.register s t a).2

/-- A preorder of benches that allows every plain change. -/
class Allows (R : Bench α σ → Bench α σ → Prop) : Prop extends IsPreorder (Bench α σ) R where
  plain {b b' : Bench α σ} (h : Plain b b') : R b b'

/-- A plain change that queues the events of a source only by making a hot one, or by subscribing to
a cold one. -/
inductive Basic : Bench α σ → Bench α σ → Prop
  | aside {b b' : Bench α σ} (h : Plain b b') (hclock : ∀ c, b'.clock c = b.clock c) : Basic b b'
  | schedule (b : Bench α σ) (c : ClockRef) (due : VirtualTime) {a : Action α σ}
    (ha : a.isEvent = false) : Basic b (b.schedule c due a)
  | start {b b' : Bench α σ} {c : ClockRef} {limit : VirtualTime} {a : Action α σ}
    (h : b.next? c limit = some (a, b')) : Basic b b'
  | park {b : Bench α σ} {c : ClockRef} {target : VirtualTime} (h : b.next? c target = none) :
    Basic b (b.park c target)
  | addSource (b : Bench α σ) (temperature : Temperature) (c : ClockRef)
    (events : List (Timed (Signal α))) : Basic b (b.addSource temperature c events).2
  | attach (b : Bench α σ) (s : SourceRef) (o : Observer α) : Basic b (b.attach s o).2

theorem Basic.plain (h : Basic b b') : Plain b b' := by
  cases h with
  | aside h _ => exact h
  | schedule c due ha => exact .schedule b c due (Action.isMulticast_of_isEvent ha)
  | start h => exact .start h
  | park h => exact .park h
  | addSource temperature c events => exact .addSource b temperature c events
  | attach s o => exact .attach b s o

/-- A preorder of benches that allows every basic change. -/
class Admits (R : Bench α σ → Bench α σ → Prop) : Prop extends IsPreorder (Bench α σ) R where
  basic {b b' : Bench α σ} (h : Basic b b') : R b b'

instance {R : Bench α σ → Bench α σ → Prop} [Allows R] : Admits R where
  basic h := Allows.plain h.plain

/-- A basic change that has to do with no timed run: none is opened or closed, nor queued to be, and
every recorder holds what it held. -/
inductive Tame : Bench α σ → Bench α σ → Prop
  | aside {b b' : Bench α σ} (h : Plain b b') (hclock : ∀ c, b'.clock c = b.clock c)
    (hheld : ∀ r, b'.held r = b.held r) : Tame b b'
  | schedule (b : Bench α σ) (c : ClockRef) (due : VirtualTime) {a : Action α σ}
    (ha : a.isEvent = false) (hr : a.run? = none) : Tame b (b.schedule c due a)
  | park {b : Bench α σ} {c : ClockRef} {target : VirtualTime} (h : b.next? c target = none) :
    Tame b (b.park c target)
  | addSource (b : Bench α σ) (temperature : Temperature) (c : ClockRef)
    (events : List (Timed (Signal α))) : Tame b (b.addSource temperature c events).2
  | attach (b : Bench α σ) (s : SourceRef) (o : Observer α) : Tame b (b.attach s o).2

theorem Tame.basic (h : Tame b b') : Basic b b' := by
  cases h with
  | aside h hclock _ => exact .aside h hclock
  | schedule c due ha _ => exact .schedule b c due ha
  | park h => exact .park h
  | addSource temperature c events => exact .addSource b temperature c events
  | attach s o => exact .attach b s o

/-- A preorder of benches that allows every tame change. -/
class Tolerates (R : Bench α σ → Bench α σ → Prop) : Prop extends IsPreorder (Bench α σ) R where
  tame {b b' : Bench α σ} (h : Tame b b') : R b b'

instance {R : Bench α σ → Bench α σ → Prop} [Admits R] : Tolerates R where
  tame h := Admits.basic h.basic

/-- No subscription ends, and the names of subscriptions are what they were. -/
structure Spares (b b' : Bench α σ) : Prop where
  active : ∀ s, b.isActive s → b'.isActive s
  names : b'.names.subscriptions = b.names.subscriptions

/-- What leaves subscriptions and names alone spares them. -/
theorem spares_of_eq (hsubscriptions : b'.subscriptions = b.subscriptions)
    (hnames : b'.names = b.names) : Spares b b' where
  active s h := by rwa [isActive, hsubscriptions]
  names := by rw [hnames]

/-- A subscription that is made ends none. -/
theorem spares_addSubscription (b : Bench α σ) (teardown : Teardown σ) :
    Spares b (b.addSubscription teardown).2 where
  active s h := by
    simp only [isActive, addSubscription, Table.get?_push]
    split
    · rfl
    · exact h
  names := rfl

theorem spares_register (b : Bench α σ) (s : ScopeRef) (t : VirtualTime) (a : Assertion α σ) :
    Spares b (b.register s t a).2 := by
  rw [register]
  split
  · exact spares_of_eq rfl rfl
  · exact spares_of_eq rfl rfl

/-- No notification leaves a trace: none is heard of, and what recorders there are have taken
nothing in. They may have been told to stop. -/
structure Unheard (b b' : Bench α σ) : Prop where
  tidings : b'.tidings = b.tidings
  recorder : ∀ r row, b.recorders.get? r = some row → ∃ row', b'.recorders.get? r = some row' ∧
    row'.clock = row.clock ∧ row'.messages = row.messages ∧
    (row'.state = row.state ∨ row.state = .listening ∧ row'.state = .detached)

instance : IsPreorder (Bench α σ) Unheard where
  refl _ := ⟨rfl, fun _ row hrow => ⟨row, hrow, rfl, rfl, Or.inl rfl⟩⟩
  trans _ _ _ h h' := by
    refine ⟨h'.tidings.trans h.tidings, fun r row hrow => ?_⟩
    obtain ⟨row₁, hrow₁, hclock, hmessages, hstate⟩ := h.recorder r row hrow
    obtain ⟨row₂, hrow₂, hclock', hmessages', hstate'⟩ := h'.recorder r row₁ hrow₁
    refine ⟨row₂, hrow₂, hclock'.trans hclock, hmessages'.trans hmessages, ?_⟩
    rcases hstate with hstate | ⟨hlistening, hdetached⟩
    · rwa [hstate] at hstate'
    · rcases hstate' with hstate' | ⟨hlistening', -⟩
      · exact Or.inr ⟨hlistening, hstate'.trans hdetached⟩
      · rw [hdetached] at hlistening'
        cases hlistening'

/-- What leaves the log and the recorders alone is not heard. -/
theorem unheard_of_eq (hlog : b'.log = b.log) (hrecorders : b'.recorders = b.recorders) :
    Unheard b b' where
  tidings := by rw [tidings, hlog, tidings]
  recorder r row hrow := ⟨row, by rw [hrecorders, hrow], rfl, rfl, Or.inl rfl⟩

theorem unheard_note (b : Bench α σ) {e : Entry α} (he : e.isHeard = false) :
    Unheard b (b.note e) where
  tidings := by simp [tidings, note, he]
  recorder r row hrow := ⟨row, hrow, rfl, rfl, Or.inl rfl⟩

theorem unheard_addRecorder (b : Bench α σ) (c : ClockRef) : Unheard b (b.addRecorder c).2 where
  tidings := rfl
  recorder r row hrow := by
    refine ⟨row, ?_, rfl, rfl, Or.inl rfl⟩
    change (b.recorders.push { clock := c }).get? r = some row
    rw [Table.get?_push, if_neg, hrow]
    rintro rfl
    simp [Table.get?_next] at hrow

theorem unheard_modify (b : Bench α σ) (r : RecorderRef) {f : Recorder α → Recorder α}
    (hf : ∀ row : Recorder α, (f row).clock = row.clock ∧ (f row).messages = row.messages ∧
      ((f row).state = row.state ∨ row.state = .listening ∧ (f row).state = .detached)) :
    Unheard b { b with recorders := b.recorders.modify r f } where
  tidings := rfl
  recorder r' row hrow := by
    change ∃ row', (b.recorders.modify r f).get? r' = some row' ∧ _
    rw [Table.get?_modify, hrow]
    split
    · exact ⟨_, rfl, hf row⟩
    · exact ⟨row, rfl, rfl, rfl, Or.inl rfl⟩

theorem unheard_detach (b : Bench α σ) (r : RecorderRef) : Unheard b (b.detach r) := by
  refine unheard_modify b r fun row => ?_
  rw [Recorder.detach]
  split
  next h => exact ⟨rfl, rfl, Or.inr ⟨h, rfl⟩⟩
  · exact ⟨rfl, rfl, Or.inl rfl⟩

theorem unheard_hold (b : Bench α σ) (r : RecorderRef) (s : Option SubscriptionRef) :
    Unheard b (b.hold r s) := unheard_modify b r fun _ => ⟨rfl, rfl, Or.inl rfl⟩

theorem unheard_register (b : Bench α σ) (s : ScopeRef) (t : VirtualTime) (a : Assertion α σ) :
    Unheard b (b.register s t a).2 := by
  rw [register]
  split
  · exact unheard_of_eq rfl rfl
  · exact ⟨by simp [tidings, note, modifyScope, Entry.isHeard],
      fun r row hrow => ⟨row, hrow, rfl, rfl, Or.inl rfl⟩⟩

theorem unheard_beginScope (b : Bench α σ) (options : ScopeOptions) :
    Unheard b (b.beginScope options).2 where
  tidings := by simp [tidings, beginScope, addClock, note, modifyScope, Entry.isHeard]
  recorder r row hrow := ⟨row, hrow, rfl, rfl, Or.inl rfl⟩

theorem unheard_abandon (b : Bench α σ) (s : ScopeRef) (reason : ScopeId → Nat → Report) :
    Unheard b (b.abandon s reason) where
  tidings := by simp [tidings, abandon, removeScope, note, modifyScope, Entry.isHeard]
  recorder r row hrow := ⟨row, hrow, rfl, rfl, Or.inl rfl⟩

/-- A tame change that ends no subscription, nor queues the end of one, and names none. -/
inductive Mild : Bench α σ → Bench α σ → Prop
  | aside {b b' : Bench α σ} (h : Plain b b') (hclock : ∀ c, b'.clock c = b.clock c)
    (hheld : ∀ r, b'.held r = b.held r) (hspares : Spares b b') : Mild b b'
  | schedule (b : Bench α σ) (c : ClockRef) (due : VirtualTime) {a : Action α σ}
    (ha : a.isEvent = false) (hr : a.run? = none) (hs : a.released? = none) :
    Mild b (b.schedule c due a)
  | park {b : Bench α σ} {c : ClockRef} {target : VirtualTime} (h : b.next? c target = none) :
    Mild b (b.park c target)
  | addSource (b : Bench α σ) (temperature : Temperature) (c : ClockRef)
    (events : List (Timed (Signal α))) : Mild b (b.addSource temperature c events).2
  | attach (b : Bench α σ) (s : SourceRef) (o : Observer α) : Mild b (b.attach s o).2

theorem Mild.tame (h : Mild b b') : Tame b b' := by
  cases h with
  | aside h hclock hheld _ => exact .aside h hclock hheld
  | schedule c due ha hr _ => exact .schedule b c due ha hr
  | park h => exact .park h
  | addSource temperature c events => exact .addSource b temperature c events
  | attach s o => exact .attach b s o

/-- What is done with a subscription by someone who has got hold of it: it is ended, named, or to be
released. -/
inductive Uses (s : SubscriptionRef) : Bench α σ → Bench α σ → Prop
  | deactivate {b : Bench α σ} {row : Subscription σ} (h : b.subscriptions.get? s = some row)
    (ht : row.teardown.leaves? = none) : Uses s b (b.deactivate s)
  | close {b : Bench α σ} {row : Subscription σ} {source : SourceRef} {entry : Nat}
    (h : b.subscriptions.get? s = some row) (ha : row.active)
    (ht : row.teardown = .leave source entry) :
    Uses s b ((b.deactivate s).leave source entry)
  | name (b : Bench α σ) (name : String) (hmade : s.index < b.subscriptions.next.index) :
    Uses s b { b with names := { b.names with
      subscriptions := bindName name s b.names.subscriptions } }
  | release (b : Bench α σ) (c : ClockRef) (due : VirtualTime) (r : RecorderRef)
    (hmade : s.index < b.subscriptions.next.index) : Uses s b (b.schedule c due (.release r s))

theorem Uses.tame {s : SubscriptionRef} (h : Uses s b b') : Tame b b' := by
  cases h with
  | deactivate h ht => exact .aside (.deactivate h ht) (fun _ => rfl) fun _ => rfl
  | close h ha ht => exact .aside (.close h ha ht) (fun _ => rfl) fun _ => rfl
  | name name _ => exact .aside (.rename b rfl) (fun _ => rfl) fun _ => rfl
  | release c due r _ => exact .schedule b c due rfl rfl

/-- A subscription that one may get hold of: it goes by a name, a recorder holds it, or it is yet to
be made. -/
def AtLarge (b : Bench α σ) (s : SubscriptionRef) : Prop :=
  (∃ name, (name, s) ∈ b.names.subscriptions) ∨ (∃ r, b.held r = some s) ∨
    b.subscriptions.next.index ≤ s.index

/-- A preorder of benches that allows every mild change, and any use of the subscriptions that one
may have got hold of at the beginning. -/
class Heeds (R : Bench α σ → Bench α σ → Prop) : Prop extends IsPreorder (Bench α σ) R where
  mild {b b' : Bench α σ} (h : Mild b b') : R b b'
  use {b b₁ b₂ : Bench α σ} {s : SubscriptionRef} (hs : b.AtLarge s) (h : R b b₁)
    (hu : Uses s b₁ b₂) : R b b₂

instance {R : Bench α σ → Bench α σ → Prop} [Tolerates R] : Heeds R where
  mild h := Tolerates.tame h.tame
  use _ h hu := trans_of R h (Tolerates.tame hu.tame)

/-- A preorder of benches that allows what a preorder of the last kind does, as far as no
notification leaves a trace but one that is handed straight to a recorder. -/
class Bears (R : Bench α σ → Bench α σ → Prop) : Prop extends IsPreorder (Bench α σ) R where
  mild {b b' : Bench α σ} (h : Mild b b') (hunheard : Unheard b b') : R b b'
  use {b b₁ b₂ : Bench α σ} {s : SubscriptionRef} (hs : b.AtLarge s) (h : R b b₁)
    (hu : Uses s b₁ b₂) : R b b₂
  record (b : Bench α σ) (r : RecorderRef) (n : Signal α) : R b (b.record r n)

instance {R : Bench α σ → Bench α σ → Prop} [Heeds R] : Bears R where
  mild h _ := Heeds.mild h
  use hs h hu := Heeds.use hs h hu
  record b r n := Heeds.mild
    (.aside (.record b r n) (fun _ => rfl) (held_record b r n) (spares_of_eq rfl rfl))

theorem Bears.aside {R : Bench α σ → Bench α σ → Prop} [Bears R] (h : Plain b b')
    (hclock : ∀ c, b'.clock c = b.clock c) (hheld : ∀ r, b'.held r = b.held r)
    (hspares : Spares b b') (hunheard : Unheard b b') : R b b' :=
  Bears.mild (.aside h hclock hheld hspares) hunheard

theorem Heeds.aside {R : Bench α σ → Bench α σ → Prop} [Heeds R] (h : Plain b b')
    (hclock : ∀ c, b'.clock c = b.clock c) (hheld : ∀ r, b'.held r = b.held r)
    (hspares : Spares b b') : R b b' := Heeds.mild (.aside h hclock hheld hspares)

theorem Admits.aside {R : Bench α σ → Bench α σ → Prop} [Admits R] (h : Plain b b')
    (hclock : ∀ c, b'.clock c = b.clock c) : R b b' := Admits.basic (.aside h hclock)

theorem Tolerates.aside {R : Bench α σ → Bench α σ → Prop} [Tolerates R] (h : Plain b b')
    (hclock : ∀ c, b'.clock c = b.clock c) (hheld : ∀ r, b'.held r = b.held r) : R b b' :=
  Tolerates.tame (.aside h hclock hheld)

/-- One change of a bench: a plain one, or one to the guards or to a scope that is ending. -/
inductive Change : Bench α σ → Bench α σ → Prop
  | plain {b b' : Bench α σ} (h : Plain b b') : Change b b'
  | enterPhase (b : Bench α σ) (s : ScopeRef) (phase : Phase) :
    Change b (b.modifyScope s fun scope => { scope with phase })
  | takePending (b : Bench α σ) (s : ScopeRef) :
    Change b (b.modifyScope s fun scope => { scope with pending := [] })
  | rename (b : Bench α σ) (names : Names α) : Change b { b with names }
  | removeScope (b : Bench α σ) (s : ScopeRef) : Change b (b.removeScope s)
  | abandon (b : Bench α σ) (s : ScopeRef) (reason : ScopeId → Nat → Report)
    (hr : ∀ i n, (Entry.report (reason i n) : Entry α).started? = none) :
    Change b (b.abandon s reason)

/-- Any number of changes. -/
abbrev Reaches : Bench α σ → Bench α σ → Prop := Relation.ReflTransGen Change

theorem Change.reaches (h : Change b b') : Reaches b b' := .single h

instance : Allows (Reaches (α := α) (σ := σ)) where
  plain h := .single (.plain h)

/-- Any number of steps, with what is told of them in order: each of them tells something, or it is
one that is passed over. -/
inductive Tracked {κ : Type} (Tells : κ → Bench α σ → Bench α σ → Prop)
    (Aside : Bench α σ → Bench α σ → Prop) : Bench α σ → List κ → Bench α σ → Prop
  | refl (b : Bench α σ) : Tracked Tells Aside b [] b
  | tell {b b₁ b₂ : Bench α σ} {xs : List κ} {x : κ} (h : Tracked Tells Aside b xs b₁)
    (hx : Tells x b₁ b₂) : Tracked Tells Aside b (xs ++ [x]) b₂
  | aside {b b₁ b₂ : Bench α σ} {xs : List κ} (h : Tracked Tells Aside b xs b₁)
    (haside : Aside b₁ b₂) : Tracked Tells Aside b xs b₂

/-- The same, where nothing but changes is passed over. -/
abbrev Recounted {κ : Type} (Tells : κ → Bench α σ → Bench α σ → Prop)
    (Aside : Bench α σ → Bench α σ → Prop) : Bench α σ → List κ → Bench α σ → Prop :=
  Tracked Tells fun b b' => Change b b' ∧ Aside b b'

section

variable {κ : Type} {Tells : κ → Bench α σ → Bench α σ → Prop}
  {Aside : Bench α σ → Bench α σ → Prop} {b₁ b₂ : Bench α σ} {xs ys : List κ} {x : κ}

theorem Tracked.one (hx : Tells x b b') : Tracked Tells Aside b [x] b' := .tell (.refl b) hx

theorem Tracked.trans (h : Tracked Tells Aside b xs b₁) (h' : Tracked Tells Aside b₁ ys b₂) :
    Tracked Tells Aside b (xs ++ ys) b₂ := by
  induction h' with
  | refl => rwa [List.append_nil]
  | tell _ hx ih =>
    rw [← List.append_assoc]
    exact .tell ih hx
  | aside _ haside ih => exact .aside ih haside

/-- What is kept wherever something is told, and wherever a step is passed over, is kept. -/
theorem Tracked.keeps {P : Bench α σ → Prop} (htell : ∀ {x b b'}, Tells x b b' → P b → P b')
    (haside : ∀ {b b'}, Aside b b' → P b → P b') (h : Tracked Tells Aside b xs b') (hb : P b) :
    P b' := by
  induction h with
  | refl => exact hb
  | tell _ hx ih => exact htell hx ih
  | aside _ hpassed ih => exact haside hpassed ih

theorem Recounted.nothing (hstep : Change b b') (haside : Aside b b') :
    Recounted Tells Aside b [] b' := .aside (.refl b) ⟨hstep, haside⟩

/-- Where each change tells something or is one to be passed over, a whole run does so. -/
theorem Reaches.recounted {P : Bench α σ → Prop} (htell : ∀ {x b b'}, Tells x b b' → P b → P b')
    (haside : ∀ {b b'}, Aside b b' → P b → P b')
    (hstep : ∀ {b b'}, Change b b' → P b → ∃ xs, Recounted Tells Aside b xs b')
    (h : Reaches b b') (hb : P b) : ∃ xs, Recounted Tells Aside b xs b' := by
  induction h with
  | refl => exact ⟨[], .refl b⟩
  | tail _ hchange ih =>
    obtain ⟨xs, hxs⟩ := ih
    obtain ⟨ys, hys⟩ := hstep hchange (hxs.keeps htell (fun hpassed => haside hpassed.2) hb)
    exact ⟨xs ++ ys, hxs.trans hys⟩

end

/-- A change that queues the events of a source only where one is made or subscribed to. -/
inductive Move : Bench α σ → Bench α σ → Prop
  | basic {b b' : Bench α σ} (h : Basic b b') : Move b b'
  | aside {b b' : Bench α σ} (h : Change b b') (hclock : ∀ c, b'.clock c = b.clock c) : Move b b'

/-- Any number of moves. -/
abbrev Moves : Bench α σ → Bench α σ → Prop := Relation.ReflTransGen Move

theorem Move.change (h : Move b b') : Change b b' := by
  cases h with
  | basic h => exact .plain h.plain
  | aside h _ => exact h

theorem Moves.reaches (h : Moves b b') : Reaches b b' :=
  Relation.ReflTransGen.mono (fun _ _ => Move.change) b b' h

/-- A preorder of benches that also allows every change away from the clocks. -/
class Permits (R : Bench α σ → Bench α σ → Prop) : Prop extends Admits R where
  change {b b' : Bench α σ} (h : Change b b') (hclock : ∀ c, b'.clock c = b.clock c) : R b b'

/-- A preorder of benches that allows every tame change, and every other one away from the clocks
that leaves what recorders hold. -/
class Concedes (R : Bench α σ → Bench α σ → Prop) : Prop extends Tolerates R where
  change {b b' : Bench α σ} (h : Change b b') (hclock : ∀ c, b'.clock c = b.clock c)
    (hheld : ∀ r, b'.held r = b.held r) : R b b'

instance {R : Bench α σ → Bench α σ → Prop} [Permits R] : Concedes R where
  change h hclock _ := Permits.change h hclock

/-- A preorder of benches that allows every mild change, any use of the subscriptions that one may
have got hold of, and every other change away from the clocks that leaves what recorders hold and
ends no subscription. -/
class Grants (R : Bench α σ → Bench α σ → Prop) : Prop extends Heeds R where
  change {b b' : Bench α σ} (h : Change b b') (hclock : ∀ c, b'.clock c = b.clock c)
    (hheld : ∀ r, b'.held r = b.held r) (hspares : Spares b b') : R b b'

instance {R : Bench α σ → Bench α σ → Prop} [Concedes R] : Grants R where
  change h hclock hheld _ := Concedes.change h hclock hheld

/-- A preorder of benches that bears with every other change of which nothing is heard too, if it is
away from the clocks, leaves what recorders hold and ends no subscription. -/
class Excuses (R : Bench α σ → Bench α σ → Prop) : Prop extends Bears R where
  change {b b' : Bench α σ} (h : Change b b') (hclock : ∀ c, b'.clock c = b.clock c)
    (hheld : ∀ r, b'.held r = b.held r) (hspares : Spares b b') (hunheard : Unheard b b') : R b b'

instance {R : Bench α σ → Bench α σ → Prop} [Grants R] : Excuses R where
  change h hclock hheld hspares _ := Grants.change h hclock hheld hspares

instance : Permits (Moves (α := α) (σ := σ)) where
  basic h := .single (.basic h)
  change h hclock := .single (.aside h hclock)

instance : Permits (Reaches (α := α) (σ := σ)) where
  basic h := .single (.plain h.plain)
  change h _ := h.reaches

theorem keeps_foldl {R : Bench α σ → Bench α σ → Prop} [IsPreorder (Bench α σ) R] {β : Type}
    {f : Bench α σ → β → Bench α σ} (h : ∀ b x, R b (f b x)) (b : Bench α σ) (xs : List β) :
    R b (xs.foldl f b) := by
  induction xs generalizing b with
  | nil => exact refl_of R b
  | cons x xs ih => exact trans_of R (h b x) (ih (f b x))

/-- What is done to one clock in turn is one change of it. -/
theorem foldl_modifyClock {β : Type} (f : β → Clock (Action α σ) → Clock (Action α σ))
    (b : Bench α σ) (c : ClockRef) (xs : List β) :
    xs.foldl (fun b x => { b with clocks := b.clocks.modify c (f x) }) b =
      { b with clocks := b.clocks.modify c fun k => xs.foldl (fun k x => f x k) k } := by
  induction xs generalizing b with
  | nil => simp only [List.foldl_nil, Table.modify_id]
  | cons x xs ih =>
    rw [List.foldl_cons, ih, Table.modify_modify]
    rfl

/-- A timeline is queued on one clock, and nothing else changes. -/
theorem foldl_schedule_eq {β : Type} (due : β → VirtualTime) (action : β → Action α σ)
    (b : Bench α σ) (c : ClockRef) (xs : List β) :
    xs.foldl (fun b x => b.schedule c (due x) (action x)) b =
      { b with clocks := b.clocks.modify c fun k =>
        xs.foldl (fun k x => k.schedule (due x) (action x)) k } :=
  foldl_modifyClock (fun x k => k.schedule (due x) (action x)) b c xs

/-- A source that has taken in a subscription. A hot one has its observer attached, behind all
others. -/
structure Enters (source source' : Source α) (o : Observer α) : Prop where
  log : source'.log.length = source.log.length + 1
  temperature : source'.temperature = source.temperature
  attached : source.temperature = .hot →
    source'.attached = source.attached ++ [(source.log.length, o)]

/-- The bench on which a subscription to a source has been made, and entered in its log. -/
def enlist (b : Bench α σ) (s : SourceRef) (source source' : Source α) : Bench α σ :=
  { (b.addSubscription (.leave s source.log.length)).2 with
    sources := b.sources.modify s fun _ => source' }

/-- What a new source does to a bench: it is put down, and a hot one queues its events. -/
theorem keeps_addSource {R : Bench α σ → Bench α σ → Prop} [IsPreorder (Bench α σ) R]
    (b : Bench α σ) (temperature : Temperature) (c : ClockRef) (events : List (Timed (Signal α)))
    (hmade : R b { b with sources := b.sources.push { temperature, clock := c, events } })
    (hqueued : ∀ b' due n, R b' (b'.schedule c due (.multicast b.sources.next n))) :
    R b (b.addSource temperature c events).2 := by
  cases temperature with
  | cold => exact hmade
  | hot =>
    exact trans_of R hmade
      (keeps_foldl (fun b' (e : Timed (Signal α)) => hqueued b' e.time e.value) _ _)

/-- What subscribing to a source does to a bench: the subscription is entered, and a cold source
queues its timeline. -/
theorem keeps_attach {R : Bench α σ → Bench α σ → Prop} [IsPreorder (Bench α σ) R]
    (b : Bench α σ) (s : SourceRef) (o : Observer α) (hlost : R b (b.addSubscription .nothing).2)
    (hentered : ∀ source source', b.sources.get? s = some source → Enters source source' o →
      R b (b.enlist s source source'))
    (hqueued : ∀ b' c due n, R b' (b'.schedule c due (.deliver b.subscriptions.next o n))) :
    R b (b.attach s o).2 := by
  rw [attach]
  cases hs : b.sources.get? s with
  | none => exact hlost
  | some source =>
    dsimp only
    split
    next hcold =>
      have hentry : Enters source
          { source with log := source.log ++ [⟨b.now source.clock, none⟩] } o :=
        ⟨by simp, rfl, fun hhot => by rw [hcold] at hhot; cases hhot⟩
      refine trans_of R (hentered _ _ hs hentry) ?_
      exact keeps_foldl (fun b' (e : Timed (Signal α)) => hqueued b' source.clock _ e.value) _ _
    next hhot => exact hentered _ _ hs ⟨by simp, rfl, fun _ => rfl⟩

theorem unheard_addSource (b : Bench α σ) (temperature : Temperature) (c : ClockRef)
    (events : List (Timed (Signal α))) : Unheard b (b.addSource temperature c events).2 :=
  keeps_addSource b temperature c events (unheard_of_eq rfl rfl) fun _ _ _ => unheard_of_eq rfl rfl

theorem unheard_attach (b : Bench α σ) (s : SourceRef) (o : Observer α) :
    Unheard b (b.attach s o).2 :=
  keeps_attach b s o (unheard_of_eq rfl rfl) (fun _ _ _ _ => unheard_of_eq rfl rfl)
    fun _ _ _ _ => unheard_of_eq rfl rfl

theorem attach_fst (b : Bench α σ) (s : SourceRef) (o : Observer α) :
    (b.attach s o).1 = b.subscriptions.next := by
  rw [attach]
  cases b.sources.get? s with
  | none => rfl
  | some source => cases htemperature : source.temperature <;> simp [htemperature, addSubscription]

theorem next_attach (b : Bench α σ) (s : SourceRef) (o : Observer α) :
    (b.attach s o).2.subscriptions.next.index = b.subscriptions.next.index + 1 := by
  rw [attach]
  cases b.sources.get? s with
  | none => simp [addSubscription, Table.next, Table.push]
  | some source =>
    cases htemperature : source.temperature <;>
      simp [htemperature, addSubscription, foldl_schedule_eq, Table.next, Table.push]

/-- A delay counts from the reading of the clock. -/
theorem scheduleAfter_eq (b : Bench α σ) (c : ClockRef) (delay : VirtualTime) (a : Action α σ) :
    b.scheduleAfter c delay a = b.schedule c (b.now c + delay) a := by
  have hmod : b.clocks.modify c (·.scheduleAfter delay a) =
      b.clocks.modify c (·.schedule (b.now c + delay) a) := by
    apply Table.modify_congr
    intro row hrow
    simp [Clock.scheduleAfter, now, hrow]
  simp only [scheduleAfter, schedule, hmod]

theorem Bears.scheduleAfter {R : Bench α σ → Bench α σ → Prop} [Bears R] (b : Bench α σ)
    (c : ClockRef) (delay : VirtualTime) {a : Action α σ} (ha : a.isEvent = false)
    (hr : a.run? = none) (hs : a.released? = none) : R b (b.scheduleAfter c delay a) := by
  rw [scheduleAfter_eq]
  exact Bears.mild (.schedule _ _ _ ha hr hs) (unheard_of_eq rfl rfl)

/-- What subscribing an observer to a base does once the base has announced what it has to: the
observer is attached to a source, or what the base is to push is queued, and a subscription is
made. -/
def opened (b : Bench α σ) (base : Base α) (o : Observer α) : SubscriptionRef × Bench α σ :=
  match base with
  | .source s => b.attach s o
  | .after c items =>
    (items.foldl (fun b e => b.scheduleAfter c e.time (.push o e.value)) b).addSubscription .nothing
  | _ => b.addSubscription .nothing

theorem opened_after (b : Bench α σ) (c : ClockRef) (items : List (Timed (Signal α)))
    (o : Observer α) :
    b.opened (.after c items) o =
      ({ b with clocks := b.clocks.modify c fun k =>
        items.foldl (fun k e => k.scheduleAfter e.time (.push o e.value)) k } :
          Bench α σ).addSubscription .nothing :=
  congrArg (·.addSubscription .nothing)
    (foldl_modifyClock
      (fun (e : Timed (Signal α)) k => k.scheduleAfter e.time (.push o e.value)) b c items)

theorem opened_fst (b : Bench α σ) (base : Base α) (o : Observer α) :
    (b.opened base o).1 = b.subscriptions.next := by
  cases base with
  | source s => exact attach_fst b s o
  | after c items =>
    rw [opened_after]
    rfl
  | _ => rfl

theorem next_opened (b : Bench α σ) (base : Base α) (o : Observer α) :
    (b.opened base o).2.subscriptions.next.index = b.subscriptions.next.index + 1 := by
  cases base with
  | source s => exact next_attach b s o
  | after c items =>
    rw [opened_after]
    simp [addSubscription, Table.next, Table.push]
  | _ => simp [opened, addSubscription, Table.next, Table.push]

theorem Bears.opened {R : Bench α σ → Bench α σ → Prop} [Bears R] (b : Bench α σ) (base : Base α)
    (o : Observer α) : R b (b.opened base o).2 := by
  have hmade : ∀ b : Bench α σ, R b (b.addSubscription .nothing).2 := fun b =>
    Bears.aside (.addSubscription b rfl) (fun _ => rfl) (fun _ => rfl)
      (spares_addSubscription b .nothing) (unheard_of_eq rfl rfl)
  cases base with
  | source s => exact Bears.mild (.attach b s o) (unheard_attach b s o)
  | after c items =>
    refine trans_of R (keeps_foldl (fun b' (e : Timed (Signal α)) => ?_) b items) (hmade _)
    exact Bears.scheduleAfter b' c e.time rfl rfl rfl
  | _ => exact hmade b

section

variable {R : Bench α σ → Bench α σ → Prop} [Heeds R]

theorem Heeds.witness (b : Bench α σ) (stage : Stage α) (n : Signal α) :
    R b (b.witness stage n) := by
  cases stage with
  | map f => exact refl_of R b
  | filter keep => exact refl_of R b
  | inspect name =>
    exact Heeds.aside (.note _ _ rfl) (fun _ => rfl) (fun _ => rfl) (spares_of_eq rfl rfl)
  | stamp p =>
    cases n with
    | next v => exact Heeds.aside (.stamp _ _) (fun _ => rfl) (fun _ => rfl) (spares_of_eq rfl rfl)
    | error e => exact refl_of R b
    | completed => exact refl_of R b

theorem Heeds.pass (b : Bench α σ) (stages : List (Stage α)) (n : Signal α) :
    R b (b.pass stages n).2 := by
  induction stages generalizing b n with
  | nil => exact refl_of R b
  | cons stage rest ih =>
    rw [Bench.pass]
    split
    · exact Heeds.witness b stage n
    · exact trans_of R (Heeds.witness b stage n) (ih _ _)

end

end Bench

end Marble
