import Marble.Proofs.Company

/-! Registering an expectation of a cold source: its timeline is queued, and behind it the end of
the recording. -/
namespace Marble

variable {α σ : Type} {E : Engine α σ} {b : Bench α σ} {s : ScopeRef} {src : SourceRef}
  {scope : Scope α σ} {source : Source α} {k : Clock (Action α σ)} {stages : List (Stage α)}

namespace Timeline

theorem pairwise_through {stages : List (Stage α)} {tl : List (Timed (Signal α))}
    (h : tl.Pairwise fun x y => x.time ≤ y.time) :
    (through stages tl).Pairwise fun x y => x.time ≤ y.time := by
  refine List.Pairwise.filterMap _ ?_ h
  intro x y hxy x' hx' y' hy'
  obtain ⟨_, _, rfl⟩ := Option.map_eq_some_iff.mp hx'
  obtain ⟨_, _, rfl⟩ := Option.map_eq_some_iff.mp hy'
  exact hxy

theorem pairwise_shift {β : Type} {tl : List (Timed β)} (offset : VirtualTime)
    (h : tl.Pairwise fun x y => x.time ≤ y.time) :
    (shift offset tl).Pairwise fun x y => x.time ≤ y.time :=
  List.pairwise_map.mpr (h.imp fun hxy => VirtualTime.add_mono (le_refl _) hxy)

/-- What comes of a timeline that is read from an instant on behind some stages: it is cut after the
first terminal, and what lies past a limit does not count. -/
def observed (stages : List (Stage α)) (t limit : VirtualTime) (tl : List (Timed (Signal α))) :
    List (Timed (Signal α)) :=
  (untilTerminal (through stages (shift t tl))).filter fun e => decide (e.time ≤ limit)

end Timeline

namespace Watch

variable {w : Watch} {events : List (Timed (Signal α))} {limit : VirtualTime}
  {p : Pending (Action α σ)}

/-- The clock of a watch once a timeline is queued for its recorder, and behind it the end of the
recording. -/
def registered (w : Watch) (k : Clock (Action α σ)) (stages : List (Stage α))
    (events : List (Timed (Signal α))) (limit : VirtualTime) : Clock (Action α σ) :=
  (k.deliverAll w.sub ⟨stages, .recorder w.recorder⟩ k.now events).schedule limit
    (.release w.recorder w.sub)

theorem registered_ordered (hk : k.Ordered) : (w.registered k stages events limit).Ordered :=
  hk.deliverAll.schedule _ _

theorem length_registered :
    (w.registered k stages events limit).queue.length = k.queue.length + events.length + 1 := by
  rw [registered, Clock.schedule, Clock.length_enqueue, Clock.length_deliverAll]

theorem mem_registered (hstages : ∀ stage ∈ stages, stage.isSilent)
    (hp : p ∈ (w.registered k stages events limit).queue) : w.Owns p.action ∨ p ∈ k.queue := by
  rcases Clock.mem_enqueue.mp hp with rfl | hp
  · exact Or.inl ⟨rfl, rfl⟩
  · rcases Clock.mem_deliverAll hp with hp | ⟨n, hp⟩
    · exact Or.inr hp
    · rw [hp]
      exact Or.inl ⟨rfl, rfl, hstages⟩

theorem stop_mem_registered (stages : List (Stage α)) (events : List (Timed (Signal α)))
    (hlimit : k.now ≤ limit) :
    ∃ p ∈ (w.registered k stages events limit).queue, w.stops p.action ∧ p.due = limit := by
  refine ⟨_, Clock.mem_enqueue.mpr (Or.inl rfl), by simp [stops], ?_⟩
  rw [Clock.deliverAll_now, max_eq_left hlimit]

theorem arrivals_eq_nil {ps : List (Pending (Action α σ))}
    (h : ∀ p ∈ ps, w.concerns p.action = false) : w.arrivals ps = [] := by
  induction ps with
  | nil => rfl
  | cons p rest ih =>
    rw [arrivals_cons_of_not_concerns (h p (by simp)), ih fun q hq => h q (by simp [hq])]

/-- The timeline comes up to the end of the recording. -/
theorem arrivals_registered (hk : k.Ordered) (hfree : ∀ p ∈ k.queue, w.concerns p.action = false)
    (hevents : events.Pairwise fun x y => x.time ≤ y.time) (hlimit : k.now ≤ limit) :
    w.arrivals (w.registered k stages events limit).queue =
      (Timeline.through stages (Timeline.shift k.now events)).filter fun e =>
        decide (e.time ≤ limit) := by
  have hstops : ∀ p ∈ k.queue, w.stops p.action = false := by
    intro p hp
    have h := hfree p hp
    simp only [concerns, Bool.or_eq_false_iff] at h
    exact h.1
  have hno : ∀ p ∈ (k.deliverAll w.sub ⟨stages, .recorder w.recorder⟩ k.now events).queue,
      w.stops p.action = false := by
    intro p hp
    rcases Clock.mem_deliverAll hp with hp | ⟨n, hp⟩
    · exact hstops p hp
    · rw [hp]
      rfl
  have hcut : ∀ t, (∃ q ∈ k.queue, w.stops q.action ∧ q.due ≤ t) ↔ (fun _ => false) t = true := by
    intro t
    simp only [Bool.false_eq_true, iff_false]
    rintro ⟨q, hq, hs, _⟩
    simp [hstops q hq] at hs
  have hpre : w.arrivals k.queue = (Timeline.sorted []).filter fun _ => !false := by
    simp [arrivals_eq_nil hfree, Timeline.sorted]
  rw [registered, Clock.schedule, Clock.deliverAll_now, max_eq_left hlimit,
    arrivals_enqueue_stop hk.deliverAll.pairwise_due (by simp [stops]) hno,
    arrivals_deliverAll hk (le_refl _) rfl hcut hpre,
    List.nil_append, Timeline.sorted_of_pairwise
      (Timeline.pairwise_through (Timeline.pairwise_shift k.now hevents))]
  simp

/-- What a new recorder will take in. -/
theorem outlook_registered (hk : k.Ordered) (hfree : ∀ p ∈ k.queue, w.concerns p.action = false)
    (hevents : events.Pairwise fun x y => x.time ≤ y.time) (hlimit : k.now ≤ limit) (c : ClockRef) :
    ({ clock := c } : Recorder α).outlook (w.arrivals (w.registered k stages events limit).queue) =
      Timeline.observed stages k.now limit events := by
  rw [Recorder.outlook_fresh, arrivals_registered hk hfree hevents hlimit, Timeline.observed,
    ← Timeline.untilTerminal_filter
      (Timeline.pairwise_through (Timeline.pairwise_shift k.now hevents))]

end Watch

/-- A scope with one more assertion. -/
def Scope.take (scope : Scope α σ) (horizon : VirtualTime) (a : Assertion α σ) : Scope α σ :=
  { scope.extend horizon with pending := scope.pending ++ [a] }

theorem Scope.meets_take {other : Action α σ → Prop} {horizon : VirtualTime} {a : Assertion α σ}
    (h : ∀ a ∈ scope.pending, a.Meets other) (ha : a.Meets other) :
    ∀ x ∈ (scope.take horizon a).pending, x.Meets other := by
  intro x hx
  rcases List.mem_append.mp hx with hx | hx
  · exact h x hx
  · rwa [List.mem_singleton.mp hx]

/-- A scope takes assertions, and there is a cold source on its clock. -/
structure Bench.Ready (b : Bench α σ) (s : ScopeRef) (scope : Scope α σ) (k : Clock (Action α σ))
    (src : SourceRef) (source : Source α) : Prop where
  scopeRow : b.scopes.get? s = some scope
  accepting : scope.phase.isAccepting
  clockRow : b.clocks.get? scope.clock = some k
  ordered : k.Ordered
  sourceRow : b.sources.get? src = some source
  cold : source.temperature = .cold
  home : source.clock = scope.clock

theorem Bench.ready_addSource (hs : b.scopes.get? s = some scope) (ha : scope.phase.isAccepting)
    (hk : b.clocks.get? scope.clock = some k) (hord : k.Ordered)
    (events : List (Timed (Signal α))) :
    (b.addSource .cold scope.clock events).2.Ready s scope k b.sources.next
      { temperature := .cold, clock := scope.clock, events } :=
  ⟨hs, ha, hk, hord, by simp [addSource, Table.get?_push], rfl, rfl⟩

/-- The row of a scope that has just begun. -/
def Scope.begun (c : ClockRef) (options : ScopeOptions) : Scope α σ :=
  { options, clock := c, phase := .active }

theorem Bench.beginScope_row (b : Bench α σ) (options : ScopeOptions) :
    (b.beginScope options).2.scopes.get? b.scopes.next =
      some (Scope.begun b.clocks.next options) := by
  simp [beginScope, addClock, note, modifyScope, Table.get?_modify, Table.get?_push, Scope.begun]

theorem Bench.get?_beginScope_of_ne {t : ScopeRef} (options : ScopeOptions)
    (hne : t ≠ b.scopes.next) :
    (b.beginScope options).2.scopes.get? t = b.scopes.get? t := by
  change ((b.scopes.push _).modify b.scopes.next _).get? t = _
  rw [Table.get?_modify, if_neg (Ne.symm hne), Table.get?_push, if_neg hne]

theorem Bench.beginScope_clock (b : Bench α σ) (options : ScopeOptions) :
    (b.beginScope options).2.clocks.get? b.clocks.next = some {} := by
  simp [beginScope, addClock, note, modifyScope, Table.get?_push]

/-- A scope that has just begun is ready for a cold source. -/
theorem Bench.ready_beginScope (b : Bench α σ) (options : ScopeOptions)
    (events : List (Timed (Signal α))) :
    ((b.beginScope options).2.addSource .cold b.clocks.next events).2.Ready b.scopes.next
      (Scope.begun b.clocks.next options) {} b.sources.next
      { temperature := .cold, clock := b.clocks.next, events } :=
  ready_addSource (b.beginScope_row options) rfl (b.beginScope_clock options) Clock.ordered_fresh
    events

namespace Bench

/-- The bench on which one more assertion is put down for the end of a scope. -/
def entered (b : Bench α σ) (s : ScopeRef) (t : VirtualTime) (a : Assertion α σ) : Bench α σ :=
  (b.modifyScope s (·.take t a)).note (.report (.assertionRegistered s.scopeId t))

theorem register_of_accepting (h : b.accepting s = .ok scope) (t : VirtualTime)
    (a : Assertion α σ) : b.register s t a = (.ok (), b.entered s t a) := by
  simp only [register, h, entered, Scope.take]

theorem accepting_of_scopes {b' : Bench α σ} (hscopes : b'.scopes = b.scopes) :
    b'.accepting s = b.accepting s := by
  simp only [accepting, hscopes]

end Bench

namespace Engine

/-- The watch that an expectation registered on a bench sets up. -/
def watchOf (b : Bench α σ) (c : ClockRef) : Watch := ⟨c, b.recorders.next, b.subscriptions.next⟩

/-- What an expectation registered at an instant expects. -/
def expected (d : Diagram α SequenceError (Effect σ)) (options : ScopeOptions) (t : VirtualTime) :
    List (Timed (Signal α)) :=
  Timeline.shift t (d.notifications options.unit)

/-- When an expectation registered at an instant stops to look. -/
def releaseAt (d : Diagram α SequenceError (Effect σ)) (options : ScopeOptions) (t : VirtualTime) :
    VirtualTime :=
  Timeline.lastTime (expected d options t) t + options.padding

theorem le_releaseAt (d : Diagram α SequenceError (Effect σ)) (options : ScopeOptions)
    (t : VirtualTime) : t ≤ releaseAt d options t := by
  refine le_trans ?_ (VirtualTime.le_add _ _)
  rw [Timeline.lastTime]
  cases h : (expected d options t).getLast? with
  | none => exact le_refl t
  | some e =>
    obtain ⟨x, _, rfl⟩ := List.mem_map.mp (List.mem_of_getLast? h)
    exact VirtualTime.le_add t x.time

theorem step_register (h : b.accepting s = .ok scope) (t : VirtualTime) (a : Assertion α σ) :
    Attempt.step (·.register s t a) b = (.done (.ok ()), b.entered s t a) := by
  rw [Attempt.step, Bench.register_of_accepting h]

/-- What an expectation does: a new recorder subscribes, the end of the recording is queued, and an
assertion is put down. -/
theorem expect_of_subscribe (h : b.accepting s = .ok scope) {q : Sequence α} {sub : SubscriptionRef}
    {b₁ : Bench α σ} (hsubscribe : E.subscribe q (.recorder (b.addRecorder scope.clock).1)
      (b.addRecorder scope.clock).2 = (.done sub, b₁)) (hscopes : b₁.scopes = b.scopes)
    (d : Diagram α SequenceError (Effect σ)) (compare : Compare α) :
    E.expect s q d compare b = (.done (.ok ()),
      (b₁.schedule scope.clock (releaseAt d scope.options (b.now scope.clock))
        (.release b.recorders.next sub)).entered s (releaseAt d scope.options (b.now scope.clock))
          (.events b.recorders.next d.source (expected d scope.options (b.now scope.clock))
            compare)) := by
  have hcheck : Attempt.check (·.accepting s) b = (.done (.ok scope), b) := by
    simp [Attempt.check, h]
  have haccept : (b₁.schedule scope.clock (releaseAt d scope.options (b.now scope.clock))
      (.release b.recorders.next sub)).accepting s = .ok scope :=
    (Bench.accepting_of_scopes hscopes).trans h
  rw [expect, Attempt.bind_ok hcheck, Attempt.read_bind, Attempt.change_bind]
  rw [Attempt.bind_ok (Attempt.lift_done hsubscribe), Attempt.update_bind]
  exact step_register haccept _ _

/-- Registering an expectation of a cold source queues its timeline and, behind it, the end of the
recording. -/
theorem expect_cold (h : b.Ready s scope k src source) (stages : List (Stage α))
    (d : Diagram α SequenceError (Effect σ)) (compare : Compare α) :
    ∃ b₂, E.expect s ⟨.source src, stages⟩ d compare b = (.done (.ok ()), b₂) ∧
      (watchOf b scope.clock).Intact b₂ { clock := scope.clock } ∧
      b₂.clocks.get? scope.clock = some ((watchOf b scope.clock).registered k stages source.events
        (releaseAt d scope.options k.now)) ∧
      b₂.scopes.get? s = some (scope.take (releaseAt d scope.options k.now)
        (.events b.recorders.next d.source (expected d scope.options k.now) compare)) ∧
      b₂.stack = b.stack := by
  have hnow : b.now scope.clock = k.now := by simp [Bench.now, h.clockRow]
  obtain ⟨b₃, hsubscribe, hk₃, hsub₃, hrec₃, hscopes₃, hstack₃⟩ :=
    subscribe_cold (E := E) (b := (b.addRecorder scope.clock).2) h.sourceRow h.cold
      (by rw [h.home]; exact h.clockRow) stages (.recorder (b.addRecorder scope.clock).1)
  have hexpect := expect_of_subscribe (Bench.accepting_eq_ok.mpr ⟨h.scopeRow, h.accepting⟩)
    hsubscribe hscopes₃ d compare
  rw [hnow] at hexpect
  refine ⟨_, hexpect, ⟨?_, rfl, by simp, ?_⟩, ?_, ?_, hstack₃⟩
  · change b₃.recorders.get? b.recorders.next = _
    rw [hrec₃]
    simp [Bench.addRecorder, Table.get?_push]
  · exact ⟨_, hsub₃, rfl, fun _ => rfl⟩
  · rw [h.home] at hk₃
    change (b₃.clocks.modify scope.clock _).get? scope.clock = _
    rw [Table.get?_modify, if_pos rfl, hk₃]
    rfl
  · change (b₃.scopes.modify s _).get? s = _
    rw [Table.get?_modify, if_pos rfl, hscopes₃]
    change (b.scopes.get? s).map _ = _
    rw [h.scopeRow]
    rfl

end Engine

end Marble
