import Marble.Proofs.Broadcast
import Marble.Proofs.Clockwork
import Marble.Proofs.Membership
import Marble.Proofs.Picking

/-! The events of a hot source on its clock: queued when the source is made, each starts once and at
its own time, whatever else is done. -/
namespace Marble

variable {α σ : Type} {s : SourceRef} {k k' : Clock (Action α σ)} {events : List (Timed (Signal α))}
  {evs : List (ClockEvent (Action α σ))} {b b' : Bench α σ} {c : ClockRef}

/-- The event of a source that an action hands out. -/
def Action.event? (s : SourceRef) : Action α σ → Option (Signal α)
  | .multicast t n => if t = s then some n else none
  | _ => none

theorem Action.event?_of_not_isMulticast {a : Action α σ} (h : a.isMulticast = false) :
    a.event? s = none := by
  cases a <;> first | rfl | cases h

/-- The events of a source among actions, with the times they are due. -/
def aired (s : SourceRef) (ps : List (Pending (Action α σ))) : List (Timed (Signal α)) :=
  ps.filterMap fun p => (p.action.event? s).map (⟨p.due, ·⟩)

namespace Clock

/-- A new source has all its events in the queue, in the order of their times. -/
theorem aired_airing (hk : k.Ordered) (hfree : aired s k.queue = [])
    (hnow : ∀ e ∈ events, k.now ≤ e.time) :
    aired s (k.airing s events).queue = Timeline.sorted events :=
  picked_scheduleAll hk (fun _ => if_pos rfl) hfree hnow

/-- With no more events of a source queued, each of them has started or is still to come. -/
theorem Trace.aired (h : Trace k evs k')
    (hevs : ∀ x ∈ evs.filterMap ClockEvent.given?, x.2.event? s = none) :
    Marble.aired s (evs.filterMap ClockEvent.started?) ++ Marble.aired s k'.queue =
      Marble.aired s k.queue := h.picked hevs

/-- Every action starts when it is due. -/
theorem Trace.reading (h : Trace k evs k') (hk : k.Ordered) {due reading : VirtualTime} {i : Nat}
    {action : Action α σ} (he : .started due i reading action ∈ evs) : reading = due := by
  induction h with
  | refl => simp at he
  | queue _ _ _ ih =>
    rcases List.mem_append.mp he with he | he
    · exact ih he
    · simp at he
  | start h hn ih =>
    rcases List.mem_append.mp he with he | he
    · exact ih he
    · obtain ⟨rfl, -, rfl, -⟩ := by simpa using he
      exact (h.ordered hk).now_next? hn
  | park _ _ ih => exact ih he

end Clock

namespace Bench

theorem rostered_empty : ({} : Bench α σ).Rostered where
  entries r s e he := by simp [leaves?, Table.get?] at he
  apart r r' x hx := by simp [leaves?, Table.get?] at hx
  attached s source hs := by simp [Table.get?] at hs

/-- A bench that has come about from an empty one. -/
def Lived (b : Bench α σ) : Prop := Reaches {} b

theorem Lived.rostered (h : b.Lived) : b.Rostered := (Reaches.retains rostered_empty h).rostered

theorem Lived.reaches (h : b.Lived) (h' : Reaches b b') : b'.Lived :=
  Relation.ReflTransGen.trans h h'

/-- Each clock of a bench has a history from its beginning on. -/
theorem Lived.history (h : b.Lived) (c : ClockRef) : ∃ evs, Clock.Trace {} evs (b.clock c) := by
  obtain ⟨evs, hevs⟩ := Reaches.answered h
  have htrace := hevs.trace c
  rw [clock_empty] at htrace
  exact ⟨_, htrace⟩

theorem Lived.ordered (h : b.Lived) (c : ClockRef) : (b.clock c).Ordered := by
  obtain ⟨_, htrace⟩ := h.history c
  exact htrace.ordered Clock.ordered_fresh

/-- The events of a source are queued when it is made, and at no other time. -/
theorem Reaches.answeredBy (hb : b.Rostered) (h : Reaches b b')
    (hs : (b.sources.get? s).isSome ∨ b'.sources.get? s = none) :
    AnsweredBy (fun a => a.event? s = none) b b' := by
  induction h with
  | refl => exact .refl b
  | @tail b₁ b₂ hreach hstep ih =>
    have hretains := Reaches.retains hb hreach
    have hkept : ∀ {source}, b₁.sources.get? s = some source → (b₂.sources.get? s).isSome := by
      intro source hsource
      obtain ⟨source', hsource', -⟩ :=
        (hstep.retaining hretains.rostered).source s source hsource
      simp [hsource']
    have hbefore : (b.sources.get? s).isSome ∨ b₁.sources.get? s = none := by
      rcases hs with hs | hs
      · exact Or.inl hs
      · right
        cases hsource : b₁.sources.get? s with
        | none => rfl
        | some source =>
          have hsome := hkept hsource
          simp [hs] at hsome
    refine (ih hbefore).trans (hstep.answeredBy (fun _ => Action.event?_of_not_isMulticast) ?_)
    intro hnew n
    have hne : b₁.sources.next ≠ s := by
      rintro rfl
      rcases hs with hs | hs
      · obtain ⟨source, hsource⟩ := Option.isSome_iff_exists.mp hs
        obtain ⟨source', hsource', -⟩ := hretains.source _ source hsource
        simp [Table.get?_next] at hsource'
      · simp [hs] at hnew
    exact if_neg hne

/-- No clock has an event of a source that is yet to be made. -/
theorem Lived.aired_eq_nil (h : b.Lived) (hs : b.sources.get? s = none) (c : ClockRef) :
    aired s (b.clock c).queue = [] := by
  obtain ⟨_, _, hclock⟩ := (Reaches.answeredBy rostered_empty h (Or.inr hs)).followsBy
  obtain ⟨evs, htrace, -, hevs⟩ := hclock c
  have haired := htrace.aired hevs
  have hempty : aired s (({} : Bench α σ).clock c).queue = [] := by
    simp [clock, Table.get?, aired]
  rw [hempty] at haired
  exact (List.append_eq_nil_iff.mp haired).2

theorem aired_addSource (hb : b.Lived) (hk : b.clocks.get? c = some k)
    (events : List (Timed (Signal α))) (c' : ClockRef) :
    aired b.sources.next ((b.addSource .hot c events).2.clock c').queue =
      if c' = c then Timeline.sorted (events.filter fun e => decide (b.now c ≤ e.time))
      else [] := by
  have hfree := hb.aired_eq_nil b.sources.get?_next
  obtain ⟨b₁, hadd, -, hk₁⟩ := addSource_hot hk events
  have hnow : b.now c = k.now := by simp [now, hk]
  have hclock : b.clock c = k := by simp [clock, hk]
  rw [hadd]
  by_cases hc : c' = c
  · subst hc
    have hord := hb.ordered c'
    rw [if_pos rfl, clock, hk₁, hnow, Option.getD_some]
    rw [hclock] at hord
    exact Clock.aired_airing hord (hclock ▸ hfree c') fun e he => by
      simpa using (List.mem_filter.mp he).2
  · have hother : b₁.clock c' = b.clock c' := by
      obtain rfl : (b.addSource .hot c events).2 = b₁ := by rw [hadd]
      simp only [addSource, foldl_schedule_eq, clock, Table.get?_modify, if_neg (Ne.symm hc)]
    rw [hother, if_neg hc]
    exact hfree c'

/-- From the making of a hot source on, its events start one after the other in the order of their
times, each at its own, on the clock of the source and no other; those past at the beginning never
do. -/
theorem Lived.airing (hb : b.Lived) (hk : b.clocks.get? c = some k)
    (events : List (Timed (Signal α))) (h : Reaches (b.addSource .hot c events).2 b') :
    ∃ added, b'.log.toList = b.log.toList ++ added ∧ ∀ c', ∃ evs,
      Clock.Trace ((b.addSource .hot c events).2.clock c') evs (b'.clock c') ∧
      evs.filterMap ClockEvent.start? = dispatches c' added ∧
      (∀ due i reading action, .started due i reading action ∈ evs → reading = due) ∧
      aired b.sources.next (evs.filterMap ClockEvent.started?) ++
          aired b.sources.next (b'.clock c').queue =
        (if c' = c then Timeline.sorted (events.filter fun e => decide (b.now c ≤ e.time))
        else []) ∧
      ∀ e ∈ aired b.sources.next (b'.clock c').queue, b'.now c' ≤ e.time := by
  have hmade : Reaches b (b.addSource .hot c events).2 :=
    (Change.plain (.addSource b .hot c events)).reaches
  have hlived := hb.reaches hmade
  have hsource := get?_addSource_next b .hot c events
  obtain ⟨added, hlog, hclock⟩ := (Reaches.answeredBy (s := b.sources.next) hlived.rostered h
    (Or.inl (by simp [hsource]))).followsBy
  refine ⟨added, ?_, fun c' => ?_⟩
  · rw [hlog]
    simp [addSource, foldl_schedule_eq]
  · obtain ⟨evs, htrace, hstarts, hevs⟩ := hclock c'
    have hordered := hlived.ordered c'
    refine ⟨evs, htrace, hstarts, fun _ _ _ _ he => htrace.reading hordered he, ?_, ?_⟩
    · rw [htrace.aired hevs, aired_addSource hb hk]
    · intro e he
      obtain ⟨p, hp, heq⟩ := List.mem_filterMap.mp he
      obtain ⟨_, _, rfl⟩ := Option.map_eq_some_iff.mp heq
      exact (htrace.ordered hordered).due p hp

end Bench

end Marble
