import Marble.Proofs.Picking
import Marble.Proofs.Subscribe

/-! The timeline of a subscription to a cold source in the queue of its clock: what has been
delivered and what is still to come make up the whole of it, and how far it has come is told by what
the clock did last. -/
namespace Marble

variable {α σ β : Type}

/-- The notification that an action delivers to a subscription. -/
def Action.delivery? (r : SubscriptionRef) : Action α σ → Option (Signal α)
  | .deliver t _ n => if t = r then some n else none
  | _ => none

/-- How far a timeline has been gone through: as far as something is due before an instant, or by an
instant, or up to some number of events. -/
inductive Cut where
  | before (t : VirtualTime)
  | upTo (t : VirtualTime)
  | first (n : Nat)

namespace Cut

/-- The part of a timeline that has been gone through. -/
def of : Cut → List (Timed β) → List (Timed β)
  | before t, tl => tl.filter fun e => decide (e.time < t)
  | upTo t, tl => tl.filter fun e => decide (e.time ≤ t)
  | first n, tl => tl.take n

variable {got coming : List (Timed β)} {t : VirtualTime}

theorem before_append (h : ∀ e ∈ got, e.time < t) (h' : ∀ e ∈ coming, t ≤ e.time) :
    (before t).of (got ++ coming) = got := by
  rw [of, List.filter_append, List.filter_eq_self.mpr (by simpa using h),
    List.filter_eq_nil_iff.mpr (by simpa using h'), List.append_nil]

theorem upTo_append (h : ∀ e ∈ got, e.time ≤ t) (h' : ∀ e ∈ coming, t < e.time) :
    (upTo t).of (got ++ coming) = got := by
  rw [of, List.filter_append, List.filter_eq_self.mpr (by simpa using h),
    List.filter_eq_nil_iff.mpr (by simpa using h'), List.append_nil]

theorem first_append : (first got.length).of (got ++ coming) = got := List.take_left

end Cut

/-- A subscription to a cold source: the observer that is to get the events, the clock they are
queued on, and how many actions that clock had been given before. -/
structure Line (α : Type) where
  sub : SubscriptionRef
  observer : Observer α
  clock : ClockRef
  mark : Nat

/-- The cut that the start of an action makes: what is due with it comes first if it was queued
first. -/
def Line.cut (x : Line α) (p : Pending (Action α σ)) : Cut :=
  if p.sequence < x.mark then .before p.due else .upTo p.due

variable {x : Line α} {size : Nat} {tl got : List (Timed (Signal α))} {k k' : Clock (Action α σ)}
  {p : Pending (Action α σ)} {n : Signal α} {limit : VirtualTime}

/-- On its clock, a subscription has got part of its timeline, and the rest is queued under numbers
of its own. -/
structure Line.Awaits (x : Line α) (size : Nat) (tl got : List (Timed (Signal α)))
    (k : Clock (Action α σ)) : Prop where
  ordered : k.Ordered
  whole : got ++ picked (·.delivery? x.sub) k.queue = tl
  own : ∀ p ∈ k.queue, (p.action.delivery? x.sub).isSome ↔
    x.mark ≤ p.sequence ∧ p.sequence < x.mark + size
  observer : ∀ p ∈ k.queue, ∀ o n, p.action = .deliver x.sub o n → o = x.observer
  scheduled : x.mark + size ≤ k.scheduled
  past : ∀ e ∈ got, e.time ≤ k.now
  earlier : ∀ p ∈ k.queue, p.sequence < x.mark → ∀ e ∈ got, e.time < p.due

namespace Line.Awaits

/-- What is to come is not past. -/
theorem coming (h : x.Awaits size tl got k) :
    ∀ e ∈ picked (·.delivery? x.sub) k.queue, k.now ≤ e.time := by
  intro e he
  obtain ⟨p, hp, -, hdue⟩ := mem_picked.mp he
  exact hdue ▸ h.ordered.due p hp

theorem first (h : x.Awaits size tl got k) : got = (Cut.first got.length).of tl := by
  rw [← h.whole, Cut.first_append]

/-- Nothing starts, and nothing is queued for the subscription. -/
theorem trace {evs : List (ClockEvent (Action α σ))} (h : x.Awaits size tl got k)
    (htrace : k.Trace evs k') (hgiven : ∀ y ∈ evs.filterMap ClockEvent.given?,
      y.2.delivery? x.sub = none)
    (hdispatched : k'.dispatched = k.dispatched) : x.Awaits size tl got k' := by
  have hstarted : evs.filterMap ClockEvent.started? = [] := by
    have hcount := htrace.dispatched
    exact List.eq_nil_of_length_eq_zero (by omega)
  have hpicked := htrace.picked hgiven
  rw [hstarted] at hpicked
  have hqueue : ∀ p ∈ k'.queue, p ∈ k.queue ∨
      k.scheduled ≤ p.sequence ∧ p.action.delivery? x.sub = none := fun p hp =>
    (htrace.mem_queue hp).imp_right fun hnew => ⟨hnew.1, hgiven _ hnew.2⟩
  have hscheduled := h.scheduled
  refine ⟨htrace.ordered h.ordered, ?_, ?_, ?_, ?_, ?_, ?_⟩
  · rw [← h.whole, ← hpicked]
    rfl
  · intro p hp
    rcases hqueue p hp with hp | ⟨hlate, hnone⟩
    · exact h.own p hp
    · rw [hnone]
      simp only [Option.isSome_none, Bool.false_eq_true, false_iff]
      omega
  · intro p hp o n ha
    rcases hqueue p hp with hp | ⟨-, hnone⟩
    · exact h.observer p hp o n ha
    · simp [ha, Action.delivery?] at hnone
  · rw [htrace.scheduled]
    omega
  · exact fun e he => le_trans (h.past e he) htrace.now_le
  · intro p hp hlt
    rcases hqueue p hp with hp | ⟨hlate, -⟩
    · exact h.earlier p hp hlt
    · omega

/-- The next event is delivered. -/
theorem told (h : x.Awaits size tl got k) (hn : k.next? limit = some (p, k'))
    (hp : p.action.delivery? x.sub = some n) : x.Awaits size tl (got ++ [⟨p.due, n⟩]) k' := by
  have hordered := h.ordered.next? hn
  have hnow := h.ordered.now_next? hn
  obtain ⟨rest, hq, -, rfl⟩ := Clock.next?_eq_some hn
  have hmem : ∀ q ∈ rest, q ∈ k.queue := fun q hq' => by simp [hq, hq']
  refine ⟨hordered, ?_, fun q hq' => h.own q (hmem q hq'), fun q hq' => h.observer q (hmem q hq'),
    h.scheduled, ?_, ?_⟩
  · rw [← h.whole, hq, picked_cons_some hp, List.append_assoc]
    rfl
  · intro e he
    rw [hnow]
    rcases List.mem_append.mp he with he | he
    · exact le_trans (h.past e he) (h.ordered.due p (by simp [hq]))
    · rw [List.mem_singleton.mp he]
  · intro q hq' hlt e he
    rcases List.mem_append.mp he with he | he
    · exact h.earlier q (hmem q hq') hlt e he
    · rw [List.mem_singleton.mp he]
      -- What was queued before the subscription would have started first, had it been due by then.
      have hown := (h.own p (by simp [hq])).mp (by simp [hp])
      have hord := h.ordered.ordered
      rw [hq] at hord
      rcases (List.pairwise_cons.mp hord).1 q hq' with hdue | ⟨-, hlate⟩
      · exact hdue
      · have hless : p.sequence < q.sequence := hlate
        omega

/-- Another action starts. -/
theorem other (h : x.Awaits size tl got k) (hn : k.next? limit = some (p, k'))
    (hp : p.action.delivery? x.sub = none) : x.Awaits size tl got k' := by
  have hordered := h.ordered.next? hn
  obtain ⟨rest, hq, -, rfl⟩ := Clock.next?_eq_some hn
  have hmem : ∀ q ∈ rest, q ∈ k.queue := fun q hq' => by simp [hq, hq']
  refine ⟨hordered, ?_, fun q hq' => h.own q (hmem q hq'), fun q hq' => h.observer q (hmem q hq'),
    h.scheduled, fun e he => le_trans (h.past e he) (le_max_left _ _),
    fun q hq' => h.earlier q (hmem q hq')⟩
  rw [← h.whole, hq, picked_cons_none hp]

/-- The start of another action tells how far the timeline has come. -/
theorem cut (h : x.Awaits size tl got k) (hn : k.next? limit = some (p, k'))
    (hp : p.action.delivery? x.sub = none) : got = (x.cut p).of tl := by
  obtain ⟨rest, hq, -, -⟩ := Clock.next?_eq_some hn
  have hmem : p ∈ k.queue := by simp [hq]
  have hord := h.ordered.ordered
  rw [hq] at hord
  have hafter : ∀ e ∈ picked (·.delivery? x.sub) k.queue, ∃ q ∈ k.queue,
      (q.action.delivery? x.sub).isSome ∧ Before p.rank q.rank ∧ q.due = e.time := by
    intro e he
    obtain ⟨q, hq', hsome, hdue⟩ := mem_picked.mp he
    refine ⟨q, hq', by simp [hsome], ?_, hdue⟩
    rw [hq] at hq'
    rcases List.mem_cons.mp hq' with rfl | hq'
    · simp [hp] at hsome
    · exact (List.pairwise_cons.mp hord).1 q hq'
  rw [← h.whole, Line.cut]
  split
  next hlt =>
    refine (Cut.before_append (h.earlier p hmem hlt) fun e he => ?_).symm
    obtain ⟨q, -, -, hbefore, hdue⟩ := hafter e he
    rw [← hdue]
    rcases hbefore with hlt | ⟨heq, -⟩
    · exact le_of_lt hlt
    · exact le_of_eq heq
  next hge =>
    refine (Cut.upTo_append (fun e he => le_trans (h.past e he) (h.ordered.due p hmem))
      fun e he => ?_).symm
    obtain ⟨q, hq', hsome, hbefore, hdue⟩ := hafter e he
    rw [← hdue]
    rcases hbefore with hlt | ⟨-, hlate⟩
    · exact hlt
    · have hless : p.sequence < q.sequence := hlate
      have hown := (h.own q hq').mp hsome
      have hnot := (h.own p hmem).not.mp (by simp [hp])
      omega

theorem park (h : x.Awaits size tl got k) (hn : k.next? limit = none) :
    x.Awaits size tl got (k.park limit) where
  ordered := h.ordered.park hn
  whole := h.whole
  own := h.own
  observer := h.observer
  scheduled := h.scheduled
  past e he := le_trans (h.past e he) (le_max_left _ _)
  earlier := h.earlier

/-- So does an instant up to which nothing is left that is due. -/
theorem cut_park (h : x.Awaits size tl got k) (hn : k.next? limit = none) (hle : k.now ≤ limit) :
    got = (Cut.upTo limit).of tl := by
  rw [← h.whole]
  refine (Cut.upTo_append (fun e he => le_trans (h.past e he) hle) ?_).symm
  exact lt_of_mem_picked (h.ordered.lt_of_next?_eq_none hn)

end Line.Awaits

namespace Clock

/-- On a clock that knows nothing of it, a new subscription awaits its whole timeline. -/
theorem awaits_deliverAll (hk : k.Ordered) {r : SubscriptionRef}
    (hfree : ∀ p ∈ k.queue, p.action.delivery? r = none) (o : Observer α) (c : ClockRef)
    (events : List (Timed (Signal α))) :
    (Line.mk r o c k.scheduled).Awaits events.length
      (Timeline.sorted (Timeline.shift k.now events)) [] (k.deliverAll r o k.now events) := by
  have hdelivery : ∀ n, (Action.deliver r o n : Action α σ).delivery? r = some n :=
    fun _ => if_pos rfl
  have hlength : (Timeline.shift k.now events).length = events.length := List.length_map _
  have hmem : ∀ p ∈ (k.deliverAll r o k.now events).queue, p ∈ k.queue ∨
      (∃ n, p.action = .deliver r o n) ∧ k.scheduled ≤ p.sequence ∧
        p.sequence < k.scheduled + events.length := by
    intro p hp
    rw [deliverAll_eq] at hp
    rw [← hlength]
    exact (mem_scheduleAll hp).imp_right fun h => ⟨⟨_, h.1.choose_spec.2⟩, h.2⟩
  refine ⟨hk.deliverAll, ?_, ?_, ?_, ?_, by simp, by simp⟩
  · rw [deliverAll_eq, List.nil_append, picked_scheduleAll hk hdelivery (picked_eq_nil hfree)]
    intro e he
    obtain ⟨e', -, rfl⟩ := List.mem_map.mp he
    exact VirtualTime.le_add _ _
  · intro p hp
    rcases hmem p hp with hp | ⟨⟨n, ha⟩, hnumber⟩
    · have hlt := hk.number p hp
      simp only [hfree p hp, Option.isSome_none, Bool.false_eq_true, false_iff]
      omega
    · simp [ha, hdelivery, hnumber]
  · intro p hp o' n ha
    rcases hmem p hp with hp | ⟨⟨n', ha'⟩, -⟩
    · have hnone := hfree p hp
      simp [ha, Action.delivery?] at hnone
    · exact (Action.deliver.inj (ha.symm.trans ha')).2.1
  · rw [deliverAll_eq, scheduled_scheduleAll, hlength]

end Clock

end Marble
