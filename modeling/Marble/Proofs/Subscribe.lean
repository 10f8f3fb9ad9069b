import Marble.Proofs.Picking
import Marble.Proofs.Turns

/-! Subscribing to a cold source: its whole timeline is queued at once, read from now on. -/
namespace Marble

variable {α σ : Type} {sub : SubscriptionRef} {o : Observer α} {offset : VirtualTime}
  {events : List (Timed (Signal α))}

namespace Clock

variable {k : Clock (Action α σ)} {p : Pending (Action α σ)}

/-- Queues a timeline, read from an instant on, to be handed to an observer. -/
def deliverAll (k : Clock (Action α σ)) (sub : SubscriptionRef) (o : Observer α)
    (offset : VirtualTime) (events : List (Timed (Signal α))) : Clock (Action α σ) :=
  events.foldl (fun k e => k.schedule (offset + e.time) (.deliver sub o e.value)) k

theorem deliverAll_cons (k : Clock (Action α σ)) (e : Timed (Signal α)) :
    k.deliverAll sub o offset (e :: events) =
      (k.schedule (offset + e.time) (.deliver sub o e.value)).deliverAll sub o offset events := rfl

theorem deliverAll_eq (k : Clock (Action α σ)) (sub : SubscriptionRef) (o : Observer α)
    (offset : VirtualTime) (events : List (Timed (Signal α))) :
    k.deliverAll sub o offset events =
      k.scheduleAll (.deliver sub o) (Timeline.shift offset events) := by
  rw [deliverAll, scheduleAll, Timeline.shift, List.foldl_map]

@[simp] theorem deliverAll_now : (k.deliverAll sub o offset events).now = k.now := by
  rw [deliverAll_eq, now_scheduleAll]

theorem Ordered.deliverAll (h : k.Ordered) : (k.deliverAll sub o offset events).Ordered := by
  rw [deliverAll_eq]
  exact h.scheduleAll

theorem mem_deliverAll (h : p ∈ (k.deliverAll sub o offset events).queue) :
    p ∈ k.queue ∨ ∃ n, p.action = .deliver sub o n := by
  rw [deliverAll_eq] at h
  rcases mem_scheduleAll h with h | ⟨⟨e, -, ha⟩, -⟩
  · exact Or.inl h
  · exact Or.inr ⟨e.value, ha⟩

theorem length_deliverAll :
    (k.deliverAll sub o offset events).queue.length = k.queue.length + events.length := by
  rw [deliverAll_eq, length_scheduleAll, Timeline.shift, List.length_map]

end Clock

namespace Bench

variable {b : Bench α σ} {src : SourceRef} {row : Source α} {k : Clock (Action α σ)}

theorem foldl_schedule (b : Bench α σ) (c : ClockRef) :
    events.foldl (fun b e => b.schedule c (offset + e.time) (.deliver sub o e.value)) b =
      { b with clocks := b.clocks.modify c (·.deliverAll sub o offset events) } :=
  foldl_schedule_eq (fun e : Timed (Signal α) => offset + e.time)
    (fun e => .deliver sub o e.value) b c events

theorem attach_cold (hsrc : b.sources.get? src = some row) (hcold : row.temperature = .cold)
    (hk : b.clocks.get? row.clock = some k) (o : Observer α) :
    ∃ b', b.attach src o = (b.subscriptions.next, b') ∧
      b'.clocks.get? row.clock = some (k.deliverAll b.subscriptions.next o k.now row.events) ∧
      b'.subscriptions.get? b.subscriptions.next = some { teardown := .leave src row.log.length } ∧
      b'.recorders = b.recorders ∧ b'.scopes = b.scopes ∧ b'.stack = b.stack := by
  have hnow : b.now row.clock = k.now := by simp [now, hk]
  simp only [attach, hsrc, hcold, hnow, addSubscription]
  rw [foldl_schedule]
  exact ⟨_, rfl, by simp [Table.get?_modify, hk], by simp [Table.get?_push], rfl, rfl, rfl⟩

end Bench

theorem Engine.subscribe_cold {E : Engine α σ} {b : Bench α σ} {src : SourceRef} {row : Source α}
    {k : Clock (Action α σ)} (hsrc : b.sources.get? src = some row)
    (hcold : row.temperature = .cold)
    (hk : b.clocks.get? row.clock = some k) (stages : List (Stage α)) (sink : Sink) :
    ∃ b', E.subscribe ⟨.source src, stages⟩ sink b = (.done b.subscriptions.next, b') ∧
      b'.clocks.get? row.clock =
        some (k.deliverAll b.subscriptions.next ⟨stages, sink⟩ k.now row.events) ∧
      b'.subscriptions.get? b.subscriptions.next = some { teardown := .leave src row.log.length } ∧
      b'.recorders = b.recorders ∧ b'.scopes = b.scopes ∧ b'.stack = b.stack := by
  obtain ⟨b', hattach, hb'⟩ := Bench.attach_cold hsrc hcold hk ⟨stages, sink⟩
  refine ⟨b', ?_, hb'⟩
  change (Outcome.done (b.attach src ⟨stages, sink⟩).1, (b.attach src ⟨stages, sink⟩).2) = _
  rw [hattach]

/-- What is left of a timeline behind some stages. -/
def Timeline.through (stages : List (Stage α)) (tl : List (Timed (Signal α))) :
    List (Timed (Signal α)) :=
  tl.filterMap fun e => (Stage.through stages e.value).map fun m => ⟨e.time, m⟩

@[simp] theorem Timeline.through_nil (tl : List (Timed (Signal α))) :
    Timeline.through [] tl = tl := by
  simp [Timeline.through, Stage.through]

theorem Timeline.through_cons {stages : List (Stage α)} {tl : List (Timed (Signal α))}
    (e : Timed (Signal α)) :
    through stages (e :: tl) =
      (Stage.through stages e.value).toList.map (⟨e.time, ·⟩) ++ through stages tl := by
  rw [through, List.filterMap_cons]
  cases Stage.through stages e.value <;> rfl

namespace Watch

variable {w : Watch} {k : Clock (Action α σ)} {pre : List (Timed (Signal α))}
  {cut : VirtualTime → Bool}

/-- What is queued for the recorder comes in the order of time, up to the end of the recording. -/
theorem arrivals_deliverAll (hk : k.Ordered) (hoffset : k.now ≤ offset)
    (ho : o.sink = .recorder w.recorder)
    (hcut : ∀ t, (∃ q ∈ k.queue, w.stops q.action ∧ q.due ≤ t) ↔ cut t)
    (hpre : w.arrivals k.queue = (Timeline.sorted pre).filter fun e => !cut e.time) :
    w.arrivals (k.deliverAll w.sub o offset events).queue =
      (Timeline.sorted (pre ++ Timeline.through o.stages (Timeline.shift offset events))).filter
        fun e => !cut e.time := by
  induction events generalizing k pre with
  | nil => simpa [Clock.deliverAll, Timeline.through, Timeline.shift] using hpre
  | cons e rest ih =>
    have hdue : max (offset + e.time) k.now = offset + e.time :=
      max_eq_left (le_trans hoffset (VirtualTime.le_add _ _))
    have hstop : ∀ t, (∃ q ∈ (k.schedule (offset + e.time) (.deliver w.sub o e.value)).queue,
        w.stops q.action ∧ q.due ≤ t) ↔ cut t := by
      intro t
      rw [← hcut t]
      simp only [Clock.schedule, Clock.mem_enqueue, or_and_right, exists_or]
      simp [stops]
    have hstep : w.arrivals (k.schedule (offset + e.time) (.deliver w.sub o e.value)).queue =
        (Timeline.sorted (pre ++ Timeline.through o.stages (Timeline.shift offset [e]))).filter
          fun e => !cut e.time := by
      rw [Clock.schedule, arrivals_enqueue hk.pairwise_due rfl, hdue, hpre]
      simp only [hcut, arrival?, ho, Timeline.through, Timeline.shift, List.map_cons, List.map_nil,
        List.filterMap_cons, List.filterMap_nil]
      cases Stage.through o.stages e.value with
      | none => simp
      | some m =>
        simp only [Option.map_some, Timeline.sorted_concat]
        rw [Timeline.filter_insert (Timeline.pairwise_sorted pre)]
        cases cut (offset + e.time) <;> simp
    have hcons : Timeline.through o.stages (Timeline.shift offset (e :: rest)) =
        Timeline.through o.stages (Timeline.shift offset [e]) ++
          Timeline.through o.stages (Timeline.shift offset rest) :=
      List.filterMap_append (l := [_])
    rw [Clock.deliverAll_cons, ih (hk.schedule _ _) hoffset hstop hstep, hcons, List.append_assoc]

end Watch

end Marble
