import Marble.Proofs.ColdRuns

/-! Subscriptions to a cold source are independent: what each gets is its own timeline up to its own
end, whoever else subscribes to the source or to any other, and whatever else is done. -/
namespace Marble

open Bench

variable {α σ τ : Type}

theorem Engine.perform_delivery (E : Engine α σ) (r : SubscriptionRef) (o : Observer α)
    (n : Signal α) (b : Bench α σ) :
    E.perform (.deliver r o n) b = if b.isActive r then E.notify o n b else (.done (), b) := by
  rw [perform, Run.read_bind]
  split <;> rfl

namespace Bench

variable {b b' b'' : Bench α σ} {d d' : Bench α τ} {events : List (Timed (Signal α))}
  {t : VirtualTime} {x y : Line α} {got got' : List (Timed (Signal α))} {cut cut' : Cut}

/-- As long as a subscription is active, each of its events has come once or is queued once, on the
clock of its source, and that clock stands between the ones and the others. -/
theorem Told.coming (hx : Subscribed events t x b) (h : Told x b got cut b')
    (ha : b'.isActive x.sub) : ∃ coming, got ++ coming = Timeline.sorted (Timeline.shift t events) ∧
      (∀ c, picked (·.delivery? x.sub) (b'.clock c).queue = if c = x.clock then coming else []) ∧
      (∀ e ∈ got, e.time ≤ b'.now x.clock) ∧ ∀ e ∈ coming, b'.now x.clock ≤ e.time := by
  obtain ⟨-, -, hawaits⟩ := h.spec hx
  obtain ⟨-, hhome, helsewhere⟩ := hawaits ha
  refine ⟨_, hhome.whole, fun c => ?_, hhome.past, hhome.coming⟩
  split
  next hc => rw [hc]
  next hc => exact picked_eq_nil (helsewhere c hc)

/-- Once a subscription has been disposed, nothing that is done tells its observer any more. -/
theorem Told.disposed (hx : Subscribed events t x b) (h : Told x b got cut b')
    (ha : b'.isActive x.sub = false) (hmoves : Moves b' b'') :
    b''.isActive x.sub = false ∧ Told x b got cut b'' := by
  obtain ⟨hgrown, -, hawaiting⟩ := hx.awaiting
  obtain ⟨hbefore, -, -⟩ := h.spec hx
  have hmade := Nat.lt_of_lt_of_le hawaiting.made (hgrown.retains hbefore).next
  have hover : ∀ {b₁}, Moves b' b₁ → b₁.isActive x.sub = false := by
    intro b₁ hmoves₁
    have hkept := ((hgrown.moves hbefore).retains hmoves₁).active x.sub hmade
    rw [ha] at hkept
    exact Bool.eq_false_iff.mpr fun h => Bool.false_ne_true (hkept h)
  refine ⟨hover hmoves, ?_⟩
  induction hmoves with
  | refl => exact h
  | tail hmoves₁ hmove ih =>
    exact ih.aside hmove fun h => by simp [hover hmoves₁] at h

/-- Two subscribers, on whatever benches, that have come to the same cut of the same timeline have
been told the same. -/
theorem Told.independent (hx : Subscribed events t x b) (hy : Subscribed events t y d)
    (h : Told x b got cut b') (h' : Told y d got' cut d') : got = got' := by
  obtain ⟨-, hgot, -⟩ := h.spec hx
  obtain ⟨-, hgot', -⟩ := h'.spec hy
  exact hgot.trans hgot'.symm

theorem filter_before {tl coming : List (Timed (Signal α))} {u : VirtualTime}
    (hwhole : got ++ coming = tl) (hcoming : ∀ e ∈ coming, u ≤ e.time) :
    got.filter (fun e => decide (e.time < u)) = tl.filter fun e => decide (e.time < u) := by
  have hnone : coming.filter (fun e => decide (e.time < u)) = [] :=
    List.filter_eq_nil_iff.mpr (by simpa using hcoming)
  rw [← hwhole, List.filter_append, hnone, List.append_nil]

/-- Whatever has made the cuts, two subscribers that are still there at some instant have been told
the same of all that is due before, and nothing that is due later. -/
theorem Told.instant (hx : Subscribed events t x b) (hy : Subscribed events t y d)
    (h : Told x b got cut b') (h' : Told y d got' cut' d') (ha : b'.isActive x.sub)
    (ha' : d'.isActive y.sub) {u : VirtualTime} (hu : b'.now x.clock = u)
    (hu' : d'.now y.clock = u) :
    got.filter (fun e => decide (e.time < u)) = got'.filter (fun e => decide (e.time < u)) ∧
      (∀ e ∈ got, e.time ≤ u) ∧ ∀ e ∈ got', e.time ≤ u := by
  obtain ⟨coming, hwhole, -, hpast, hcoming⟩ := h.coming hx ha
  obtain ⟨coming', hwhole', -, hpast', hcoming'⟩ := h'.coming hy ha'
  rw [hu] at hpast hcoming
  rw [hu'] at hpast' hcoming'
  exact ⟨(filter_before hwhole hcoming).trans (filter_before hwhole' hcoming').symm, hpast, hpast'⟩

end Bench

/-- Subscribing to a cold source succeeds, and the subscription is active. -/
theorem Engine.subscribe_line {E : Engine α σ} {b : Bench α σ} {s : SourceRef} {source : Source α}
    (hb : b.Grown) (hs : b.sources.get? s = some source) (hcold : source.temperature = .cold)
    (hclock : (b.clocks.get? source.clock).isSome) (stages : List (Stage α)) (k : Sink) :
    ∃ b', E.subscribe ⟨.source s, stages⟩ k b = (.done (b.line source ⟨stages, k⟩).sub, b') ∧
      Subscribed source.events (b.now source.clock) (b.line source ⟨stages, k⟩) b' ∧
      b'.isActive (b.line source ⟨stages, k⟩).sub := by
  obtain ⟨row, hrow⟩ := Option.isSome_iff_exists.mp hclock
  obtain ⟨b', hattach, -⟩ := attach_cold hs hcold hrow ⟨stages, k⟩
  have hx := Subscribed.attach hb hs hcold hclock ⟨stages, k⟩
  rw [hattach] at hx
  refine ⟨b', ?_, hx, hx.awaiting.2.1⟩
  change (Outcome.done (b.attach s ⟨stages, k⟩).1, (b.attach s ⟨stages, k⟩).2) = _
  rw [hattach]
  rfl

namespace Scenario

theorem grown_fresh : (fresh : Bench α (Callback α)).Grown :=
  (Relation.ReflTransGen.single (.basic (.aside (.addClock {}) (clock_addClock {})))).tail
    (.basic (.aside (.rename _ rfl) fun _ => rfl))

variable [Shown α]

/-- What holds of the subscriptions to cold sources under an engine. -/
structure ColdIndependence (E : Engine α (Callback α)) : Prop where
  /-- The benches spoken of are all those that scripts come to. -/
  script (script : Script α) : (after E script fresh).Grown
  /-- What is done to a bench are moves, whether a command is carried out from outside, -/
  command (c : Command α) (b : Bench α (Callback α)) : Moves b (perform E c b).2
  /-- or a callback is called, wherever that may be. -/
  callback (f : Callback α) (b : Bench α (Callback α)) : Moves b (E.call f b).2
  /-- What starts is carried out before anything else starts. -/
  turn {b b' : Bench α (Callback α)} {c : ClockRef} {limit : VirtualTime} {fuel : Nat}
    {a : Action α (Callback α)} (h : b.next? c limit = some (a, b')) :
    E.drainWith c limit (fuel + 1) b = (E.perform a >>= fun _ => E.drainWith c limit fuel) b'
  /-- A delivery that starts tells the observer, unless the subscription has been disposed. -/
  delivers (r : SubscriptionRef) (o : Observer α) (n : Signal α) (b : Bench α (Callback α)) :
    E.perform (.deliver r o n) b = if b.isActive r then E.notify o n b else (.done (), b)
  /-- Who subscribes gets a subscription of its own. -/
  subscribes {b : Bench α (Callback α)} {s : SourceRef} {source : Source α} (hb : b.Grown)
    (hs : b.sources.get? s = some source) (hcold : source.temperature = .cold)
    (hclock : (b.clocks.get? source.clock).isSome) (stages : List (Stage α)) (k : Sink) :
    ∃ b', E.subscribe ⟨.source s, stages⟩ k b = (.done (b.line source ⟨stages, k⟩).sub, b') ∧
      Subscribed source.events (b.now source.clock) (b.line source ⟨stages, k⟩) b' ∧
      b'.isActive (b.line source ⟨stages, k⟩).sub
  /-- Whatever is done from then on, it is told something up to some cut, -/
  told {b b' : Bench α (Callback α)} {events : List (Timed (Signal α))} {t : VirtualTime}
    {x : Line α} (hx : Subscribed events t x b) (h : Moves b b') : ∃ got cut, Told x b got cut b'
  /-- which is the timeline of the source, read from its own subscription on and in the order of
  time, up to that cut. -/
  timeline {b b' : Bench α (Callback α)} {events : List (Timed (Signal α))} {t : VirtualTime}
    {x : Line α} {got : List (Timed (Signal α))} {cut : Cut} (hx : Subscribed events t x b)
    (h : Told x b got cut b') : got = cut.of (Timeline.sorted (Timeline.shift t events))
  /-- Until the subscription is disposed, every other event is queued once, and the clock stands
  between what has come and what is to come. -/
  coming {b b' : Bench α (Callback α)} {events : List (Timed (Signal α))} {t : VirtualTime}
    {x : Line α} {got : List (Timed (Signal α))} {cut : Cut} (hx : Subscribed events t x b)
    (h : Told x b got cut b') (ha : b'.isActive x.sub) :
    ∃ coming, got ++ coming = Timeline.sorted (Timeline.shift t events) ∧
      (∀ c, picked (·.delivery? x.sub) (b'.clock c).queue = if c = x.clock then coming else []) ∧
      (∀ e ∈ got, e.time ≤ b'.now x.clock) ∧ ∀ e ∈ coming, b'.now x.clock ≤ e.time
  /-- Afterwards nothing more is told. -/
  disposed {b b' b'' : Bench α (Callback α)} {events : List (Timed (Signal α))} {t : VirtualTime}
    {x : Line α} {got : List (Timed (Signal α))} {cut : Cut} (hx : Subscribed events t x b)
    (h : Told x b got cut b') (ha : b'.isActive x.sub = false) (hmoves : Moves b' b'') :
    b''.isActive x.sub = false ∧ Told x b got cut b''
  /-- In any two runs, whoever else subscribes or does not, a subscription that is made at the same
  instant and comes to the same cut is told the same. -/
  independent {b b' d d' : Bench α (Callback α)} {events : List (Timed (Signal α))}
    {t : VirtualTime} {x y : Line α} {got got' : List (Timed (Signal α))} {cut : Cut}
    (hx : Subscribed events t x b) (hy : Subscribed events t y d) (h : Told x b got cut b')
    (h' : Told y d got' cut d') : got = got'
  /-- In particular, one that is disposed at the same instant: it is told the same before that
  instant, and nothing after it. Only what is due just then depends on what comes first, which is
  the cut. -/
  instant {b b' d d' : Bench α (Callback α)} {events : List (Timed (Signal α))} {t u : VirtualTime}
    {x y : Line α} {got got' : List (Timed (Signal α))} {cut cut' : Cut}
    (hx : Subscribed events t x b) (hy : Subscribed events t y d) (h : Told x b got cut b')
    (h' : Told y d got' cut' d') (ha : b'.isActive x.sub) (ha' : d'.isActive y.sub)
    (hu : b'.now x.clock = u) (hu' : d'.now y.clock = u) :
    got.filter (fun e => decide (e.time < u)) = got'.filter (fun e => decide (e.time < u)) ∧
      (∀ e ∈ got, e.time ≤ u) ∧ ∀ e ∈ got', e.time ≤ u

/-- Each subscriber of a cold source is told the timeline of the source, read from its own
subscription on and cut at its own disposal, whatever other subscribers there are and whatever they
do. -/
theorem coldIndependence (fuel : Nat) : ColdIndependence (Callback.engine (α := α) fuel) := by
  have hE := Callback.permits_engine (α := α) (R := Moves) fuel
  exact {
    script := fun script =>
      grown_fresh.moves (keeps_foldl (fun b c => lawful_perform hE c b) fresh script)
    command := fun c b => lawful_perform hE c b
    callback := fun f b => hE f b
    turn := fun h => Engine.drainWith_turn h
    delivers := fun r o n b => Engine.perform_delivery _ r o n b
    subscribes := fun hb hs hcold hclock stages k =>
      Engine.subscribe_line hb hs hcold hclock stages k
    told := fun hx h => hx.told h
    timeline := fun hx h => (h.spec hx).2.1
    coming := fun hx h ha => h.coming hx ha
    disposed := fun hx h ha hmoves => h.disposed hx ha hmoves
    independent := fun hx hy h h' => h.independent hx hy h'
    instant := fun hx hy h h' ha ha' hu hu' => h.instant hx hy h' ha ha' hu hu' }

end Scenario

end Marble
