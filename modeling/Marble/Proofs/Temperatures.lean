import Marble.Proofs.Interference

/-! A source that is made when the clock of a scope has not moved yet: hot or cold, it is heard
alike by whoever begins to listen at once. A hot one has its events queued before anybody listens
and tells all observers at once, a cold one queues them for each; what a recorder takes in does not
show which it was. -/
namespace Marble

open Bench

variable {α σ : Type} {E : Engine α σ} {b b' b'' b₁ : Bench α σ} {s : ScopeRef} {c : ClockRef}
  {options : ScopeOptions} {ts : List VirtualTime} {asserted : List (Assertion α σ)}
  {limit : VirtualTime} {tl : List (Timed (Signal α))} {tap : Tap α} {row : Recorder α}

/-! ### What is heard from the beginning on -/

theorem VirtualTime.zero_add (t : VirtualTime) : zero + t = t := by
  ext
  simpa [add_ticks, zero] using t.ticks_le

theorem Timeline.shift_zero {β : Type} (tl : List (Timed β)) : Timeline.shift .zero tl = tl := by
  simp [Timeline.shift, VirtualTime.zero_add]

/-- Who listens from the beginning on hears all that a new source has to say, whatever its
temperature. -/
theorem Score.heard_new {sc : Score α} (hnow : sc.now = .zero) (temperature : Temperature)
    (events : List (Timed (Signal α))) :
    ((sc.step (.source temperature sc.clock events : ScopeCall α σ)).tape sc.next).heard .zero =
      Timeline.sorted events := by
  have hall : ∀ e : Timed (Signal α), VirtualTime.zero ≤ e.time := fun e => Nat.zero_le _
  cases temperature with
  | cold => simp [Score.step, Source.tape, Tape.heard, Timeline.shift_zero]
  | hot => simp [Score.step, Source.tape, Tape.heard, opening, hnow, hall]

/-- Either it has queued its events when it is made, or it does when somebody begins to listen. -/
theorem Score.length_new (sc : Score α) (temperature : Temperature)
    (events : List (Timed (Signal α))) :
    (opening temperature sc.clock sc.clock sc.now events).length +
      ((sc.step (.source temperature sc.clock events : ScopeCall α σ)).tape sc.next).length ≤
        events.length := by
  cases temperature with
  | cold => simp [Score.step, Source.tape, Tape.length, opening]
  | hot => simpa [Score.step, Source.tape, Tape.length, opening] using List.length_filter_le _ _

/-- What is taken in for an expectation of a source with these events, both from the beginning on:
what is due no later than its release, behind its stages and up to the first terminal. -/
def Expectation.heard (x : Expectation α σ) (options : ScopeOptions)
    (events : List (Timed (Signal α))) : List (Timed (Signal α)) :=
  Timeline.untilTerminal (Timeline.through x.stages
    ((Timeline.sorted events).filter fun e => decide (e.time ≤ x.due options .zero)))

/-- What the check of an expectation comes to when this has been taken in for it from the beginning
on. -/
def Expectation.answer [Shown α] (x : Expectation α σ) (options : ScopeOptions)
    (events : List (Timed (Signal α))) : Except Error Unit :=
  checkEvents x.compare options.grid (x.heard options events)
    (Engine.expected x.diagram options .zero)

theorem Expectation.timeline_new (sc : Score α) (hnow : sc.now = .zero) {x : Expectation α σ}
    (hx : x.source = sc.next) (temperature : Temperature) (events : List (Timed (Signal α))) :
    x.timeline options (sc.step (.source temperature sc.clock events : ScopeCall α σ)) =
      x.heard options events := by
  have hnow' : (sc.step (.source temperature sc.clock events : ScopeCall α σ)).now = .zero := hnow
  rw [timeline, hnow', hx, Score.heard_new hnow, heard]

/-! ### Driving the clock of an open scope -/

namespace Bench

/-- How an open scope is left when its clock has been driven: still open, with no more queued than
before, and what a recorder is going to have taken in is what it was. -/
structure Waits (s : ScopeRef) (c : ClockRef) (options : ScopeOptions) (ts : List VirtualTime)
    (asserted : List (Assertion α σ)) (b b' : Bench α σ) : Prop where
  staged : b'.Staged s c options ts asserted
  queue : (b'.clock c).queue.length ≤ (b.clock c).queue.length
  stack : b'.stack = b.stack
  tracks : ∀ (x : Tap α) limit tl row, x.Tracks c limit tl b row →
    ∃ row', x.Tracks c limit tl b' row'

theorem Staged.waits (h : b.Staged s c options ts asserted) : Waits s c options ts asserted b b :=
  ⟨h, Nat.le_refl _, rfl, fun _ _ _ row hx => ⟨row, hx⟩⟩

theorem Waits.trans (h : Waits s c options ts asserted b b')
    (h' : Waits s c options ts asserted b' b'') : Waits s c options ts asserted b b'' where
  staged := h'.staged
  queue := Nat.le_trans h'.queue h.queue
  stack := h'.stack.trans h.stack
  tracks x limit tl row hx := by
    obtain ⟨row', hx'⟩ := h.tracks x limit tl row hx
    exact h'.tracks x limit tl row' hx'

theorem Staged.waits_park (h : b.Staged s c options ts asserted) (hn : b.next? c limit = none) :
    Waits s c options ts asserted b (b.park c limit) where
  staged := h.of_scopes (h.toQuiet.park hn) rfl
  queue := by rw [queue_park]
  stack := rfl
  tracks x _ _ row hx := ⟨row, hx.park limit⟩

/-- Turns of the clock leave an open scope waiting. -/
theorem Staged.waits_runs {ran : List (Pending (Action α σ))} (hE : E.Lawful)
    (h : b.Staged s c options ts asserted) (hruns : E.Runs c limit b ran b') :
    Waits s c options ts asserted b b' := by
  obtain ⟨hquiet, hplayed⟩ := h.toQuiet.runs hE hruns
  refine ⟨h.of_scopes hquiet hplayed.scopes, ?_, hplayed.stack,
    fun x _ _ _ hx => hx.runs hE h.toQuiet hruns⟩
  have hlength := congrArg List.length hplayed.queue
  rw [List.length_append] at hlength
  omega

/-- The clock can be driven in any way. -/
theorem Staged.waits_drive (hE : E.Lawful) (h : b.Staged s c options ts asserted)
    (hfuel : (b.clock c).queue.length < E.fuel) (d : Drive) :
    ∃ b', E.drive c d b = (.done (), b') ∧ Waits s c options ts asserted b b' := by
  have hadvance : ∀ target, ∃ b', E.advanceTo c target b = (.done (), b') ∧
      Waits s c options ts asserted b b' := by
    intro target
    obtain ⟨ran, b₁, hruns, hnext, hdone⟩ := h.toQuiet.advanceTo hE hfuel target
    have hwaits := h.waits_runs hE hruns
    exact ⟨_, hdone, hwaits.trans (hwaits.staged.waits_park hnext)⟩
  cases d with
  | advanceTo target => exact hadvance target
  | advanceBy delay => exact hadvance (b.now c + delay)
  | runUntilIdle =>
    obtain ⟨ran, b₁, hruns, hdone⟩ := (h.toQuiet.eachTurn hE hfuel .never).drain
    exact ⟨b₁, hdone, h.waits_runs hE hruns⟩

theorem Staged.waits_drives (hE : E.Lawful) (h : b.Staged s c options ts asserted)
    (hfuel : (b.clock c).queue.length < E.fuel) (drives : List Drive) :
    ∃ b', Run.each (E.drive c) drives b = (.done (), b') ∧ Waits s c options ts asserted b b' := by
  refine Run.each_done_of (P := fun b' => Waits s c options ts asserted b b') ?_ h.waits
  intro d _ b₁ hwaits
  obtain ⟨b₂, hdrive, hwaits₂⟩ :=
    hwaits.staged.waits_drive hE (Nat.lt_of_le_of_lt hwaits.queue hfuel) d
  exact ⟨b₂, hdrive, hwaits.trans hwaits₂⟩

end Bench

namespace Engine

/-! ### The end of a scope with one expectation -/

theorem recorders_relinquish (s : ScopeRef) (outcome : Outcome (Except Error Unit))
    (b : Bench α σ) : (relinquish s outcome b).recorders = b.recorders := by
  rcases relinquish_cases s outcome b with he | he <;> rw [he]
  rfl

/-- A scope for whose end one expectation has been put down answers with its outcome, and its
recorder is left with what it was going to have taken in. -/
theorem endScope_expecting [Shown α] (hE : E.Lawful) {x : Expectation α σ}
    {t : VirtualTime} {rest : List ScopeRef}
    (h : b.Staged s c options ts [x.assertion options t tap.recorder])
    (htap : tap.Tracks c limit tl b row) (hlimit : limit ≤ latest ts)
    (hfuel : (b.clock c).queue.length < E.fuel) (hstack : b.stack = s :: rest) :
    ∃ b', E.endScope s b =
        (.done (checkEvents x.compare options.grid tl (expected x.diagram options t)), b') ∧
      b'.messages tap.recorder = tl := by
  obtain ⟨b₁, hadvance, hscopes, hrecorded⟩ := recorded_closing hE h htap hlimit hfuel
  have hrow := h.row
  rw [Scope.begun_owing] at hrow
  have htaken : (b₁.modifyScope s fun scope => { scope with pending := [] }).Recorded
      tap.recorder tl := hrecorded.congr rfl
  obtain ⟨b₂, hverify⟩ := verify_events_done (E := E) (s := s) options.grid tap.recorder
    x.diagram.source (expected x.diagram options t) x.compare
      (b₁.modifyScope s fun scope => { scope with pending := [] })
  rw [htaken.messages] at hverify
  obtain ⟨b₃, houtcomes⟩ := outcomes_singleton hverify 0
  have hjudge : E.judge s b =
      (.done [checkEvents x.compare options.grid tl (expected x.diagram options t)], b₃) := by
    refine (judge_eq_done hrow).mpr ⟨b₁, hadvance, ?_⟩
    rw [hscopes, row_closing h, Scope.begun_owing]
    exact houtcomes
  have hend := endScope_of_settle hstack (settle_of_judge hrow hjudge)
  rw [verdict_singleton] at hend
  have hchecked := respects_outcomes hE s options.grid 0
    [.events tap.recorder x.diagram.source (expected x.diagram options t) x.compare]
    (b₁.modifyScope s fun scope => { scope with pending := [] })
  rw [houtcomes] at hchecked
  have hover := hchecked.recorded htaken
  refine ⟨_, hend, Recorded.messages ?_⟩
  exact hover.congr (recorders_relinquish s _ _)

/-! ### Hot and cold -/

theorem le_latest_singleton (t : VirtualTime) : t ≤ latest [t] :=
  (VirtualTime.le_foldl_max [t] .zero).2 t (by simp)

/-- A source is made in a scope that has just begun, and is expected to behave in some way. -/
theorem expecting_new (hb : b.Lived) (options : ScopeOptions) (events : List (Timed (Signal α)))
    (x : Expectation α σ) (hx : x.source = b.sources.next) (temperature : Temperature) :
    ∃ b₁ tap,
      E.play b.scopes.next b.clocks.next [.source temperature b.clocks.next events, .expect x]
        (b.beginScope options).2 = (.done (.ok ()), b₁) ∧
      b₁.Staged b.scopes.next b.clocks.next options [x.due options .zero]
        [x.assertion options .zero tap.recorder] ∧
      Tap.Tracks tap b.clocks.next (x.due options .zero) (x.heard options events) b₁
        { clock := b.clocks.next } ∧ tap.recorder = b.recorders.next ∧
      (b₁.clock b.clocks.next).queue.length ≤ events.length + 1 ∧
      b₁.stack = b.scopes.next :: b.stack := by
  have hbegun := staged_beginScope hb options
  have hclock : (b.beginScope options).2.clock b.clocks.next = {} := by
    simp [Bench.clock, b.beginScope_clock options]
  have hzero : (b.beginScope options).2.now b.clocks.next = .zero := congrArg Clock.now hclock
  obtain ⟨hrecorders, -, -, hscopes, hstack⟩ :=
    (b.beginScope options).2.addSource_fields temperature b.clocks.next events
  have hscore := score_addSource hbegun.toQuiet temperature b.clocks.next events
  have hmade := hbegun.of_scopes (hbegun.addSource temperature b.clocks.next events) hscopes
  have hqueue := clock_addSource hbegun.clock temperature b.clocks.next events
  have hsource : E.play b.scopes.next b.clocks.next [.source temperature b.clocks.next events]
      (b.beginScope options).2 = (.done (.ok ()), _) := play_one rfl
  generalize ((b.beginScope options).2.addSource temperature b.clocks.next events).2 = b₁ at *
  have hnow : b₁.now b.clocks.next = .zero := (congrArg Score.now hscore).trans hzero
  have hexpects := performs_expect (E := E) hmade x
  have htap : (b₁.tap x.source x.stages).Tracks b.clocks.next (x.due options (b₁.now b.clocks.next))
      (x.timeline options (b₁.score b.clocks.next))
      (b₁.expecting b.scopes.next b.clocks.next options x) { clock := b.clocks.next } :=
    hmade.toQuiet.tracks_expecting x
  have hheard : x.timeline options (b₁.score b.clocks.next) = x.heard options events := by
    rw [hscore]
    exact x.timeline_new ((b.beginScope options).2.score b.clocks.next) hzero hx temperature events
  rw [hnow] at hexpects
  rw [hnow, hheard] at htap
  refine ⟨_, b₁.tap x.source x.stages, (play_append hsource).trans hexpects.run,
    hexpects.staged, htap, congrArg Table.next hrecorders, ?_, hexpects.carries.stack.trans hstack⟩
  have hlength :=
    ((b.beginScope options).2.score b.clocks.next).length_new (σ := σ) temperature events
  calc ((b₁.expecting b.scopes.next b.clocks.next options x).clock b.clocks.next).queue.length
    _ ≤ (b₁.clock b.clocks.next).queue.length + (b₁.score b.clocks.next).load [.expect x] :=
      hexpects.carries.queue
    _ = (opening temperature b.clocks.next b.clocks.next
          ((b.beginScope options).2.now b.clocks.next) events).length +
        (((b₁.score b.clocks.next).tape x.source).length + 1) := by
      rw [hqueue, Clock.length_scheduleAll, hclock, List.length_nil, Nat.zero_add]
      rfl
    _ ≤ events.length + 1 := by
      rw [hscore, hx, ← Nat.add_assoc]
      exact Nat.add_le_add_right hlength 1

variable [Shown α]

/-- How a scope goes on that begins on a bench, when a source is made in it and expected to behave
in some way before its clock moves. -/
structure Unfolds (E : Engine α σ) (b : Bench α σ) (options : ScopeOptions)
    (temperature : Temperature) (events : List (Timed (Signal α))) (x : Expectation α σ)
    (drives : List Drive) (outcome : Except Error Unit) (tl : List (Timed (Signal α)))
    (b₁ b₂ b₃ : Bench α σ) : Prop where
  /-- Both calls go through, -/
  made : E.play b.scopes.next b.clocks.next [.source temperature b.clocks.next events, .expect x]
    (b.beginScope options).2 = (.done (.ok ()), b₁)
  /-- the clock is driven, however often and in whichever way, -/
  driven : Run.each (E.drive b.clocks.next) drives b₁ = (.done (), b₂)
  /-- the scope ends with this answer, -/
  ended : E.endScope b.scopes.next b₂ = (.done outcome, b₃)
  /-- and the recorder of the expectation has taken this in. -/
  recorded : b₃.messages b.recorders.next = tl

/-- In a scope that has just begun, a source of any temperature is heard alike by an expectation
that is made before the clock moves: the answer of the scope and what has been recorded are the
same, and both can be told from the events of the source. There has to be fuel for all that is
queued. -/
theorem temperatures_agree (hE : E.Lawful) (hb : b.Lived) (options : ScopeOptions)
    (events : List (Timed (Signal α))) (x : Expectation α σ) (hx : x.source = b.sources.next)
    (drives : List Drive) (hfuel : events.length + 1 < E.fuel) (temperature : Temperature) :
    ∃ b₁ b₂ b₃, E.Unfolds b options temperature events x drives (x.answer options events)
      (x.heard options events) b₁ b₂ b₃ := by
  obtain ⟨b₁, tap, hplay, hstaged, htap, hrecorder, hqueue, hstack⟩ :=
    expecting_new (E := E) hb options events x hx temperature
  obtain ⟨b₂, hdrive, hwaits⟩ := hstaged.waits_drives hE (by omega) drives
  obtain ⟨row, htap₂⟩ := hwaits.tracks _ _ _ _ htap
  obtain ⟨b₃, hend, hmessages⟩ := endScope_expecting hE hwaits.staged htap₂
    (le_latest_singleton _) (by have := hwaits.queue; omega)
    (hwaits.stack.trans hstack)
  exact ⟨b₁, b₂, b₃, hplay, hdrive, hend, hrecorder ▸ hmessages⟩

end Engine

namespace Scenario

/-- Two values at the beginning, another one, and the end. -/
def counting : List (Timed (Signal Int64)) :=
  [⟨.zero, .next 6⟩, ⟨.zero, .next 9⟩, ⟨.clamp 10, .next 7⟩, ⟨.clamp 20, .completed⟩]

/-- One value is dropped, the others are counted up. The end comes exactly at the release. -/
def hearingCounted : Expectation Int64 (Callback Int64) where
  source := ⟨0⟩
  stages := [.filter fun v => v != 9, .map fun v => v + 1]
  silent := by simp [Stage.isSilent]
  diagram := ⟨"ab|", ⟨[(⟨'a'⟩, .value 7), (⟨'b'⟩, .value 8)], none⟩,
    [(0, .notify (.next 7)), (1, .notify (.next 8)), (2, .notify .completed)]⟩
  compare := .structural

theorem temperatures_agree_counting :
    (∃ b₁ b₂ b₃, (Callback.engine 20).Unfolds fresh ⟨default, .exact, .zero⟩ .cold counting
      hearingCounted [.advanceTo .zero, .advanceBy (.clamp 3)] (.ok ())
      [⟨.zero, .next 7⟩, ⟨.clamp 10, .next 8⟩, ⟨.clamp 20, .completed⟩] b₁ b₂ b₃) ∧
    ∃ b₁ b₂ b₃, (Callback.engine 20).Unfolds fresh ⟨default, .exact, .zero⟩ .hot counting
      hearingCounted [.advanceTo .zero, .advanceBy (.clamp 3)] (.ok ())
      [⟨.zero, .next 7⟩, ⟨.clamp 10, .next 8⟩, ⟨.clamp 20, .completed⟩] b₁ b₂ b₃ := by
  have hcounted := Engine.temperatures_agree (Callback.lawful_engine 20) lived_fresh
    ⟨default, .exact, .zero⟩ counting hearingCounted rfl [.advanceTo .zero, .advanceBy (.clamp 3)]
    (by decide)
  exact ⟨hcounted .cold, hcounted .hot⟩

end Scenario

end Marble
