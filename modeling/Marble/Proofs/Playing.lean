import Marble.Proofs.Score

/-! Playing calls on a scope: with enough fuel they all go through, the score tells what comes of
them, and every recorder keeps to the timeline it is going to have taken in. -/
namespace Marble

variable {α σ : Type} {E : Engine α σ} {b b' b'' : Bench α σ} {s : ScopeRef} {c : ClockRef}
  {options : ScopeOptions} {scope : Scope α σ} {ts : List VirtualTime}
  {asserted : List (Assertion α σ)} {calls later : List (ScopeCall α σ)} {x : Expectation α σ}

namespace Expectation

/-- When an expectation that is made at an instant stops to look. -/
def due (x : Expectation α σ) (options : ScopeOptions) (t : VirtualTime) : VirtualTime :=
  Engine.releaseAt x.diagram options t

/-- What is to be checked of an expectation that is made at an instant. -/
def assertion (x : Expectation α σ) (options : ScopeOptions) (t : VirtualTime) (r : RecorderRef) :
    Assertion α σ :=
  .events r x.diagram.source (Engine.expected x.diagram options t) x.compare

/-- What is going to have been taken in for an expectation that is made when some of a score has
been played. -/
def timeline (x : Expectation α σ) (options : ScopeOptions) (sc : Score α) :
    List (Timed (Signal α)) :=
  Timeline.untilTerminal (Timeline.through x.stages
    (((sc.tape x.source).heard sc.now).filter fun e => decide (e.time ≤ x.due options sc.now)))

end Expectation

namespace Bench

/-- An expectation is made. -/
def expecting (b : Bench α σ) (s : ScopeRef) (c : ClockRef) (options : ScopeOptions)
    (x : Expectation α σ) : Bench α σ :=
  (b.listen c x.source x.stages (x.due options (b.now c))).entered s (x.due options (b.now c))
    (x.assertion options (b.now c) b.recorders.next)

end Bench

namespace Engine

theorem expect_eq (h : b.accepting s = .ok scope) (x : Expectation α σ) :
    E.expect s ⟨.source x.source, x.stages⟩ x.diagram x.compare b =
      (.done (.ok ()), b.expecting s scope.clock scope.options x) :=
  expect_source h x.source x.stages x.diagram x.compare

/-- Carries a call out. -/
def make (E : Engine α σ) (s : ScopeRef) (c : ClockRef) : ScopeCall α σ → Attempt α σ Unit
  | .source temperature c' events => do
    let _ ← Attempt.change (·.addSource temperature c' events)
    return ()
  | .advanceTo target => Attempt.lift (E.advanceTo c target)
  | .expect x => E.expect s ⟨.source x.source, x.stages⟩ x.diagram x.compare
  | .assert horizon f => Attempt.step (·.register s horizon (.check f))

/-- Carries calls out one after the other, as long as they go through. -/
def play (E : Engine α σ) (s : ScopeRef) (c : ClockRef) : List (ScopeCall α σ) → Attempt α σ Unit
  | [] => return ()
  | call :: rest => do
    E.make s c call
    play E s c rest

theorem play_one {call : ScopeCall α σ} (h : E.make s c call b = (.done (.ok ()), b')) :
    E.play s c [call] b = (.done (.ok ()), b') :=
  Attempt.bind_ok h

theorem play_append (h : E.play s c calls b = (.done (.ok ()), b')) :
    E.play s c (calls ++ later) b = E.play s c later b' := by
  induction calls generalizing b with
  | nil =>
    obtain rfl : b = b' := congrArg Prod.snd h
    rfl
  | cons call rest ih =>
    rcases Attempt.bind_eq_done h with ⟨_, b₁, hmake, hrest⟩ | ⟨e, -, he⟩
    · rw [List.cons_append, play, Attempt.bind_ok hmake]
      exact ih hrest
    · cases he

end Engine

theorem Tap.Tracks.entered {x : Tap α} {limit : VirtualTime} {tl : List (Timed (Signal α))}
    {row : Recorder α} (h : x.Tracks c limit tl b row) (t : VirtualTime) (a : Assertion α σ) :
    x.Tracks c limit tl (b.entered s t a) row :=
  h.aside rfl rfl rfl rfl

/-- From the beginning, the recorder of an expectation keeps to the score. -/
theorem Bench.Quiet.tracks_expecting (h : b.Quiet c) (x : Expectation α σ) :
    (b.tap x.source x.stages).Tracks c (x.due options (b.now c)) (x.timeline options (b.score c))
      (b.expecting s c options x) { clock := c } := by
  have hdue : b.now c ≤ x.due options (b.now c) := Engine.le_releaseAt x.diagram options (b.now c)
  have hheard : ((b.score c).tape x.source).heard (b.score c).now = b.heard c x.source :=
    b.heard_tape c x.source
  rw [Expectation.timeline, hheard]
  exact (h.tracks x.source x.stages hdue).entered _ _

namespace Bench

/-- An open scope with this much put down for its end, on a quiet clock of its own. -/
structure Staged (s : ScopeRef) (c : ClockRef) (options : ScopeOptions) (ts : List VirtualTime)
    (asserted : List (Assertion α σ)) (b : Bench α σ) : Prop extends Quiet c b where
  row : b.scopes.get? s = some ((Scope.begun c options).owing ts asserted)

theorem Staged.accepting (h : b.Staged s c options ts asserted) :
    b.accepting s = .ok ((Scope.begun c options).owing ts asserted) :=
  accepting_eq_ok.mpr ⟨h.row, rfl⟩

theorem Staged.of_scopes (h : b.Staged s c options ts asserted) (hb' : b'.Quiet c)
    (hscopes : b'.scopes = b.scopes) : b'.Staged s c options ts asserted :=
  ⟨hb', by rw [hscopes, h.row]⟩

theorem Staged.entered (h : b.Staged s c options ts asserted) (t : VirtualTime)
    (a : Assertion α σ) : (b.entered s t a).Staged s c options (ts ++ [t]) (asserted ++ [a]) := by
  have hregister : Plain b (b.entered s t a) := by
    have hplain := Plain.register b s t a
    rwa [register_of_accepting h.accepting] at hplain
  refine ⟨⟨h.lived.reaches (Change.plain hregister).reaches, h.clock, fun p hp => ?_⟩, ?_⟩
  · exact (h.mute p hp).maintained (maintains_of_eq rfl rfl rfl)
  · rw [← Scope.owing_owing]
    exact row_register h.accepting t a

/-- How calls leave things: the score has been played, not more has been queued than they weigh, and
what a recorder is going to have taken in is what it was before. -/
structure Carries (c : ClockRef) (calls : List (ScopeCall α σ)) (b b' : Bench α σ) : Prop where
  score : b'.score c = (b.score c).play calls
  queue : (b'.clock c).queue.length ≤ (b.clock c).queue.length + (b.score c).load calls
  stack : b'.stack = b.stack
  tracks : ∀ (x : Tap α) limit tl row, x.Tracks c limit tl b row →
    ∃ row', x.Tracks c limit tl b' row'

theorem Carries.refl (b : Bench α σ) : Carries c [] b b :=
  ⟨rfl, Nat.le_refl _, rfl, fun _ _ _ row h => ⟨row, h⟩⟩

theorem Carries.trans (h : Carries c calls b b') (h' : Carries c later b' b'') :
    Carries c (calls ++ later) b b'' where
  score := by rw [h'.score, h.score, Score.play, Score.play, Score.play, List.foldl_append]
  queue := by
    have hlater := h'.queue
    have hcalls := h.queue
    rw [h.score] at hlater
    rw [Score.load_append]
    omega
  stack := h'.stack.trans h.stack
  tracks x limit tl row hx := by
    obtain ⟨row', hx'⟩ := h.tracks x limit tl row hx
    exact h'.tracks x limit tl row' hx'

theorem carries_entered (b : Bench α σ) (horizon : VirtualTime) (f : σ) :
    Carries c [.assert horizon f] b (b.entered s horizon (.check f)) :=
  ⟨rfl, Nat.le_refl _, rfl, fun _ _ _ row h => ⟨row, h.entered _ _⟩⟩

theorem carries_addSource (h : b.Quiet c) (temperature : Temperature) (c' : ClockRef)
    (events : List (Timed (Signal α))) :
    Carries c [.source temperature c' events] b (b.addSource temperature c' events).2 where
  score := score_addSource h temperature c' events
  queue := by
    have hlength := length_opening_le temperature c' c (b.now c) events
    rw [clock_addSource h.clock, Clock.length_scheduleAll]
    exact Nat.add_le_add_left hlength _
  stack := (b.addSource_fields temperature c' events).2.2.2.2
  tracks x limit tl row hx := ⟨row, hx.addSource h temperature c' events⟩

theorem carries_expecting (h : b.Quiet c) (x : Expectation α σ) :
    Carries c [.expect x] b (b.expecting s c options x) where
  score := score_listen h.clock x.source x.stages _
  queue := by
    change ((b.listen c x.source x.stages (x.due options (b.now c))).clock c).queue.length ≤ _
    rw [clock_listen h.clock, Clock.schedule, Clock.length_enqueue, Clock.length_scheduleAll,
      length_replay]
    exact Nat.le_refl _
  stack := b.listen_stack c x.source x.stages (x.due options (b.now c))
  tracks tap limit tl row hx := ⟨row, (hx.listen h x.source x.stages _).entered _ _⟩

end Bench

namespace Engine

/-- Calls on an open scope go through and leave it open, with something put down for each of those
that ask for it. -/
structure Performs (E : Engine α σ) (s : ScopeRef) (c : ClockRef) (options : ScopeOptions)
    (calls : List (ScopeCall α σ)) (ts : List VirtualTime) (asserted : List (Assertion α σ))
    (b : Bench α σ) (ts' : List VirtualTime) (asserted' : List (Assertion α σ))
    (b' : Bench α σ) : Prop where
  run : E.play s c calls b = (.done (.ok ()), b')
  staged : b'.Staged s c options (ts ++ ts') (asserted ++ asserted')
  count : asserted'.length = calls.countP ScopeCall.enrolls
  carries : Bench.Carries c calls b b'

variable {ts' ts'' : List VirtualTime} {asserted' asserted'' : List (Assertion α σ)}

theorem Performs.append (h : E.Performs s c options calls ts asserted b ts' asserted' b')
    (h' : E.Performs s c options later (ts ++ ts') (asserted ++ asserted') b' ts'' asserted'' b'') :
    E.Performs s c options (calls ++ later) ts asserted b (ts' ++ ts'') (asserted' ++ asserted'')
      b'' where
  run := (play_append h.run).trans h'.run
  staged := by
    rw [← List.append_assoc, ← List.append_assoc]
    exact h'.staged
  count := by rw [List.length_append, List.countP_append, h.count, h'.count]
  carries := h.carries.trans h'.carries

theorem performs_expect (h : b.Staged s c options ts asserted) (x : Expectation α σ) :
    E.Performs s c options [.expect x] ts asserted b [x.due options (b.now c)]
      [x.assertion options (b.now c) b.recorders.next] (b.expecting s c options x) where
  run := play_one (expect_eq h.accepting x)
  staged := (h.of_scopes (h.listen x.silent x.source _) (Bench.listen_scopes ..)).entered _ _
  count := rfl
  carries := Bench.carries_expecting h.toQuiet x

/-- With fuel for all that is queued, a call goes through. -/
theorem performs_one (hE : E.Lawful) (h : b.Staged s c options ts asserted)
    (hfuel : (b.clock c).queue.length < E.fuel) (call : ScopeCall α σ) :
    ∃ ts' asserted' b', E.Performs s c options [call] ts asserted b ts' asserted' b' := by
  cases call with
  | source temperature c' events =>
    have hscopes := (b.addSource_fields temperature c' events).2.2.2.1
    refine ⟨[], [], (b.addSource temperature c' events).2, play_one rfl, ?_, rfl,
      Bench.carries_addSource h.toQuiet temperature c' events⟩
    simpa using h.of_scopes (h.addSource temperature c' events) hscopes
  | advanceTo target =>
    obtain ⟨ran, b₁, hruns, hnext, hadvance⟩ := h.advanceTo hE hfuel target
    obtain ⟨hquiet, hplayed⟩ := h.runs hE hruns
    refine ⟨[], [], b₁.park c target, play_one (Attempt.lift_done hadvance), ?_, rfl,
      Bench.score_advance hquiet hplayed hnext, ?_, hplayed.stack, fun x limit tl row hx => ?_⟩
    · simpa using h.of_scopes (hquiet.park hnext) hplayed.scopes
    · have hlength := congrArg List.length hplayed.queue
      rw [List.length_append] at hlength
      rw [Bench.queue_park]
      omega
    · obtain ⟨row', hx'⟩ := hx.runs hE h.toQuiet hruns
      exact ⟨row', hx'.park target⟩
  | expect x => exact ⟨_, _, _, performs_expect h x⟩
  | assert horizon f =>
    exact ⟨[horizon], [.check f], b.entered s horizon (.check f),
      play_one (step_register h.accepting horizon (.check f)), h.entered horizon (.check f), rfl,
      Bench.carries_entered b horizon f⟩

/-- With fuel for all that is queued in the meantime, calls go through. -/
theorem performs (hE : E.Lawful) (h : b.Staged s c options ts asserted)
    (calls : List (ScopeCall α σ))
    (hfuel : (b.clock c).queue.length + (b.score c).load calls < E.fuel) :
    ∃ ts' asserted' b', E.Performs s c options calls ts asserted b ts' asserted' b' := by
  induction calls generalizing b ts asserted with
  | nil => exact ⟨[], [], b, rfl, by simpa using h, rfl, Bench.Carries.refl b⟩
  | cons call rest ih =>
    obtain ⟨ts₁, asserted₁, b₁, hcall⟩ := performs_one hE h (by omega) call
    have hqueue := hcall.carries.queue
    have hscore := hcall.carries.score
    have hload := Score.load_append (b.score c) [call] rest
    rw [List.singleton_append] at hload
    obtain ⟨ts₂, asserted₂, b₂, hrest⟩ := ih hcall.staged (by rw [hscore]; omega)
    exact ⟨ts₁ ++ ts₂, asserted₁ ++ asserted₂, b₂, hcall.append hrest⟩

end Engine

end Marble
