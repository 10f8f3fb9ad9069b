import Marble.Proofs.Onset

/-! Calls on a scope and on its clock, and the score: what the clock reads and what each source has
to say. Sources that are made and instants that are reached make up the score; expectations and
assertions leave no trace in it. -/
namespace Marble

variable {α σ : Type} {E : Engine α σ} {b b' : Bench α σ} {s : SourceRef} {c c' : ClockRef}
  {target : VirtualTime} {ran : List (Pending (Action α σ))}

/-- An expectation of a source behind silent stages. -/
structure Expectation (α σ : Type) where
  source : SourceRef
  stages : List (Stage α)
  silent : ∀ stage ∈ stages, stage.isSilent
  diagram : Diagram α SequenceError (Effect σ)
  compare : Compare α

/-- A call on a scope or on its clock. -/
inductive ScopeCall (α σ : Type) where
  | source (temperature : Temperature) (clock : ClockRef) (events : List (Timed (Signal α)))
  | advanceTo (target : VirtualTime)
  | expect (x : Expectation α σ)
  | assert (horizon : VirtualTime) (f : σ)

/-- Whether a call puts something down for the end of the scope. -/
def ScopeCall.enrolls : ScopeCall α σ → Bool
  | .expect _ | .assert .. => true
  | .source .. | .advanceTo _ => false

/-- What a source has to say to those who begin to listen on a clock: the same to all of them, or
what is still to come, or nothing. -/
inductive Tape (α : Type) where
  | cold (events : List (Timed (Signal α)))
  | hot (coming : List (Timed (Signal α)))
  | silent

namespace Tape

/-- What somebody is going to hear who begins to listen at an instant. -/
def heard (now : VirtualTime) : Tape α → List (Timed (Signal α))
  | cold events => Timeline.sorted (Timeline.shift now events)
  | hot coming => coming
  | silent => []

/-- What is left when everything due by an instant has come. -/
def after (target : VirtualTime) : Tape α → Tape α
  | hot coming => hot (coming.filter fun e => decide (target < e.time))
  | tape => tape

/-- How many actions it takes to listen. -/
def length : Tape α → Nat
  | cold events => events.length
  | _ => 0

end Tape

/-- What a source has to say on a clock on which some of its events are to come. -/
def Source.tape (source : Source α) (c : ClockRef) (coming : List (Timed (Signal α))) : Tape α :=
  match source.temperature with
  | .cold => if source.clock = c then .cold source.events else .silent
  | .hot => .hot coming

/-- What a clock reads, what each source has to say on it, and the source that is made next. -/
@[ext] structure Score (α : Type) where
  clock : ClockRef
  now : VirtualTime
  next : SourceRef
  tape : SourceRef → Tape α

namespace Score

variable {sc : Score α} {calls later : List (ScopeCall α σ)}

/-- What a call adds to the score. -/
def step (sc : Score α) : ScopeCall α σ → Score α
  | .source temperature c events =>
    { sc with
      next := ⟨sc.next.index + 1⟩
      tape := fun s =>
        if s = sc.next then
          ({ temperature, clock := c, events } : Source α).tape sc.clock
            (Timeline.sorted (opening temperature c sc.clock sc.now events))
        else sc.tape s }
  | .advanceTo target =>
    { sc with now := max sc.now target, tape := fun s => (sc.tape s).after target }
  | .expect _ | .assert .. => sc

def play (sc : Score α) (calls : List (ScopeCall α σ)) : Score α := calls.foldl step sc

/-- At most so many actions are queued by a call. -/
def weight (sc : Score α) : ScopeCall α σ → Nat
  | .source _ _ events => events.length
  | .expect x => (sc.tape x.source).length + 1
  | .advanceTo _ | .assert .. => 0

/-- At most so many actions are queued by some calls. -/
def load (sc : Score α) : List (ScopeCall α σ) → Nat
  | [] => 0
  | call :: rest => sc.weight call + (sc.step call).load rest

theorem step_of_enrolls {call : ScopeCall α σ} (h : call.enrolls) : sc.step call = sc := by
  cases call with
  | source => cases h
  | advanceTo => cases h
  | expect x => rfl
  | assert horizon f => rfl

/-- What is put down for the end of the scope leaves no trace in the score. -/
theorem play_filter (sc : Score α) (calls : List (ScopeCall α σ)) :
    sc.play (calls.filter fun call => !call.enrolls) = sc.play calls := by
  rw [play, List.foldl_filter, play]
  refine congrArg (calls.foldl · sc) (funext fun sc => funext fun call => ?_)
  cases h : call.enrolls with
  | true => exact (step_of_enrolls h).symm
  | false => rfl

theorem load_append (sc : Score α) (calls later : List (ScopeCall α σ)) :
    sc.load (calls ++ later) = sc.load calls + (sc.play calls).load later := by
  induction calls generalizing sc with
  | nil => exact (Nat.zero_add _).symm
  | cons call rest ih =>
    have hrest := ih (sc.step call)
    rw [List.cons_append, load, hrest, load, ← Nat.add_assoc]
    rfl

theorem load_filter_le (sc : Score α) (calls : List (ScopeCall α σ)) :
    sc.load (calls.filter fun call => !call.enrolls) ≤ sc.load calls := by
  induction calls generalizing sc with
  | nil => exact Nat.le_refl _
  | cons call rest ih =>
    have hrest := ih (sc.step call)
    cases h : call.enrolls with
    | true =>
      rw [step_of_enrolls h] at hrest
      rw [List.filter_cons_of_neg (by simp [h]), load, step_of_enrolls h]
      exact Nat.le_trans hrest (Nat.le_add_left _ _)
    | false =>
      rw [List.filter_cons_of_pos (by simp [h]), load, load]
      exact Nat.add_le_add_left hrest _

theorem countP_filter (calls : List (ScopeCall α σ)) :
    (calls.filter fun call => !call.enrolls).countP ScopeCall.enrolls = 0 :=
  List.countP_eq_zero.mpr fun call h => by simpa using (List.mem_filter.mp h).2

/-- It takes no more to make an expectation alone. -/
theorem load_alone_le (sc : Score α) (before : List (ScopeCall α σ)) (x : Expectation α σ)
    (after : List (ScopeCall α σ)) :
    sc.load (before.filter (fun call => !call.enrolls) ++
      .expect x :: after.filter fun call => !call.enrolls) ≤
        sc.load (before ++ .expect x :: after) := by
  rw [load_append, load_append, play_filter, load, load]
  exact Nat.add_le_add (sc.load_filter_le before)
    (Nat.add_le_add_left (((sc.play before).step (.expect x)).load_filter_le after) _)

end Score

namespace Bench

/-- What a source has to say on a clock. -/
def tape (b : Bench α σ) (c : ClockRef) (s : SourceRef) : Tape α :=
  ((b.sources.get? s).map fun source => source.tape c (aired s (b.clock c).queue)).getD .silent

def score (b : Bench α σ) (c : ClockRef) : Score α := ⟨c, b.now c, b.sources.next, b.tape c⟩

theorem heard_tape (b : Bench α σ) (c : ClockRef) (s : SourceRef) :
    (b.tape c s).heard (b.now c) = b.heard c s := by
  rw [tape, heard, place?, replay]
  cases b.sources.get? s with
  | none => rfl
  | some source =>
    simp only [Option.map_some, Option.getD_some, Option.bind_some, Source.tape, Source.replay]
    cases source.temperature with
    | cold => by_cases hc : source.clock = c <;> simp [hc, Tape.heard, Timeline.sorted]
    | hot => simp [Tape.heard]

theorem length_replay (b : Bench α σ) (c : ClockRef) (s : SourceRef) :
    (b.replay c s).length = (b.tape c s).length := by
  rw [tape, replay]
  cases b.sources.get? s with
  | none => rfl
  | some source =>
    simp only [Option.map_some, Option.getD_some, Source.tape, Source.replay]
    cases source.temperature with
    | cold => by_cases hc : source.clock = c <;> simp [hc, Tape.length, Timeline.shift]
    | hot => simp [Tape.length]

/-- A tape is made of the timeline of its source and what is queued of it. -/
theorem tape_bare (b : Bench α σ) (c : ClockRef) (s : SourceRef) :
    b.tape c s = (((b.sources.get? s).map Source.bare).map
      fun source => source.tape c (aired s (b.clock c).queue)).getD .silent := by
  rw [tape, Option.map_map]
  rfl

theorem tape_congr
    (hsource : (b'.sources.get? s).map Source.bare = (b.sources.get? s).map Source.bare)
    (haired : aired s (b'.clock c).queue = aired s (b.clock c).queue) :
    b'.tape c s = b.tape c s := by
  rw [tape_bare, tape_bare, hsource, haired]

/-! ### The score of a bench -/

theorem score_congr (hnow : b'.now c = b.now c) (hnext : b'.sources.next = b.sources.next)
    (hsources : ∀ s, (b'.sources.get? s).map Source.bare = (b.sources.get? s).map Source.bare)
    (haired : ∀ s, aired s (b'.clock c).queue = aired s (b.clock c).queue) :
    b'.score c = b.score c := by
  have htape : b'.tape c = b.tape c := funext fun s => tape_congr (hsources s) (haired s)
  rw [score, score, hnow, hnext, htape]

/-- Nobody changes the score by listening. -/
theorem score_listen (hc : (b.clocks.get? c).isSome) (src : SourceRef) (stages : List (Stage α))
    (due : VirtualTime) : (b.listen c src stages due).score c = b.score c := by
  have hclock := clock_listen hc src stages due
  refine score_congr ?_ (b.listen_next c src stages due)
    (b.bare_listen c src stages due) fun s => ?_
  · change ((b.listen c src stages due).clock c).now = _
    rw [hclock]
    exact Clock.now_scheduleAll
  · rw [hclock]
    exact (picked_enqueue_none rfl).trans (Clock.picked_scheduleAll_none fun _ => rfl)

theorem score_addSource (hb : b.Quiet c) (temperature : Temperature) (c' : ClockRef)
    (events : List (Timed (Signal α))) : (b.addSource temperature c' events).2.score c =
      (b.score c).step (.source temperature c' events : ScopeCall α σ) := by
  obtain ⟨-, -, hsources, -, -⟩ := b.addSource_fields temperature c' events
  have hclock := clock_addSource hb.clock temperature c' events
  refine Score.ext rfl ?_ ?_ (funext fun s => ?_)
  · change ((b.addSource temperature c' events).2.clock c).now = _
    rw [hclock]
    exact Clock.now_scheduleAll
  · change (b.addSource temperature c' events).2.sources.next = _
    rw [hsources]
    simp [Table.next, Table.push, Score.step, score]
  · change (b.addSource temperature c' events).2.tape c s =
      if s = b.sources.next then _ else b.tape c s
    rw [tape, hsources, Table.get?_push, hclock]
    split
    next hs =>
      have haired : aired b.sources.next ((b.clock c).scheduleAll (.multicast b.sources.next)
          (opening temperature c' c (b.now c) events)).queue =
            Timeline.sorted (opening temperature c' c (b.now c) events) :=
        Clock.picked_scheduleAll (hb.lived.ordered c) (fun _ => if_pos rfl)
          (hb.lived.aired_eq_nil b.sources.get?_next c) fun _ he => le_of_mem_opening he
      rw [hs, haired]
      rfl
    next hs =>
      have haired : aired s ((b.clock c).scheduleAll (.multicast b.sources.next)
          (opening temperature c' c (b.now c) events)).queue = aired s (b.clock c).queue :=
        Clock.picked_scheduleAll_none fun _ => if_neg (Ne.symm hs)
      rw [haired]
      rfl

/-- An advance leaves of a score what is due later. -/
theorem score_advance (hb' : b'.Quiet c) (hplayed : Played c target ran b b')
    (hn : b'.next? c target = none) :
    (b'.park c target).score c = (b.score c).step (.advanceTo target : ScopeCall α σ) := by
  have hlate := (hb'.lived.ordered c).lt_of_next?_eq_none (clock_next?_eq_none hn)
  have haired : ∀ s, aired s (b'.clock c).queue =
      (aired s (b.clock c).queue).filter fun e => decide (target < e.time) := by
    intro s
    have hran : ∀ e ∈ aired s ran, ¬ decide (target < e.time) = true := by
      intro e he
      obtain ⟨p, hp, -, hdue⟩ := mem_picked.mp he
      simpa [← hdue] using hplayed.due p hp
    have hleft : ∀ e ∈ aired s (b'.clock c).queue, decide (target < e.time) = true := by
      intro e he
      simpa using lt_of_mem_picked hlate e he
    have hall : aired s (b.clock c).queue = aired s ran ++ aired s (b'.clock c).queue := by
      rw [hplayed.queue]
      exact picked_append ran _
    rw [hall, List.filter_append, List.filter_eq_nil_iff.mpr hran, List.filter_eq_self.mpr hleft,
      List.nil_append]
  refine Score.ext rfl ?_ hplayed.next (funext fun s => ?_)
  · have hnow : max (b'.now c) target = max (b.now c) target :=
      le_antisymm (max_le hplayed.now (le_max_right _ _))
        (max_le (le_trans hplayed.later (le_max_left _ _)) (le_max_right _ _))
    change (b'.park c target).now c = _
    rw [now_park hb'.clock, hnow]
    rfl
  · have htape : (b'.park c target).tape c s =
        (((b.sources.get? s).map Source.bare).map fun source =>
          source.tape c
            ((aired s (b.clock c).queue).filter fun e => decide (target < e.time))).getD
          .silent := by
      rw [tape_bare, queue_park, haired, ← hplayed.sources]
      rfl
    change (b'.park c target).tape c s = (b.tape c s).after target
    rw [htape, tape_bare]
    cases (b.sources.get? s).map Source.bare with
    | none => rfl
    | some source =>
      simp only [Option.map_some, Option.getD_some, Source.tape]
      cases source.temperature with
      | cold => by_cases hc : source.clock = c <;> simp [hc, Tape.after]
      | hot => rfl

end Bench

end Marble
