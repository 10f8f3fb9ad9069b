import Marble.Proofs.ClockHistory
import Marble.Proofs.Scripts

/-! What the clocks of a bench are asked and what they do, told in order, whatever else is done on
the bench. -/
namespace Marble

variable {α σ κ : Type}

/-- The starts of a clock's actions in a log, by due time and number. -/
def dispatches (c : ClockRef) (log : List (Entry α)) : List (VirtualTime × Nat) :=
  log.filterMap fun e => e.started?.bind fun x => if x.1 = c then some x.2 else none

@[simp] theorem dispatches_append (c : ClockRef) (l l' : List (Entry α)) :
    dispatches c (l ++ l') = dispatches c l ++ dispatches c l' := List.filterMap_append

theorem dispatches_eq_nil {log : List (Entry α)} (h : ∀ e ∈ log, e.started? = none)
    (c : ClockRef) : dispatches c log = [] := by
  apply List.filterMap_eq_nil_iff.mpr
  intro e he
  simp [h e he]

/-- What one clock answers, among what all of them do. -/
def answersOf (c : ClockRef) (evs : List (ClockRef × ClockEvent κ)) : List (ClockEvent κ) :=
  evs.filterMap fun x => if x.1 = c then some x.2 else none

@[simp] theorem answersOf_append (c : ClockRef) (evs evs' : List (ClockRef × ClockEvent κ)) :
    answersOf c (evs ++ evs') = answersOf c evs ++ answersOf c evs' := List.filterMap_append

theorem answersOf_singleton (c : ClockRef) (x : ClockRef × ClockEvent κ) :
    answersOf c [x] = if x.1 = c then [x.2] else [] := by
  by_cases h : x.1 = c <;> simp [answersOf, h]

theorem mem_answersOf {c : ClockRef} {evs : List (ClockRef × ClockEvent κ)} {e : ClockEvent κ} :
    e ∈ answersOf c evs ↔ (c, e) ∈ evs := by
  simp [answersOf]

namespace Bench

variable {b b' b'' : Bench α σ} {c : ClockRef} {limit : VirtualTime} {a : Action α σ}
  {x : ClockRef × ClockEvent (Action α σ)}
  {evs evs' : List (ClockRef × ClockEvent (Action α σ))} {P : Action α σ → Prop}

/-! ### Calls -/

/-- A clock answers a call: an action is queued, or one that is due starts. The readings are what
the clock shows then, and the log tells of the start. -/
inductive Answers : ClockRef × ClockEvent (Action α σ) → Bench α σ → Bench α σ → Prop
  | queued {b : Bench α σ} {c : ClockRef} (hc : (b.clocks.get? c).isSome) (due : VirtualTime)
    (a : Action α σ) : Answers (c, .queued due (b.now c) a) b (b.schedule c due a)
  | started {b b' : Bench α σ} {c : ClockRef} {limit due : VirtualTime} {n : Nat}
    {a : Action α σ} (h : b.next? c limit = some (a, b'))
    (hlog : b'.log = b.log.push (.report (.dispatching c due n))) :
    Answers (c, .started due n (b'.now c) a) b b'

/-- No clock answers a call: one is parked where nothing is due, or all clocks are left alone, and
the log tells of no start. -/
inductive Idles : Bench α σ → Bench α σ → Prop
  | park {b : Bench α σ} {c : ClockRef} {target : VirtualTime} (h : b.next? c target = none) :
    Idles b (b.park c target)
  | away {b b' : Bench α σ} (added : List (Entry α))
    (hlog : b'.log.toList = b.log.toList ++ added) (hadded : ∀ e ∈ added, e.started? = none)
    (hclock : ∀ c, b'.clock c = b.clock c) : Idles b b'

/-- Whatever is done on a bench, with all that its clocks answer meanwhile, in order. -/
abbrev Answered : Bench α σ → List (ClockRef × ClockEvent (Action α σ)) → Bench α σ → Prop :=
  Tracked Answers Idles

theorem clock_empty (c : ClockRef) : ({} : Bench α σ).clock c = {} := by
  simp [clock, Table.get?]

theorem clock_modify (b : Bench α σ) (c c' : ClockRef)
    (f : Clock (Action α σ) → Clock (Action α σ)) :
    ({ b with clocks := b.clocks.modify c f } : Bench α σ).clock c' =
      if c = c' ∧ (b.clocks.get? c').isSome then f (b.clock c') else b.clock c' := by
  simp only [clock, Table.get?_modify]
  by_cases h : c = c'
  · cases hr : b.clocks.get? c' <;> simp [h]
  · simp [h]

/-- The first action of a clock starts, and all other clocks are left alone. -/
theorem clock_next? (h : b.next? c limit = some (a, b')) :
    ∃ p k, (b.clock c).next? limit = some (p, k) ∧ a = p.action ∧ b'.clock c = k ∧
      (∀ c', c' ≠ c → b'.clock c' = b.clock c') ∧ b'.subscriptions = b.subscriptions := by
  obtain ⟨row, hrow⟩ := exists_clock h
  obtain ⟨p, k, hnext, rfl, rfl⟩ := next?_eq_some hrow h
  refine ⟨p, k, by rwa [clock, hrow], rfl, ?_, fun c' hc' => ?_, rfl⟩
  · change ({ b with clocks := b.clocks.modify c fun _ => k } : Bench α σ).clock c = k
    rw [clock_modify, if_pos ⟨rfl, by simp [hrow]⟩]
  · change ({ b with clocks := b.clocks.modify c fun _ => k } : Bench α σ).clock c' = _
    rw [clock_modify, if_neg fun hc => hc' hc.1.symm]

theorem clock_next?_eq_none (h : b.next? c limit = none) : (b.clock c).next? limit = none := by
  cases hrow : b.clocks.get? c with
  | none => simp [clock, hrow, Clock.next?]
  | some row => simpa [clock, hrow] using next?_eq_none hrow h

/-- The log tells what starts. -/
theorem log_next? {p : Pending (Action α σ)} {k : Clock (Action α σ)}
    (h : b.next? c limit = some (a, b')) (hp : (b.clock c).next? limit = some (p, k)) :
    b'.log = b.log.push (.report (.dispatching c p.due p.sequence)) := by
  obtain ⟨row, hrow⟩ := exists_clock h
  obtain ⟨p', k', hnext, -, rfl⟩ := next?_eq_some hrow h
  rw [clock, hrow, Option.getD_some, hnext] at hp
  obtain ⟨rfl, -⟩ := Prod.mk.inj (Option.some.inj hp)
  rfl

/-- What starts is told with the due time and the number it has in the queue. -/
theorem Answers.start (h : b.next? c limit = some (a, b')) :
    ∃ p rest, (b.clock c).queue = p :: rest ∧ p.action = a ∧
      Answers (c, .started p.due p.sequence (b'.now c) a) b b' := by
  obtain ⟨p, k, hnext, haction, -⟩ := clock_next? h
  obtain ⟨rest, hqueue, -⟩ := Clock.next?_eq_some hnext
  exact ⟨p, rest, hqueue, haction.symm, .started h (log_next? h hnext)⟩

/-- Each clock goes through what it answers, and through nothing else. -/
theorem Answers.trace (h : Answers x b b') (c : ClockRef) :
    Clock.Trace (b.clock c) (answersOf c [x]) (b'.clock c) := by
  rw [answersOf_singleton]
  cases h with
  | @queued _ c' hc due a =>
    rw [schedule, clock_modify]
    by_cases hsame : c' = c
    · subst hsame
      rw [if_pos rfl, if_pos ⟨rfl, hc⟩]
      exact Clock.Trace.refl.queue due a
    · rw [if_neg hsame, if_neg fun h => hsame h.1]
      exact .refl
  | @started _ _ c' limit due n a h hlog =>
    obtain ⟨p, k, hnext, rfl, rfl, hother, -⟩ := clock_next? h
    have hsame := congrArg Array.toList ((log_next? h hnext).symm.trans hlog)
    obtain ⟨rfl, rfl⟩ : p.due = due ∧ p.sequence = n := by simpa using hsame
    by_cases hsame : c' = c
    · subst hsame
      rw [if_pos rfl]
      exact Clock.Trace.refl.start hnext
    · rw [if_neg hsame, hother c (Ne.symm hsame)]
      exact .refl

/-- The log gains the start that is told, or nothing. -/
theorem Answers.log (h : Answers x b b') : ∃ added, b'.log.toList = b.log.toList ++ added ∧
    ∀ c, (answersOf c [x]).filterMap ClockEvent.start? = dispatches c added := by
  cases h with
  | @queued _ c' hc due a =>
    refine ⟨[], by simp [schedule], fun c => ?_⟩
    rw [answersOf_singleton]
    split <;> rfl
  | @started _ _ c' limit due n a h hlog =>
    refine ⟨[.report (.dispatching c' due n)], by simp [hlog], fun c => ?_⟩
    rw [answersOf_singleton]
    by_cases hsame : c' = c <;>
      simp [dispatches, Entry.started?, ClockEvent.start?, hsame]

theorem Idles.trace (h : Idles b b') (c : ClockRef) :
    Clock.Trace (b.clock c) [] (b'.clock c) := by
  cases h with
  | @park c' target h =>
    rw [Bench.park, clock_modify]
    split
    next hc =>
      obtain ⟨rfl, -⟩ := hc
      exact Clock.Trace.refl.park (clock_next?_eq_none h)
    · exact .refl
  | away added hlog hadded hclock =>
    rw [hclock c]
    exact .refl

theorem Idles.log (h : Idles b b') : ∃ added, b'.log.toList = b.log.toList ++ added ∧
    ∀ c, dispatches c added = [] := by
  cases h with
  | park h => exact ⟨[], by simp [Bench.park], fun c => rfl⟩
  | away added hlog hadded hclock => exact ⟨added, hlog, dispatches_eq_nil hadded⟩

/-- From call to call, each clock goes through what it answers. -/
theorem Answered.trace (h : Answered b evs b') (c : ClockRef) :
    Clock.Trace (b.clock c) (answersOf c evs) (b'.clock c) := by
  induction h with
  | refl => exact .refl
  | tell _ hx ih =>
    rw [answersOf_append]
    exact ih.trans (hx.trace c)
  | aside _ haside ih => simpa using ih.trans (haside.trace c)

/-- The log gains the starts that are told, and no others. -/
theorem Answered.log (h : Answered b evs b') : ∃ added,
    b'.log.toList = b.log.toList ++ added ∧
      ∀ c, (answersOf c evs).filterMap ClockEvent.start? = dispatches c added := by
  induction h with
  | refl => exact ⟨[], by simp, fun c => rfl⟩
  | tell _ hx ih =>
    obtain ⟨added, hlog, hstarts⟩ := ih
    obtain ⟨added', hlog', hstarts'⟩ := hx.log
    refine ⟨added ++ added', by rw [hlog', hlog, List.append_assoc], fun c => ?_⟩
    rw [answersOf_append, List.filterMap_append, hstarts, hstarts', dispatches_append]
  | aside _ haside ih =>
    obtain ⟨added, hlog, hstarts⟩ := ih
    obtain ⟨added', hlog', hnone⟩ := haside.log
    refine ⟨added ++ added', by rw [hlog', hlog, List.append_assoc], fun c => ?_⟩
    rw [hstarts, dispatches_append, hnone, List.append_nil]

theorem Answered.starts (h : Answered b evs b') (c : ClockRef) :
    (answersOf c evs).filterMap ClockEvent.start? =
      dispatches c (b'.log.toList.drop b.log.size) := by
  obtain ⟨added, hlog, hstarts⟩ := h.log
  rw [hstarts, hlog, ← Array.length_toList, List.drop_left]

/-! ### Every change -/

/-- Clocks answer calls on the way from one bench to the other, and all actions that are queued are
of some kind. -/
def AnsweredBy (P : Action α σ → Prop) (b b' : Bench α σ) : Prop :=
  ∃ evs, Answered b evs b' ∧ ∀ x ∈ evs, ∀ given, x.2.given? = some given → P given.2

theorem AnsweredBy.refl (b : Bench α σ) : AnsweredBy P b b := ⟨[], .refl b, by simp⟩

theorem AnsweredBy.trans (h : AnsweredBy P b b') (h' : AnsweredBy P b' b'') :
    AnsweredBy P b b'' := by
  obtain ⟨evs, hevs, hP⟩ := h
  obtain ⟨evs', hevs', hP'⟩ := h'
  refine ⟨evs ++ evs', hevs.trans hevs', fun x hx => ?_⟩
  rcases List.mem_append.mp hx with hx | hx
  · exact hP x hx
  · exact hP' x hx

instance : IsPreorder (Bench α σ) (AnsweredBy P) where
  refl := .refl
  trans _ _ _ := .trans

theorem AnsweredBy.idle (h : Idles b b') : AnsweredBy P b b' := ⟨[], .aside (.refl b) h, by simp⟩

theorem answered_of_eq (hlog : b'.log = b.log) (hclocks : b'.clocks = b.clocks) :
    AnsweredBy P b b' :=
  .idle (.away [] (by simp [hlog]) (by simp) fun c => by simp [clock, hclocks])

theorem answered_note {e : Entry α} (hlog : b'.log = b.log.push e) (he : e.started? = none)
    (hclock : ∀ c, b'.clock c = b.clock c) : AnsweredBy P b b' :=
  .idle (.away [e] (by simp [hlog]) (by simpa using he) hclock)

theorem answered_park (h : b.next? c limit = none) : AnsweredBy P b (b.park c limit) :=
  .idle (.park h)

/-- A clock that has yet to be made queues nothing. -/
theorem answered_schedule (b : Bench α σ) (c : ClockRef) (due : VirtualTime) (ha : P a) :
    AnsweredBy P b (b.schedule c due a) := by
  by_cases hc : (b.clocks.get? c).isSome
  · refine ⟨_, .one (.queued hc due a), fun x hx given hgiven => ?_⟩
    obtain rfl := List.mem_singleton.mp hx
    obtain rfl := Option.some.inj hgiven
    exact ha
  · refine .idle (.away [] (by simp [schedule]) (by simp) fun c' => ?_)
    rw [schedule, clock_modify, if_neg]
    rintro ⟨rfl, hsome⟩
    exact hc hsome

theorem answered_start (h : b.next? c limit = some (a, b')) : AnsweredBy P b b' := by
  obtain ⟨p, rest, -, -, hstart⟩ := Answers.start h
  refine ⟨_, .one hstart, fun x hx given hgiven => ?_⟩
  obtain rfl := List.mem_singleton.mp hx
  simp [ClockEvent.given?] at hgiven

theorem answered_register (b : Bench α σ) (s : ScopeRef) (t : VirtualTime) (a : Assertion α σ) :
    AnsweredBy P b (b.register s t a).2 := by
  rw [register]
  split
  · exact .refl b
  · exact answered_note rfl rfl fun _ => rfl

theorem answered_addSource (b : Bench α σ) (temperature : Temperature) (c : ClockRef)
    (events : List (Timed (Signal α))) (hP : ∀ n, P (.multicast b.sources.next n)) :
    AnsweredBy P b (b.addSource temperature c events).2 :=
  keeps_addSource b temperature c events (answered_of_eq rfl rfl) fun b' _ n =>
    answered_schedule b' c _ (hP n)

theorem answered_attach (b : Bench α σ) (s : SourceRef) (o : Observer α)
    (hP : ∀ n, P (.deliver b.subscriptions.next o n)) : AnsweredBy P b (b.attach s o).2 :=
  keeps_attach b s o (answered_of_eq rfl rfl) (fun _ _ _ _ => answered_of_eq rfl rfl)
    fun b' c _ n => answered_schedule b' c _ (hP n)

theorem get?_addSource_next (b : Bench α σ) (temperature : Temperature) (c : ClockRef)
    (events : List (Timed (Signal α))) :
    (b.addSource temperature c events).2.sources.get? b.sources.next =
      some { temperature, clock := c, events } := by
  cases temperature with
  | cold => simp [addSource, Table.get?_push]
  | hot => simp [addSource, foldl_schedule_eq, Table.get?_push]

/-- A plain change is made of calls on clocks, or leaves all clocks alone. The only events of hot
sources that it queues are those of a new one. -/
theorem Plain.answeredBy (h : Plain b b') (hP : ∀ a : Action α σ, a.isMulticast = false → P a)
    (hnew : (b'.sources.get? b.sources.next).isSome → ∀ n, P (.multicast b.sources.next n)) :
    AnsweredBy P b b' := by
  cases h with
  | note e he => exact answered_note rfl he fun _ => rfl
  | addClock => exact .idle (.away [] (by simp [Bench.addClock]) (by simp) (clock_addClock b))
  | schedule c due ha => exact answered_schedule b c due (hP _ ha)
  | start h => exact answered_start h
  | park h => exact answered_park h
  | addSource temperature c events =>
    exact answered_addSource b temperature c events (hnew (by simp [get?_addSource_next]))
  | attach s o => exact answered_attach b s o fun _ => hP _ rfl
  | beginScope options => exact answered_note rfl rfl (clock_addClock b)
  | register s t a => exact answered_register b s t a
  | _ => exact answered_of_eq rfl rfl

/-- Every change of a bench is made of calls on clocks, or leaves all clocks alone. -/
theorem Change.answeredBy (h : Change b b') (hP : ∀ a : Action α σ, a.isMulticast = false → P a)
    (hnew : (b'.sources.get? b.sources.next).isSome → ∀ n, P (.multicast b.sources.next n)) :
    AnsweredBy P b b' := by
  cases h with
  | plain h => exact h.answeredBy hP hnew
  | abandon s reason hr => exact answered_note rfl (hr _ _) fun _ => rfl
  | _ => exact answered_of_eq rfl rfl

/-- Whatever is done, it is told what the clocks answer. -/
theorem Reaches.answered (h : Reaches b b') : ∃ evs, Answered b evs b' := by
  induction h with
  | refl => exact ⟨[], .refl b⟩
  | tail _ hstep ih =>
    obtain ⟨evs, hevs⟩ := ih
    obtain ⟨evs', hevs', -⟩ := hstep.answeredBy (P := fun _ => True) (fun _ _ => trivial)
      fun _ _ => trivial
    exact ⟨evs ++ evs', hevs.trans hevs'⟩

/-! ### Each clock for itself -/

/-- Each clock answers calls on the way from one bench to the other, and the starts among them are
what the log gains. -/
def Follows (b b' : Bench α σ) : Prop :=
  ∃ added : List (Entry α), b'.log.toList = b.log.toList ++ added ∧
    ∀ c, ∃ evs, Clock.Trace (b.clock c) evs (b'.clock c) ∧
      evs.filterMap ClockEvent.start? = dispatches c added

/-- The same, and all actions that are queued on the way are of some kind. -/
def FollowsBy (P : Action α σ → Prop) (b b' : Bench α σ) : Prop :=
  ∃ added : List (Entry α), b'.log.toList = b.log.toList ++ added ∧
    ∀ c, ∃ evs, Clock.Trace (b.clock c) evs (b'.clock c) ∧
      evs.filterMap ClockEvent.start? = dispatches c added ∧
      ∀ x ∈ evs.filterMap ClockEvent.given?, P x.2

theorem Follows.trans (h : Follows b b') (h' : Follows b' b'') : Follows b b'' := by
  obtain ⟨added, hlog, hclock⟩ := h
  obtain ⟨added', hlog', hclock'⟩ := h'
  refine ⟨added ++ added', by rw [hlog', hlog, List.append_assoc], fun c => ?_⟩
  obtain ⟨evs, htrace, hstarts⟩ := hclock c
  obtain ⟨evs', htrace', hstarts'⟩ := hclock' c
  refine ⟨evs ++ evs', htrace.trans htrace', ?_⟩
  rw [List.filterMap_append, hstarts, hstarts', dispatches_append]

instance : IsPreorder (Bench α σ) Follows where
  refl _ := ⟨[], by simp, fun _ => ⟨[], .refl, rfl⟩⟩
  trans _ _ _ := .trans

theorem Answered.follows (h : Answered b evs b') : Follows b b' := by
  obtain ⟨added, hlog, hstarts⟩ := h.log
  exact ⟨added, hlog, fun c => ⟨answersOf c evs, h.trace c, hstarts c⟩⟩

theorem AnsweredBy.followsBy (h : AnsweredBy P b b') : FollowsBy P b b' := by
  obtain ⟨evs, hevs, hP⟩ := h
  obtain ⟨added, hlog, hstarts⟩ := hevs.log
  refine ⟨added, hlog, fun c => ⟨answersOf c evs, hevs.trace c, hstarts c, fun x hx => ?_⟩⟩
  obtain ⟨e, he, hx⟩ := List.mem_filterMap.mp hx
  exact hP (c, e) (mem_answersOf.mp he) x hx

theorem Reaches.follows (h : Reaches b b') : Follows b b' := by
  obtain ⟨evs, hevs⟩ := h.answered
  exact hevs.follows

theorem Change.follows (h : Change b b') : Follows b b' := h.reaches.follows

theorem Plain.follows (h : Plain b b') : Follows b b' := Change.follows (.plain h)

instance : Allows (Follows (α := α) (σ := σ)) where
  plain := Plain.follows

/-- No clock runs back. -/
theorem Follows.now_le (h : Follows b b') (c : ClockRef) : b.now c ≤ b'.now c := by
  obtain ⟨_, _, hclock⟩ := h
  obtain ⟨evs, htrace, -⟩ := hclock c
  exact htrace.now_le

theorem Follows.log_drop (h : Follows b b') :
    b.log.toList ++ b'.log.toList.drop b.log.size = b'.log.toList := by
  obtain ⟨added, hlog, _⟩ := h
  rw [hlog, ← Array.length_toList, List.drop_left]

end Bench

namespace Scenario

open Bench

theorem fresh_clock (c : ClockRef) : (fresh : Bench α (Callback α)).clock c = {} :=
  clock_addClock {} c

variable [Shown α] {E : Engine α (Callback α)}

/-- The bench on which a script has been carried out, whatever came of each command. -/
def after (E : Engine α (Callback α)) (script : Script α) (b : Bench α (Callback α)) :
    Bench α (Callback α) :=
  script.foldl (fun b c => (observe E c b).2) b

theorem reaches_observe (hE : E.Lawful) (c : Command α) (b : Bench α (Callback α)) :
    Reaches b (observe E c b).2 := lawful_perform hE c b

theorem reaches_after (hE : E.Lawful) (script : Script α) (b : Bench α (Callback α)) :
    Reaches b (after E script b) :=
  keeps_foldl (fun b c => reaches_observe hE c b) b script

/-- What is seen of the log, command by command, is the whole log. -/
theorem log_observeAll (hE : E.Lawful) (script : Script α) (b : Bench α (Callback α)) :
    b.log.toList ++ (observeAll E script b).flatMap (·.log) = (after E script b).log.toList := by
  induction script generalizing b with
  | nil => simp [observeAll, after]
  | cons c rest ih =>
    have hlog := (reaches_observe hE c b).follows.log_drop
    have hseen : (observe E c b).1.log = (observe E c b).2.log.toList.drop b.log.size := rfl
    simp only [observeAll, List.flatMap_cons, hseen]
    rw [← List.append_assoc, hlog, ih]
    rfl

end Scenario

end Marble
