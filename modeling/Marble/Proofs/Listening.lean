import Marble.Proofs.Quiet

/-! Beginning to listen: an expectation of a source makes a recorder, subscribes it, and queues the
end of the recording. What this does to a clock, to the source and to those who are attached to
it. -/
namespace Marble

variable {α σ : Type} {E : Engine α σ} {b b' : Bench α σ} {s src t : SourceRef} {c c' : ClockRef}
  {o : Observer α} {stages : List (Stage α)} {due : VirtualTime}

namespace Source

/-- A source with one more subscription. -/
def join (source : Source α) (o : Observer α) (now : VirtualTime) : Source α :=
  { source with
    log := source.log ++ [⟨now, none⟩]
    attached := source.attached ++
      if source.temperature = .hot then [(source.log.length, o)] else [] }

/-- What a new subscription queues: a cold source starts anew. -/
def replay (source : Source α) (now : VirtualTime) : List (Timed (Signal α)) :=
  if source.temperature = .cold then Timeline.shift now source.events else []

end Source

/-- What a new source queues on a clock: a hot one of that clock all that is not past. -/
def opening (temperature : Temperature) (c c' : ClockRef) (now : VirtualTime)
    (events : List (Timed (Signal α))) : List (Timed (Signal α)) :=
  if temperature = .hot ∧ c = c' then events.filter fun e => decide (now ≤ e.time) else []

theorem le_of_mem_opening {temperature : Temperature} {now : VirtualTime}
    {events : List (Timed (Signal α))} {e : Timed (Signal α)}
    (h : e ∈ opening temperature c c' now events) : now ≤ e.time := by
  rw [opening] at h
  split at h
  · simpa using (List.mem_filter.mp h).2
  · cases h

theorem length_opening_le (temperature : Temperature) (c c' : ClockRef) (now : VirtualTime)
    (events : List (Timed (Signal α))) :
    (opening temperature c c' now events).length ≤ events.length := by
  rw [opening]
  split
  · exact List.length_filter_le _ _
  · exact Nat.zero_le _

/-- An observer in its place, if it has one, among those attached to a source. -/
def posted (place : Option (SourceRef × Nat)) (o : Observer α) (s : SourceRef) :
    List (Nat × Observer α) :=
  match place with
  | some (t, entry) => if t = s then [(entry, o)] else []
  | none => []

theorem mem_posted {place : Option (SourceRef × Nat)} {y : Nat × Observer α}
    (h : y ∈ posted place o s) : place = some (s, y.1) ∧ y.2 = o := by
  unfold posted at h
  split at h
  · split at h
    next hs =>
      obtain rfl := List.mem_singleton.mp h
      exact ⟨by rw [hs], rfl⟩
    · cases h
  · cases h

theorem posted_of_ne {place : Option (SourceRef × Nat)} (h : ∀ e, place ≠ some (s, e)) :
    posted place o s = [] :=
  List.eq_nil_iff_forall_not_mem.mpr fun y hy => h y.1 (mem_posted hy).1

namespace Bench

/-! ### A subscription to a source -/

/-- The place that the next observer of a hot source takes. -/
def place? (b : Bench α σ) (s : SourceRef) : Option (SourceRef × Nat) :=
  (b.sources.get? s).bind fun source =>
    if source.temperature = .hot then some (s, source.log.length) else none

/-- What a subscription to a source queues on a clock. -/
def replay (b : Bench α σ) (c : ClockRef) (s : SourceRef) : List (Timed (Signal α)) :=
  match b.sources.get? s with
  | some source => if source.clock = c then source.replay (b.now c) else []
  | none => []

theorem attach_eq {source : Source α} (hs : b.sources.get? s = some source) (o : Observer α) :
    b.attach s o = (b.subscriptions.next,
      { b.enlist s source (source.join o (b.now source.clock)) with
        clocks := b.clocks.modify source.clock fun k =>
          k.scheduleAll (.deliver b.subscriptions.next o)
            (source.replay (b.now source.clock)) }) := by
  have hrest : b.clocks.modify source.clock (fun k => k.scheduleAll
      (.deliver b.subscriptions.next o) []) = b.clocks := Table.modify_id _ _
  simp only [attach, hs, enlist, Source.join, Source.replay]
  cases source.temperature with
  | cold =>
    simp only [foldl_schedule_eq, addSubscription, reduceCtorEq, ↓reduceIte, List.append_nil]
    simp only [Clock.scheduleAll, Timeline.shift, List.foldl_map]
  | hot => simp only [hrest, addSubscription, reduceCtorEq, ↓reduceIte]

theorem attach_of_none (hs : b.sources.get? s = none) (o : Observer α) :
    b.attach s o = b.addSubscription .nothing := by
  simp only [attach, hs]

theorem attach_recorders (b : Bench α σ) (s : SourceRef) (o : Observer α) :
    (b.attach s o).2.recorders = b.recorders := by
  cases hs : b.sources.get? s with
  | none => rw [attach_of_none hs]; rfl
  | some source => rw [attach_eq hs]; rfl

theorem attach_scopes (b : Bench α σ) (s : SourceRef) (o : Observer α) :
    (b.attach s o).2.scopes = b.scopes := by
  cases hs : b.sources.get? s with
  | none => rw [attach_of_none hs]; rfl
  | some source => rw [attach_eq hs]; rfl

theorem attach_stack (b : Bench α σ) (s : SourceRef) (o : Observer α) :
    (b.attach s o).2.stack = b.stack := by
  cases hs : b.sources.get? s with
  | none => rw [attach_of_none hs]; rfl
  | some source => rw [attach_eq hs]; rfl

theorem attach_next (b : Bench α σ) (s : SourceRef) (o : Observer α) :
    (b.attach s o).2.sources.next = b.sources.next := by
  cases hs : b.sources.get? s with
  | none => rw [attach_of_none hs]; rfl
  | some source =>
    rw [attach_eq hs]
    simp [enlist, Table.next, Table.modify]

/-- The new subscription ends quietly, and leaves its place at a hot source. -/
theorem attach_subscriptions (b : Bench α σ) (s : SourceRef) (o : Observer α) :
    ∃ teardown : Teardown σ, teardown.isQuiet ∧
      (b.attach s o).2.subscriptions = b.subscriptions.push { teardown } ∧
      ∀ x, b.place? s = some x → teardown.leaves? = some x := by
  cases hs : b.sources.get? s with
  | none =>
    rw [attach_of_none hs]
    exact ⟨.nothing, rfl, rfl, by simp [place?, hs]⟩
  | some source =>
    rw [attach_eq hs]
    refine ⟨.leave s source.log.length, rfl, rfl, fun x hx => ?_⟩
    rw [place?, hs, Option.bind_some] at hx
    split at hx
    · exact hx
    · cases hx

/-- The observer comes last at a hot source. -/
theorem attached_attach (b : Bench α σ) (s : SourceRef) (o : Observer α) (t : SourceRef) :
    (b.attach s o).2.attached t = b.attached t ++ posted (b.place? s) o t := by
  cases hs : b.sources.get? s with
  | none =>
    rw [attach_of_none hs, place?, hs]
    exact (List.append_nil _).symm
  | some source =>
    rw [attach_eq hs, attached, attached, place?, hs, Option.bind_some]
    change ((((b.sources.modify s fun _ => _).get? t).map (·.attached)).getD [] : List _) = _
    rw [Table.get?_modify]
    by_cases ht : s = t
    · subst ht
      rw [if_pos rfl, hs]
      by_cases hhot : source.temperature = .hot <;> simp [Source.join, hhot, posted]
    · rw [if_neg ht]
      by_cases hhot : source.temperature = .hot <;> simp [hhot, posted, ht]

theorem bare_attach (b : Bench α σ) (s : SourceRef) (o : Observer α) (t : SourceRef) :
    ((b.attach s o).2.sources.get? t).map Source.bare = (b.sources.get? t).map Source.bare := by
  cases hs : b.sources.get? s with
  | none => rw [attach_of_none hs]; rfl
  | some source =>
    rw [attach_eq hs]
    change ((b.sources.modify s fun _ => _).get? t).map Source.bare = _
    rw [Table.get?_modify]
    split
    next ht =>
      subst ht
      rw [hs]
      rfl
    · rfl

theorem clock_attach (hc : (b.clocks.get? c).isSome) (s : SourceRef) (o : Observer α) :
    (b.attach s o).2.clock c =
      (b.clock c).scheduleAll (.deliver b.subscriptions.next o) (b.replay c s) := by
  cases hs : b.sources.get? s with
  | none =>
    rw [attach_of_none hs, replay, hs]
    rfl
  | some source =>
    rw [attach_eq hs, replay, hs]
    change ({ b with clocks := b.clocks.modify source.clock _ } : Bench α σ).clock c = _
    rw [clock_modify]
    by_cases hclock : source.clock = c
    · subst hclock
      rw [if_pos ⟨rfl, hc⟩]
      simp only [↓reduceIte]
    · rw [if_neg fun h => hclock h.1]
      simp only [hclock, ↓reduceIte]
      rfl

theorem attach_clocks_isSome (hc : (b.clocks.get? c).isSome) (s : SourceRef) (o : Observer α) :
    ((b.attach s o).2.clocks.get? c).isSome := by
  cases hs : b.sources.get? s with
  | none => rwa [attach_of_none hs]
  | some source =>
    rw [attach_eq hs]
    change ((b.clocks.modify source.clock _).get? c).isSome
    rwa [Table.isSome_get?_modify]

/-! ### Listening to a source -/

/-- The bench on which a new recorder listens to a source behind some stages, and the end of the
recording is queued. -/
def listen (b : Bench α σ) (c : ClockRef) (src : SourceRef) (stages : List (Stage α))
    (due : VirtualTime) : Bench α σ :=
  ((b.addRecorder c).2.attach src ⟨stages, .recorder b.recorders.next⟩).2.schedule c due
    (.release b.recorders.next b.subscriptions.next)

@[simp] theorem listen_recorders (b : Bench α σ) (c : ClockRef) (src : SourceRef)
    (stages : List (Stage α)) (due : VirtualTime) :
    (b.listen c src stages due).recorders = b.recorders.push { clock := c } :=
  attach_recorders _ src _

@[simp] theorem listen_scopes (b : Bench α σ) (c : ClockRef) (src : SourceRef)
    (stages : List (Stage α)) (due : VirtualTime) : (b.listen c src stages due).scopes = b.scopes :=
  attach_scopes _ src _

@[simp] theorem listen_stack (b : Bench α σ) (c : ClockRef) (src : SourceRef)
    (stages : List (Stage α)) (due : VirtualTime) : (b.listen c src stages due).stack = b.stack :=
  attach_stack _ src _

@[simp] theorem listen_next (b : Bench α σ) (c : ClockRef) (src : SourceRef)
    (stages : List (Stage α)) (due : VirtualTime) :
    (b.listen c src stages due).sources.next = b.sources.next := attach_next _ src _

theorem clock_listen (hc : (b.clocks.get? c).isSome) (src : SourceRef) (stages : List (Stage α))
    (due : VirtualTime) :
    (b.listen c src stages due).clock c = ((b.clock c).scheduleAll
      (.deliver b.subscriptions.next ⟨stages, .recorder b.recorders.next⟩)
      (b.replay c src)).schedule due (.release b.recorders.next b.subscriptions.next) := by
  have hattach := clock_attach (b := (b.addRecorder c).2) hc src
    ⟨stages, .recorder b.recorders.next⟩
  have hexists := attach_clocks_isSome (b := (b.addRecorder c).2) hc src
    ⟨stages, .recorder b.recorders.next⟩
  rw [listen, schedule, clock_modify, if_pos ⟨rfl, hexists⟩, hattach]
  rfl

/-- What is pending then: what has been, the end of the recording, and what is brought to the
recorder. -/
theorem mem_listen {p : Pending (Action α σ)} (hc : (b.clocks.get? c).isSome)
    (h : p ∈ ((b.listen c src stages due).clock c).queue) :
    p ∈ (b.clock c).queue ∨
      p.action = .release b.recorders.next b.subscriptions.next ∨
      ∃ n, p.action = .deliver b.subscriptions.next ⟨stages, .recorder b.recorders.next⟩ n := by
  rw [clock_listen hc] at h
  rcases Clock.mem_enqueue.mp h with rfl | h
  · exact Or.inr (Or.inl rfl)
  · rcases Clock.mem_scheduleAll h with h | ⟨⟨e, -, ha⟩, -⟩
    · exact Or.inl h
    · exact Or.inr (Or.inr ⟨e.value, ha⟩)

theorem mem_listen_of_mem {p : Pending (Action α σ)} (hc : (b.clocks.get? c).isSome)
    (h : p ∈ (b.clock c).queue) : p ∈ ((b.listen c src stages due).clock c).queue := by
  rw [clock_listen hc]
  exact Clock.mem_enqueue.mpr (Or.inr (Clock.mem_scheduleAll_of_mem h))

@[simp] theorem bare_listen (b : Bench α σ) (c : ClockRef) (src : SourceRef)
    (stages : List (Stage α)) (due : VirtualTime) (s : SourceRef) :
    ((b.listen c src stages due).sources.get? s).map Source.bare =
      (b.sources.get? s).map Source.bare :=
  bare_attach (b.addRecorder c).2 src _ s

theorem attached_listen (b : Bench α σ) (c : ClockRef) (src : SourceRef) (stages : List (Stage α))
    (due : VirtualTime) (s : SourceRef) :
    (b.listen c src stages due).attached s =
      b.attached s ++ posted (b.place? src) ⟨stages, .recorder b.recorders.next⟩ s :=
  attached_attach (b.addRecorder c).2 src _ s

theorem listen_subscriptions (b : Bench α σ) (c : ClockRef) (src : SourceRef)
    (stages : List (Stage α)) (due : VirtualTime) :
    ∃ teardown : Teardown σ, teardown.isQuiet ∧
      (b.listen c src stages due).subscriptions = b.subscriptions.push { teardown } ∧
      ∀ x, b.place? src = some x → teardown.leaves? = some x :=
  attach_subscriptions (b.addRecorder c).2 src _

/-- A new recorder takes nothing from the others. -/
theorem maintains_listen (hsilent : ∀ stage ∈ stages, stage.isSilent) (b : Bench α σ) (c : ClockRef)
    (src : SourceRef) (due : VirtualTime) : Maintains b (b.listen c src stages due) where
  recorder r hr := by
    rw [listen_recorders]
    exact Table.isSome_get?_push _ hr
  teardown sub row hrow := by
    obtain ⟨teardown, -, hsubscriptions, -⟩ := b.listen_subscriptions c src stages due
    rw [hsubscriptions, Table.get?_push]
    split
    next hsub => simp [hsub, Table.get?_next] at hrow
    · exact ⟨row, hrow, rfl⟩
  observer s o ho := by
    obtain ⟨x, hx, rfl⟩ := List.mem_map.mp ho
    have hx : x ∈ (b.listen c src stages due).attached s := hx
    rw [attached_listen] at hx
    rcases List.mem_append.mp hx with hx | hx
    · exact Or.inl (List.mem_map_of_mem hx)
    · refine Or.inr ?_
      rw [(mem_posted hx).2]
      exact ⟨hsilent, b.recorders.next, rfl, by simp [Table.get?_push]⟩

theorem reaches_listen (b : Bench α σ) (c : ClockRef) (src : SourceRef) (stages : List (Stage α))
    (due : VirtualTime) : Reaches b (b.listen c src stages due) :=
  (Change.plain (.addRecorder b c)).reaches.trans
    ((Change.plain (.attach _ src _)).reaches.trans (Change.plain (.schedule _ c due rfl)).reaches)

theorem Quiet.listen (h : b.Quiet c) (hsilent : ∀ stage ∈ stages, stage.isSilent) (src : SourceRef)
    (due : VirtualTime) : (b.listen c src stages due).Quiet c := by
  have hmaintains := maintains_listen hsilent b c src due
  obtain ⟨teardown, hquiet, hsubscriptions, -⟩ := b.listen_subscriptions c src stages due
  have hrecorder : ((b.listen c src stages due).recorders.get? b.recorders.next).isSome := by
    simp [Table.get?_push]
  have hsub : (b.listen c src stages due).subscriptions.get? b.subscriptions.next =
      some { teardown } := by simp [hsubscriptions, Table.get?_push]
  refine ⟨h.lived.reaches (reaches_listen b c src stages due), ?_, ?_⟩
  · rw [Bench.listen, schedule, Table.isSome_get?_modify]
    exact attach_clocks_isSome (b := (b.addRecorder c).2) h.clock src _
  · intro p hp
    rcases mem_listen h.clock hp with hp | ha | ⟨n, ha⟩
    · exact (h.mute p hp).maintained hmaintains
    · rw [ha]
      exact ⟨hrecorder, _, hsub, hquiet⟩
    · rw [ha]
      exact ⟨by simp [hsub], hsilent, _, rfl, hrecorder⟩

/-! ### Making a source -/

theorem clock_addSource (hc : (b.clocks.get? c).isSome) (temperature : Temperature) (c' : ClockRef)
    (events : List (Timed (Signal α))) :
    (b.addSource temperature c' events).2.clock c = (b.clock c).scheduleAll
      (.multicast b.sources.next) (opening temperature c' c (b.now c) events) := by
  cases temperature with
  | cold => rfl
  | hot =>
    simp only [addSource, foldl_schedule_eq]
    change ({ b with clocks := b.clocks.modify c' _ } : Bench α σ).clock c = _
    rw [clock_modify]
    by_cases hclock : c' = c
    · subst hclock
      rw [if_pos ⟨rfl, hc⟩, opening, if_pos ⟨rfl, rfl⟩]
      rfl
    · rw [if_neg fun h => hclock h.1, opening, if_neg fun h => hclock h.2]
      rfl

theorem addSource_fields (b : Bench α σ) (temperature : Temperature) (c : ClockRef)
    (events : List (Timed (Signal α))) :
    (b.addSource temperature c events).2.recorders = b.recorders ∧
      (b.addSource temperature c events).2.subscriptions = b.subscriptions ∧
      (b.addSource temperature c events).2.sources =
        b.sources.push { temperature, clock := c, events } ∧
      (b.addSource temperature c events).2.scopes = b.scopes ∧
      (b.addSource temperature c events).2.stack = b.stack := by
  cases temperature with
  | cold => exact ⟨rfl, rfl, rfl, rfl, rfl⟩
  | hot => simp only [addSource, foldl_schedule_eq, and_self]

/-- Nobody is attached to a new source. -/
theorem attached_addSource (b : Bench α σ) (temperature : Temperature) (c : ClockRef)
    (events : List (Timed (Signal α))) (s : SourceRef) :
    (b.addSource temperature c events).2.attached s = b.attached s := by
  rw [attached, attached, (b.addSource_fields temperature c events).2.2.1, Table.get?_push]
  split
  next hs => simp [hs, Table.get?_next]
  · rfl

theorem maintains_addSource (b : Bench α σ) (temperature : Temperature) (c : ClockRef)
    (events : List (Timed (Signal α))) : Maintains b (b.addSource temperature c events).2 where
  recorder r hr := by rwa [(b.addSource_fields temperature c events).1]
  teardown sub row hrow := ⟨row, by rwa [(b.addSource_fields temperature c events).2.1], rfl⟩
  observer s o ho := by
    change o ∈ ((b.addSource temperature c events).2.attached s).map (·.2) at ho
    rw [attached_addSource] at ho
    exact Or.inl ho

theorem Quiet.addSource (h : b.Quiet c) (temperature : Temperature) (c' : ClockRef)
    (events : List (Timed (Signal α))) : (b.addSource temperature c' events).2.Quiet c := by
  refine ⟨h.lived.reaches (Change.plain (.addSource b temperature c' events)).reaches, ?_, ?_⟩
  · cases temperature with
    | cold => exact h.clock
    | hot =>
      simp only [Bench.addSource, foldl_schedule_eq, Table.isSome_get?_modify]
      exact h.clock
  · intro p hp
    rw [clock_addSource h.clock] at hp
    rcases Clock.mem_scheduleAll hp with hp | ⟨⟨e, -, ha⟩, -⟩
    · exact (h.mute p hp).maintained (maintains_addSource b temperature c' events)
    · rw [ha]
      intro o ho
      change o ∈ ((b.addSource temperature c' events).2.attached b.sources.next).map (·.2) at ho
      rw [attached_addSource, attached, Table.get?_next] at ho
      cases ho

end Bench

/-- An expectation of a source listens to it, and puts an assertion down for the end of the
scope. -/
theorem Engine.expect_source {s : ScopeRef} {scope : Scope α σ} (h : b.accepting s = .ok scope)
    (src : SourceRef) (stages : List (Stage α)) (d : Diagram α SequenceError (Effect σ))
    (compare : Compare α) :
    E.expect s ⟨.source src, stages⟩ d compare b = (.done (.ok ()),
      (b.listen scope.clock src stages (releaseAt d scope.options (b.now scope.clock))).entered s
        (releaseAt d scope.options (b.now scope.clock))
        (.events b.recorders.next d.source (expected d scope.options (b.now scope.clock))
          compare)) := by
  have hsubscribe : E.subscribe ⟨.source src, stages⟩ (.recorder b.recorders.next)
      (b.addRecorder scope.clock).2 = (.done b.subscriptions.next,
        ((b.addRecorder scope.clock).2.attach src ⟨stages, .recorder b.recorders.next⟩).2) :=
    congrArg (fun sub => (Outcome.done sub, _))
      (Bench.attach_fst (b.addRecorder scope.clock).2 src _)
  exact expect_of_subscribe h hsubscribe (Bench.attach_scopes _ src _) d compare

end Marble
