import Marble.Proofs.Tap

/-! The beginning of a recording: on a quiet clock nothing knows of a recorder that is yet to be
made, and what it is going to have taken in is what its source still has to say. -/
namespace Marble

variable {α σ : Type} {b : Bench α σ} {a : Action α σ} {src : SourceRef} {c : ClockRef}
  {due : VirtualTime}

namespace Bench

/-- What a source still has to say to somebody who begins to listen now. -/
def heard (b : Bench α σ) (c : ClockRef) (src : SourceRef) : List (Timed (Signal α)) :=
  match b.place? src with
  | some _ => aired src (b.clock c).queue
  | none => Timeline.sorted (b.replay c src)

/-- The recorder that begins to listen next. -/
def tap (b : Bench α σ) (src : SourceRef) (stages : List (Stage α)) : Tap α :=
  ⟨b.recorders.next, b.subscriptions.next, stages, b.place? src⟩

theorem fst_of_place? {y : SourceRef × Nat} (h : b.place? src = some y) : y.1 = src := by
  obtain ⟨source, -, h⟩ := Option.bind_eq_some_iff.mp h
  split at h
  · rw [← Option.some.inj h]
  · cases h

theorem replay_of_place? {y : SourceRef × Nat} (h : b.place? src = some y) :
    b.replay c src = [] := by
  obtain ⟨source, hs, h⟩ := Option.bind_eq_some_iff.mp h
  rw [replay, hs]
  split at h
  next hhot => simp [Source.replay, hhot]
  · cases h

theorem le_of_mem_replay {e : Timed (Signal α)} (h : e ∈ b.replay c src) : b.now c ≤ e.time := by
  rw [replay] at h
  split at h
  · split at h
    · rw [Source.replay] at h
      split at h
      · obtain ⟨e', -, rfl⟩ := List.mem_map.mp h
        exact VirtualTime.le_add _ _
      · cases h
    · cases h
  · cases h

/-- An action knows nothing of the recorder and the subscription that are made next. -/
structure Unaware (b : Bench α σ) (a : Action α σ) : Prop where
  deliver : ∀ sub o n, a = .deliver sub o n →
    o.sink ≠ .recorder b.recorders.next ∧ sub ≠ b.subscriptions.next
  disposes : a.disposes? ≠ some b.subscriptions.next
  releases : a.releases b.recorders.next = false
  multicast : ∀ s n, a = .multicast s n → ∀ o ∈ b.observers s, o.sink ≠ .recorder b.recorders.next

theorem Serves.sink_ne {o : Observer α} (h : b.Serves o) :
    o.sink ≠ .recorder b.recorders.next := by
  obtain ⟨r, hr, hsome⟩ := h.recorder
  intro hsink
  obtain rfl := Sink.recorder.inj (hr.symm.trans hsink)
  simp [Table.get?_next] at hsome

theorem Mute.unaware (h : b.Mute a) : b.Unaware a := by
  cases a with
  | deliver sub o n =>
    refine ⟨fun sub' o' n' ha => ?_, by simp [Action.disposes?], rfl, fun _ _ ha => by cases ha⟩
    obtain ⟨rfl, rfl, -⟩ := Action.deliver.inj ha
    refine ⟨h.2.sink_ne, ?_⟩
    rintro rfl
    simpa [Table.get?_next] using h.1
  | multicast s n =>
    refine ⟨fun _ _ _ ha => (by cases ha), by simp [Action.disposes?], rfl, fun s' n' ha o ho => ?_⟩
    obtain ⟨rfl, -⟩ := Action.multicast.inj ha
    exact (h o ho).sink_ne
  | release r sub =>
    obtain ⟨hr, row, hrow, -⟩ := h
    refine ⟨fun _ _ _ ha => (by cases ha), fun hsub => ?_, decide_eq_false fun hr' => ?_,
      fun _ _ ha => (by cases ha)⟩
    · obtain rfl := Option.some.inj hsub
      simp [Table.get?_next] at hrow
    · simp [hr', Table.get?_next] at hr
  | invoke e => exact h.elim
  | push o n => exact h.elim
  | openRun r f => exact h.elim
  | closeRun r => exact h.elim

/-- Of what is pending, a new recorder hears the events of its source if that is hot. -/
theorem Quiet.picked_brings? (h : b.Quiet c) (src : SourceRef) (stages : List (Stage α)) :
    picked (b.tap src stages).brings? (b.clock c).queue =
      if (b.place? src).isSome then aired src (b.clock c).queue else [] := by
  have hbrings : ∀ p ∈ (b.clock c).queue, (b.tap src stages).brings? p.action =
      if (b.place? src).isSome then p.action.event? src else none := by
    intro p hp
    cases ha : p.action with
    | deliver sub o n =>
      have hsub := ((h.mute p hp).unaware.deliver sub o n ha).2
      simp [Tap.brings?, tap, hsub, Action.event?]
    | multicast s n =>
      rw [Tap.brings?, tap, Action.event?]
      cases hplace : b.place? src with
      | none => rfl
      | some y =>
        rw [Option.any_some, fst_of_place? hplace]
        by_cases hs : src = s
        · simp [hs]
        · simp [hs, Ne.symm hs]
    | _ => simp [Tap.brings?, Action.event?]
  split
  next hplace =>
    refine List.filterMap_congr fun p hp => ?_
    rw [hbrings p hp, if_pos hplace]
  next hplace => exact picked_eq_nil fun p hp => by rw [hbrings p hp, if_neg hplace]

/-- What a new recorder is going to have taken in when its recording ends. -/
theorem Quiet.arrivals (h : b.Quiet c) (src : SourceRef) (stages : List (Stage α))
    (hdue : b.now c ≤ due) :
    (b.tap src stages).arrivals ((b.listen c src stages due).clock c).queue =
      Timeline.through stages ((b.heard c src).filter fun e => decide (e.time ≤ due)) := by
  have hord := h.lived.ordered c
  have hnow : max due (b.clock c).now = due := max_eq_left hdue
  have hpicked := h.picked_brings? src stages
  have hall : picked (b.tap src stages).brings? ((b.clock c).scheduleAll
      (.deliver b.subscriptions.next ⟨stages, .recorder b.recorders.next⟩) (b.replay c src)).queue =
        b.heard c src := by
    rw [heard]
    cases hplace : b.place? src with
    | some y =>
      rw [hplace] at hpicked
      rw [replay_of_place? hplace]
      exact hpicked
    | none =>
      rw [hplace] at hpicked
      exact Clock.picked_scheduleAll hord (fun _ => if_pos rfl) hpicked fun e he =>
        le_of_mem_replay he
  rw [clock_listen h.clock, Clock.schedule,
    Tap.arrivals_enqueue_releases hord.scheduleAll.pairwise_due
      (by simp [tap, Action.releases]), hall, Clock.now_scheduleAll, hnow]
  · rfl
  · intro p hp
    rcases Clock.mem_scheduleAll hp with hp | ⟨⟨e, -, ha⟩, -⟩
    · exact (h.mute p hp).unaware.releases
    · rw [ha]
      rfl

/-- Of those attached to a source that has something pending, only the new observer serves the new
recorder, if it has its place there. -/
theorem Quiet.mine_listen (h : b.Quiet c) {p : Pending (Action α σ)} (hp : p ∈ (b.clock c).queue)
    {s : SourceRef} {n : Signal α} (ha : p.action = .multicast s n) (src : SourceRef)
    (stages : List (Stage α)) (due : VirtualTime) :
    (b.tap src stages).mine (b.listen c src stages due) s =
      posted (b.place? src) (b.tap src stages).observer s := by
  have hnobody : (b.tap src stages).mine b s = [] :=
    List.filter_eq_nil_iff.mpr fun y hy hsink =>
      (h.mute p hp).unaware.multicast s n ha y.2 (List.mem_map_of_mem hy) (of_decide_eq_true hsink)
  have hposted : (posted (b.place? src) (b.tap src stages).observer s).filter (fun y =>
      decide (y.2.sink = .recorder (b.tap src stages).recorder)) =
        posted (b.place? src) (b.tap src stages).observer s :=
    List.filter_eq_self.mpr fun y hy => by simp [(mem_posted hy).2, Tap.observer]
  rw [Tap.mine] at hnobody
  rw [Tap.mine, attached_listen, List.filter_append, hnobody]
  exact hposted

/-- A new recorder is going to listen up to the end of its recording. -/
theorem Quiet.live (h : b.Quiet c) (src : SourceRef) (stages : List (Stage α))
    (hdue : b.now c ≤ due) :
    (b.tap src stages).Live due ((b.listen c src stages due).clock c).queue
      (b.listen c src stages due) := by
  obtain ⟨teardown, -, hsubscriptions, hplace⟩ := b.listen_subscriptions c src stages due
  have hsub : (b.listen c src stages due).subscriptions.get? b.subscriptions.next =
      some { teardown } := by rw [hsubscriptions, Table.get?_push, if_pos rfl]
  refine ⟨by simp [isActive, tap, hsub], ?_, fun p hp sub o n ha hown => ?_,
    fun p hp hdisposes => ?_, fun y hy => ?_, fun p hp s n ha => ?_⟩
  · rw [clock_listen h.clock]
    refine ⟨_, Clock.mem_enqueue.mpr (Or.inl rfl), by simp [tap, Action.releases], ?_⟩
    rw [Clock.now_scheduleAll]
    exact max_le (le_refl _) hdue
  · rcases mem_listen h.clock hp with hp | hp | ⟨m, hp⟩
    · obtain ⟨hsink, hne⟩ := (h.mute p hp).unaware.deliver sub o n ha
      exact (hown.elim hsink hne).elim
    · rw [hp] at ha
      cases ha
    · obtain ⟨rfl, rfl, -⟩ := Action.deliver.inj (hp.symm.trans ha)
      exact ⟨rfl, rfl⟩
  · rcases mem_listen h.clock hp with hp | hp | ⟨m, hp⟩
    · exact ((h.mute p hp).unaware.disposes hdisposes).elim
    · simp [hp, tap, Action.releases]
    · rw [hp] at hdisposes
      cases hdisposes
  · simpa [leaves?, tap, hsub] using hplace y hy
  · rcases mem_listen h.clock hp with hp | hp | ⟨m, hp⟩
    · exact h.mine_listen hp ha src stages due
    · rw [hp] at ha
      cases ha
    · rw [hp] at ha
      cases ha

/-- A new recorder tracks what its source has to say up to the end of the recording. -/
theorem Quiet.tracks (h : b.Quiet c) (src : SourceRef) (stages : List (Stage α))
    (hdue : b.now c ≤ due) :
    (b.tap src stages).Tracks c due (Timeline.untilTerminal (Timeline.through stages
      ((b.heard c src).filter fun e => decide (e.time ≤ due)))) (b.listen c src stages due)
        { clock := c } := by
  refine ⟨?_, rfl, ?_, fun _ => h.live src stages hdue⟩
  · rw [listen_recorders, tap, Table.get?_push, if_pos rfl]
  · rw [Recorder.outlook_fresh, h.arrivals src stages hdue]

end Bench

end Marble
