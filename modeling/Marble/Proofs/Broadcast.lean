import Marble.Proofs.Drive
import Marble.Proofs.Picking
import Marble.Proofs.Watch

/-! The events of a hot source in the queue of its clock, and what a recorder hears of them between
the opening and the closing of a timed run. -/
namespace Marble

variable {α σ : Type} {s : SourceRef} {r : RecorderRef} {factory : σ} {on : Bool}
  {p q : Pending (Action α σ)} {ps : List (Pending (Action α σ))} {n : Signal α}
  {k : Clock (Action α σ)} {events : List (Timed (Signal α))} {P : VirtualTime → Bool}

/-- What a recorder hears of the events in a queue, if it is already on or once it is turned on. -/
def heard (on : Bool) : List (Pending (Action α σ)) → List (Timed (Signal α))
  | [] => []
  | p :: rest =>
    match p.action with
    | .multicast _ n => if on then ⟨p.due, n⟩ :: heard on rest else heard on rest
    | .openRun .. => heard true rest
    | .closeRun _ => []
    | _ => heard on rest

/-- A queue that holds events of a hot source, and at most one opening of a run. -/
inductive Plays (s : SourceRef) (r : RecorderRef) (factory : σ) :
    Bool → List (Pending (Action α σ)) → Prop
  | nil (on : Bool) : Plays s r factory on []
  | multicast {on : Bool} {p : Pending (Action α σ)} {n : Signal α}
    {ps : List (Pending (Action α σ))}
    (hp : p.action = .multicast s n) (h : Plays s r factory on ps) : Plays s r factory on (p :: ps)
  | openRun {p : Pending (Action α σ)} {ps : List (Pending (Action α σ))}
    (hp : p.action = .openRun r factory) (h : Plays s r factory true ps) :
    Plays s r factory false (p :: ps)
  | closeRun {on : Bool} {p : Pending (Action α σ)} {ps : List (Pending (Action α σ))}
    (hp : p.action = .closeRun r) (h : Plays s r factory false ps) : Plays s r factory on (p :: ps)

/-- A queue that holds nothing but events of a hot source. -/
def Airs (s : SourceRef) (ps : List (Pending (Action α σ))) : Prop :=
  ∀ p ∈ ps, ∃ n, p.action = .multicast s n

theorem heard_multicast_true (hp : p.action = .multicast s n) :
    heard true (p :: ps) = ⟨p.due, n⟩ :: heard true ps := by simp [heard, hp]

theorem heard_multicast_false (hp : p.action = .multicast s n) :
    heard false (p :: ps) = heard false ps := by simp [heard, hp]

theorem heard_openRun (hp : p.action = .openRun r factory) :
    heard on (p :: ps) = heard true ps := by simp [heard, hp]

theorem heard_closeRun (hp : p.action = .closeRun r) : heard on (p :: ps) = [] := by
  simp [heard, hp]

theorem Airs.of_cons (h : Airs s (p :: ps)) : Airs s ps := fun q hq => h q (by simp [hq])

theorem Airs.plays (h : Airs s ps) (on : Bool) : Plays s r factory on ps := by
  induction ps with
  | nil => exact .nil on
  | cons p ps ih =>
    obtain ⟨n, hp⟩ := h p (by simp)
    exact .multicast hp (ih h.of_cons)

theorem Plays.off (h : Plays s r factory true ps) : Plays s r factory false ps := by
  generalize hon : true = on at h
  induction h with
  | nil => exact .nil false
  | multicast hp _ ih => exact .multicast hp (ih hon)
  | openRun => cases hon
  | closeRun hp h => exact .closeRun hp h

theorem Airs.plays_enqueue (h : Airs s ps) (hq : q.action = .openRun r factory) :
    Plays s r factory false (Clock.enqueue q ps) := by
  induction ps with
  | nil => exact .openRun hq (.nil true)
  | cons p ps ih =>
    obtain ⟨n, hp⟩ := h p (by simp)
    rw [Clock.enqueue]
    split
    · exact .multicast hp (ih h.of_cons)
    · exact .openRun hq (h.plays true)

theorem Plays.enqueue (h : Plays s r factory on ps) (hq : q.action = .closeRun r) :
    Plays s r factory on (Clock.enqueue q ps) := by
  have hoff : ∀ {on} {ps : List (Pending (Action α σ))},
      Plays s r factory on ps → Plays s r factory on (q :: ps) := by
    intro on ps h
    cases on with
    | true => exact .closeRun hq h.off
    | false => exact .closeRun hq h
  induction h with
  | nil on => exact .closeRun hq (.nil false)
  | multicast hp h ih =>
    rw [Clock.enqueue]
    split
    · exact .multicast hp ih
    · exact hoff (.multicast hp h)
  | openRun hp h ih =>
    rw [Clock.enqueue]
    split
    · exact .openRun hp ih
    · exact hoff (.openRun hp h)
  | closeRun hp h ih =>
    rw [Clock.enqueue]
    split
    · exact .closeRun hp ih
    · exact hoff (.closeRun hp h)

/-! ### What is heard -/

theorem heard_filter (h : Airs s ps) (P : VirtualTime → Bool) :
    heard true (ps.filter fun p => P p.due) = (heard true ps).filter fun e => P e.time := by
  induction ps with
  | nil => rfl
  | cons p ps ih =>
    obtain ⟨n, hp⟩ := h p (by simp)
    rw [heard_multicast_true hp, List.filter_cons, List.filter_cons]
    split
    · rw [heard_multicast_true hp, ih h.of_cons]
    · exact ih h.of_cons

/-- An event is heard behind all that are due no later. -/
theorem heard_enqueue (h : Airs s ps) (hp : p.action = .multicast s n) :
    heard true (Clock.enqueue p ps) = Timeline.insert ⟨p.due, n⟩ (heard true ps) := by
  induction ps with
  | nil => exact heard_multicast_true hp
  | cons q ps ih =>
    obtain ⟨m, hq⟩ := h q (by simp)
    rw [Clock.enqueue, heard_multicast_true hq, Timeline.insert_cons]
    split
    next hle => rw [heard_multicast_true hq, ih h.of_cons, if_neg (not_lt.mpr hle)]
    next hle =>
      rw [heard_multicast_true hp, heard_multicast_true hq, if_pos (not_le.mp hle)]

theorem pairwise_due_of_cons (h : (p :: ps).Pairwise fun p q => p.due ≤ q.due) :
    ∀ q ∈ p :: ps, p.due ≤ q.due := by
  intro q hq
  rcases List.mem_cons.mp hq with rfl | hq
  · exact le_rfl
  · exact (List.pairwise_cons.mp h).1 q hq

/-- A recorder hears what comes after it has been turned on: the event of that instant has
passed. -/
theorem heard_enqueue_openRun (h : Airs s ps) (hord : ps.Pairwise fun p q => p.due ≤ q.due)
    (hq : q.action = .openRun r factory) (hP : ∀ t t', t ≤ t' → P t' → P t) :
    heard false ((Clock.enqueue q ps).filter fun p => P p.due) =
      (heard true ps).filter fun e => decide (q.due < e.time) && P e.time := by
  induction ps with
  | nil =>
    rw [Clock.enqueue, List.filter_cons]
    split
    · exact heard_openRun hq
    · rfl
  | cons p ps ih =>
    have hall := pairwise_due_of_cons hord
    obtain ⟨n, hp⟩ := h p (by simp)
    rw [Clock.enqueue]
    split
    next hle =>
      have hrest := ih h.of_cons (List.pairwise_cons.mp hord).2
      rw [heard_multicast_true hp, List.filter_cons,
        List.filter_cons_of_neg (by simp [hle]), ← hrest]
      split
      · exact heard_multicast_false hp
      · rfl
    next hle =>
      have hlt : ∀ p' ∈ p :: ps, q.due < p'.due := fun p' hp' =>
        lt_of_lt_of_le (not_le.mp hle) (hall p' hp')
      have hkeep : (p :: ps).filter (fun p => P p.due) =
          (p :: ps).filter fun p => decide (q.due < p.due) && P p.due :=
        List.filter_congr fun p' hp' => by simp [hlt p' hp']
      rw [List.filter_cons, ← heard_filter h fun t => decide (q.due < t) && P t, ← hkeep]
      split
      · exact heard_openRun hq
      next hno =>
        have hnone : (p :: ps).filter (fun p => P p.due) = [] := by
          refine List.filter_eq_nil_iff.mpr fun p' hp' hyes => hno ?_
          exact hP _ _ (le_of_lt (hlt p' hp')) hyes
        rw [hnone]
        rfl

/-- A recorder hears what comes before it is turned off, the event of that instant included. -/
theorem heard_enqueue_closeRun (hord : ps.Pairwise fun p q => p.due ≤ q.due)
    (hq : q.action = .closeRun r) (hP : ∀ t t', t ≤ t' → P t' → P t) :
    heard on ((Clock.enqueue q ps).filter fun p => P p.due) =
      heard on (ps.filter fun p => decide (p.due ≤ q.due) && P p.due) := by
  induction ps generalizing on with
  | nil =>
    rw [Clock.enqueue, List.filter_cons]
    split
    · exact heard_closeRun hq
    · rfl
  | cons p ps ih =>
    have hall := pairwise_due_of_cons hord
    have hrest : ∀ on, heard on ((Clock.enqueue q ps).filter fun p => P p.due) =
        heard on (ps.filter fun p => decide (p.due ≤ q.due) && P p.due) := fun _ =>
      ih (List.pairwise_cons.mp hord).2
    rw [Clock.enqueue]
    split
    next hle =>
      rw [List.filter_cons, List.filter_cons]
      simp only [hle, decide_true, Bool.true_and]
      split
      · cases hp : p.action <;> simp [heard, hp, hrest]
      · exact hrest on
    next hle =>
      have hlt : ∀ p' ∈ p :: ps, q.due < p'.due := fun p' hp' =>
        lt_of_lt_of_le (not_le.mp hle) (hall p' hp')
      have hnone : (p :: ps).filter (fun p => decide (p.due ≤ q.due) && P p.due) = [] :=
        List.filter_eq_nil_iff.mpr fun p' hp' => by simp [not_le.mpr (hlt p' hp')]
      rw [hnone, List.filter_cons]
      split
      · exact heard_closeRun hq
      next hno =>
        have hnone : (p :: ps).filter (fun p => P p.due) = [] := by
          refine List.filter_eq_nil_iff.mpr fun p' hp' hyes => hno ?_
          exact hP _ _ (le_of_lt (hlt p' hp')) hyes
        rw [hnone]

namespace Timeline

variable {β : Type}

/-- Whether events are left out before or after sorting makes no difference. -/
theorem sorted_filter (tl : List (Timed β)) (keep : Timed β → Bool) :
    sorted (tl.filter keep) = (sorted tl).filter keep := by
  induction tl using List.reverseRecOn with
  | nil => rfl
  | append_singleton tl e ih =>
    rw [sorted_concat, filter_insert (pairwise_sorted tl), List.filter_append, ← ih]
    cases hkeep : keep e <;> simp [hkeep, sorted_concat]

end Timeline

namespace Clock

/-- A clock that has queued the events of a hot source. -/
def airing (k : Clock (Action α σ)) (s : SourceRef) (events : List (Timed (Signal α))) :
    Clock (Action α σ) :=
  events.foldl (fun k e => k.schedule e.time (.multicast s e.value)) k

theorem airing_eq (k : Clock (Action α σ)) (s : SourceRef) (events : List (Timed (Signal α))) :
    k.airing s events = k.scheduleAll (.multicast s) events := rfl

theorem airing_concat (e : Timed (Signal α)) :
    k.airing s (events ++ [e]) = (k.airing s events).schedule e.time (.multicast s e.value) :=
  k.scheduleAll_concat (.multicast s) events e

@[simp] theorem now_airing : (k.airing s events).now = k.now := by
  rw [airing_eq, now_scheduleAll]

theorem Ordered.airing (h : k.Ordered) : (k.airing s events).Ordered := by
  rw [airing_eq]
  exact h.scheduleAll

theorem length_airing : (k.airing s events).queue.length = k.queue.length + events.length := by
  rw [airing_eq, length_scheduleAll]

theorem airs_airing (hempty : k.queue = []) : Airs s (k.airing s events).queue := by
  induction events using List.reverseRecOn with
  | nil => simp [airing, hempty, Airs]
  | append_singleton events e ih =>
    rw [airing_concat]
    intro p hp
    rcases mem_enqueue.mp hp with rfl | hp
    · exact ⟨e.value, rfl⟩
    · exact ih p hp

/-- Events that are not past are queued in the order of their times. -/
theorem heard_airing (hempty : k.queue = []) (hnow : ∀ e ∈ events, k.now ≤ e.time) :
    heard true (k.airing s events).queue = Timeline.sorted events := by
  induction events using List.reverseRecOn with
  | nil => simp [airing, hempty, heard, Timeline.sorted]
  | append_singleton events e ih =>
    have hdue : max e.time (k.airing s events).now = e.time := by
      rw [now_airing]
      exact max_eq_left (hnow e (by simp))
    rw [airing_concat, Timeline.sorted_concat, ← ih fun x hx => hnow x (by simp [hx]), schedule,
      hdue]
    exact heard_enqueue (airs_airing hempty) rfl

/-- Of the events that a new source queues, some may have passed already. -/
theorem heard_left (hempty : k.queue = []) (keep : VirtualTime → Bool) :
    heard true ((k.airing s (events.filter fun e => decide (k.now ≤ e.time))).queue.filter
        fun p => keep p.due) =
      (Timeline.sorted events).filter fun e => keep e.time && decide (k.now ≤ e.time) := by
  have hcoming : ∀ e ∈ events.filter (fun e => decide (k.now ≤ e.time)), k.now ≤ e.time :=
    fun e he => by simpa using (List.mem_filter.mp he).2
  rw [heard_filter (airs_airing hempty), heard_airing hempty hcoming, Timeline.sorted_filter,
    List.filter_filter]

end Clock

/-- A hot source queues what is still to come of its timeline. -/
theorem Bench.addSource_hot {b : Bench α σ} {c : ClockRef} (hk : b.clocks.get? c = some k)
    (events : List (Timed (Signal α))) :
    ∃ b', b.addSource .hot c events = (b.sources.next, b') ∧
      b'.sources.get? b.sources.next = some { temperature := .hot, clock := c, events } ∧
      b'.clocks.get? c = some (k.airing b.sources.next
        (events.filter fun e => decide (k.now ≤ e.time))) := by
  have hnow : b.now c = k.now := by simp [Bench.now, hk]
  simp only [Bench.addSource, hnow]
  rw [Bench.foldl_schedule_eq]
  exact ⟨_, rfl, by simp [Table.get?_push], by simp [Table.get?_modify, hk, Clock.airing]⟩

/-- Subscribing to a hot source attaches an observer behind all others. -/
theorem Bench.attach_hot {b : Bench α σ} {source : Source α} (hs : b.sources.get? s = some source)
    (hhot : source.temperature = .hot) (o : Observer α) :
    ∃ b', b.attach s o = (b.subscriptions.next, b') ∧ b'.names = b.names ∧ b'.clocks = b.clocks ∧
      b'.recorders = b.recorders ∧
      b'.subscriptions.get? b.subscriptions.next =
        some { teardown := .leave s source.log.length } ∧
      b'.sources.get? s = some { source with
        log := source.log ++ [⟨b.now source.clock, none⟩]
        attached := source.attached ++ [(source.log.length, o)] } := by
  simp only [Bench.attach, hs, hhot, Bench.addSubscription]
  refine ⟨_, rfl, rfl, rfl, rfl, by simp [Table.get?_push], ?_⟩
  simp [Table.get?_modify, hs]

end Marble
