import Marble.Bench.Delivery
import Marble.Proofs.Changes
import Marble.Proofs.ClockHistory
import Marble.Proofs.Timeline

/-! A recorder behind a subscription: what it has taken in, and what is still on its way to it. -/
namespace Marble

variable {α σ : Type}

namespace Stage

/-- Nothing is noted when a notification passes. -/
def isSilent : Stage α → Bool
  | .map _ | .filter _ => true
  | .inspect _ | .stamp _ => false

/-- What is left of a notification behind some stages. -/
def through : List (Stage α) → Signal α → Option (Signal α)
  | [], n => some n
  | stage :: rest, n => (stage.transform n).bind (through rest)

end Stage

theorem Bench.pass_silent {stages : List (Stage α)} (h : ∀ stage ∈ stages, stage.isSilent)
    (b : Bench α σ) (n : Signal α) : b.pass stages n = (Stage.through stages n, b) := by
  induction stages generalizing n with
  | nil => rfl
  | cons stage rest ih =>
    have hw : b.witness stage n = b := by
      have hstage := h stage (by simp)
      cases stage <;> first | rfl | simp [Stage.isSilent] at hstage
    rw [Bench.pass, Stage.through, hw]
    cases stage.transform n with
    | none => rfl
    | some m => exact ih (fun stage hs => h stage (by simp [hs])) m

namespace Recorder

variable {row : Recorder α} {coming : List (Timed (Signal α))}

/-- What a recorder will have taken in once some events have come to it. -/
def outlook (row : Recorder α) (coming : List (Timed (Signal α))) : List (Timed (Signal α)) :=
  if row.state = .listening then row.messages.toList ++ Timeline.untilTerminal coming
  else row.messages.toList

theorem outlook_of_ne (h : row.state ≠ .listening) : row.outlook coming = row.messages.toList :=
  if_neg h

theorem outlook_fresh (c : ClockRef) (coming : List (Timed (Signal α))) :
    ({ clock := c } : Recorder α).outlook coming = Timeline.untilTerminal coming := by
  simp [outlook]

@[simp] theorem outlook_nil (row : Recorder α) : row.outlook [] = row.messages.toList := by
  simp [outlook, Timeline.untilTerminal]

@[simp] theorem outlook_record (row : Recorder α) (t : VirtualTime) (n : Signal α) :
    (row.record t n).outlook coming = row.outlook (⟨t, n⟩ :: coming) := by
  unfold outlook record
  by_cases h : row.state = .listening
  · cases hn : n.isTerminal <;> simp [h, hn, Timeline.untilTerminal]
  · simp [h]

@[simp] theorem outlook_detach (row : Recorder α) (coming : List (Timed (Signal α))) :
    row.detach.outlook coming = row.outlook [] := by
  rw [outlook_nil, detach]
  split
  · exact outlook_of_ne (by simp)
  next h => exact outlook_of_ne h

theorem detach_state (row : Recorder α) : row.detach.state ≠ .listening := by
  rw [detach]
  split
  · simp
  next h => exact h

theorem listening_of_record (row : Recorder α) {t : VirtualTime} {n : Signal α}
    (h : (row.record t n).state = .listening) : row.state = .listening := by
  rw [record] at h
  split at h
  next hl => exact hl
  · exact h

end Recorder

/-- A recorder, the subscription it listens to, and the clock both go by. -/
structure Watch where
  clock : ClockRef
  recorder : RecorderRef
  sub : SubscriptionRef

namespace Watch

variable {w : Watch} {p q : Pending (Action α σ)} {ps : List (Pending (Action α σ))}
  {limit : VirtualTime} {e : Timed (Signal α)}

/-- The actions that end the recording. -/
def stops (w : Watch) : Action α σ → Bool
  | .release r _ => r = w.recorder
  | .closeRun r => r = w.recorder
  | _ => false

/-- The actions that hand a notification to the recorder. -/
def feeds (w : Watch) : Action α σ → Bool
  | .deliver s o _ => s = w.sub ∧ o.sink = .recorder w.recorder
  | _ => false

/-- What a pending action brings to the recorder, and when. -/
def arrival? (w : Watch) (p : Pending (Action α σ)) : Option (Timed (Signal α)) :=
  match p.action with
  | .deliver s o n =>
    if s = w.sub ∧ o.sink = .recorder w.recorder then
      (Stage.through o.stages n).map fun m => ⟨p.due, m⟩
    else none
  | _ => none

/-- What pending actions bring to the recorder before one of them ends the recording. -/
def arrivals (w : Watch) : List (Pending (Action α σ)) → List (Timed (Signal α))
  | [] => []
  | p :: rest => if w.stops p.action then [] else (w.arrival? p).toList ++ arrivals w rest

theorem time_of_arrival? (h : w.arrival? p = some e) : e.time = p.due := by
  rw [arrival?] at h
  split at h
  · split at h
    · obtain ⟨m, _, rfl⟩ := Option.map_eq_some_iff.mp h
      rfl
    · simp at h
  · simp at h

theorem arrival?_of_not_feeds (h : w.feeds p.action = false) : w.arrival? p = none := by
  rw [arrival?]
  split
  next s o n ha =>
    rw [ha] at h
    exact if_neg (by simpa [feeds] using h)
  · rfl

theorem mem_arrivals (h : e ∈ w.arrivals ps) : ∃ p ∈ ps, w.arrival? p = some e := by
  induction ps with
  | nil => simp [arrivals] at h
  | cons p rest ih =>
    rw [arrivals] at h
    split at h
    · simp at h
    · rcases List.mem_append.mp h with h | h
      · exact ⟨p, by simp, by simpa using h⟩
      · obtain ⟨q, hq, he⟩ := ih h
        exact ⟨q, by simp [hq], he⟩

theorem arrivals_lt (h : ∀ q ∈ ps, limit < q.due) : ∀ e ∈ w.arrivals ps, limit < e.time := by
  intro e he
  obtain ⟨q, hq, he⟩ := mem_arrivals he
  rw [time_of_arrival? he]
  exact h q hq

/-- An action on its way into an orderly queue: what it brings goes in its place, unless the
recording ends first. -/
theorem arrivals_enqueue (hps : ps.Pairwise fun p q => p.due ≤ q.due)
    (hp : w.stops p.action = false) :
    w.arrivals (Clock.enqueue p ps) =
      if ∃ q ∈ ps, w.stops q.action ∧ q.due ≤ p.due then w.arrivals ps
      else (w.arrival? p).elim (w.arrivals ps) (Timeline.insert · (w.arrivals ps)) := by
  induction ps with
  | nil => cases h : w.arrival? p <;> simp [Clock.enqueue, arrivals, hp, h, Timeline.insert]
  | cons q rest ih =>
    have hrest := (List.pairwise_cons.mp hps).2
    rw [Clock.enqueue]
    split
    next hle =>
      cases hs : w.stops q.action with
      | true =>
        rw [if_pos ⟨q, by simp, hs, hle⟩]
        simp [arrivals, hs]
      | false =>
        rw [arrivals, arrivals, ih hrest]
        simp only [hs, List.mem_cons, exists_eq_or_imp, Bool.false_eq_true, false_and, false_or,
          ↓reduceIte]
        split
        · rfl
        · cases he : w.arrival? p with
          | none => rfl
          | some e =>
            cases hf : w.arrival? q with
            | none => rfl
            | some f =>
              have hfe : f.time ≤ e.time := by rwa [time_of_arrival? he, time_of_arrival? hf]
              simp [Timeline.insert_cons, not_lt.mpr hfe]
    next hle =>
      have hlt := VirtualTime.lt_of_pairwise hps (not_le.mp hle)
      rw [if_neg (by rintro ⟨r, hr, _, h⟩; exact not_lt.mpr h (hlt r hr)), arrivals, hp]
      cases he : w.arrival? p with
      | none => rfl
      | some e =>
        have hall := arrivals_lt (w := w) hlt
        rw [← time_of_arrival? he] at hall
        exact (Timeline.insert_of_forall_lt hall).symm

/-- An action that ends the recording cuts off what comes after it. -/
theorem arrivals_enqueue_stop (hps : ps.Pairwise fun p q => p.due ≤ q.due)
    (hp : w.stops p.action) (hno : ∀ q ∈ ps, w.stops q.action = false) :
    w.arrivals (Clock.enqueue p ps) =
      (w.arrivals ps).filter fun e => decide (e.time ≤ p.due) := by
  induction ps with
  | nil => simp [Clock.enqueue, arrivals, hp]
  | cons q rest ih =>
    have hrest := (List.pairwise_cons.mp hps).2
    have hqs := hno q (by simp)
    rw [Clock.enqueue]
    split
    next hle =>
      rw [arrivals, arrivals, ih hrest fun r hr => hno r (by simp [hr]), hqs]
      cases he : w.arrival? q with
      | none => rfl
      | some e =>
        have hte : e.time ≤ p.due := by rwa [time_of_arrival? he]
        simp [hte]
    next hle =>
      have hlt := VirtualTime.lt_of_pairwise hps (not_le.mp hle)
      rw [Timeline.filter_eq_nil_of_lt (arrivals_lt hlt), arrivals, if_pos hp]

/-- What is due by an instant brings what comes by then. -/
theorem arrivals_takeWhile (hps : ps.Pairwise fun p q => p.due ≤ q.due) :
    w.arrivals (ps.takeWhile fun p => decide (p.due ≤ limit)) =
      (w.arrivals ps).filter fun e => decide (e.time ≤ limit) := by
  induction ps with
  | nil => rfl
  | cons q rest ih =>
    have hrest := (List.pairwise_cons.mp hps).2
    rcases le_or_gt q.due limit with hle | hlt
    · rw [List.takeWhile_cons_of_pos (by simpa using hle), arrivals, arrivals, ih hrest]
      split
      · rfl
      · cases he : w.arrival? q with
        | none => rfl
        | some e =>
          have hte : e.time ≤ limit := by rwa [time_of_arrival? he]
          simp [hte]
    · have hall := VirtualTime.lt_of_pairwise hps hlt
      rw [List.takeWhile_cons_of_neg (by simpa using hlt),
        Timeline.filter_eq_nil_of_lt (arrivals_lt hall), arrivals]

end Watch

end Marble
