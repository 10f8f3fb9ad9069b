import Marble.Proofs.ClockHistory
import Marble.Proofs.Timeline
import Mathlib.Data.List.Induction

/-! What some of the actions in a queue hand out: it stands there in the order of time, whatever
other actions are queued or start. -/
namespace Marble

variable {κ β : Type} {f : κ → Option β} {p : Pending κ} {ps : List (Pending κ)} {x : β}
  {action : β → κ} {tl : List (Timed β)} {limit : VirtualTime}

/-- What actions hand out, with the times they are due. -/
def picked (f : κ → Option β) (ps : List (Pending κ)) : List (Timed β) :=
  ps.filterMap fun p => (f p.action).map (⟨p.due, ·⟩)

@[simp] theorem picked_append (ps ps' : List (Pending κ)) :
    picked f (ps ++ ps') = picked f ps ++ picked f ps' := List.filterMap_append

theorem picked_cons_none (h : f p.action = none) : picked f (p :: ps) = picked f ps := by
  simp [picked, h]

theorem picked_cons_some (h : f p.action = some x) :
    picked f (p :: ps) = ⟨p.due, x⟩ :: picked f ps := by simp [picked, h]

theorem mem_picked {e : Timed β} :
    e ∈ picked f ps ↔ ∃ p ∈ ps, f p.action = some e.value ∧ p.due = e.time := by
  obtain ⟨t, x⟩ := e
  simp only [picked, List.mem_filterMap, Option.map_eq_some_iff, Timed.mk.injEq]
  constructor
  · rintro ⟨p, hp, x, hx, rfl, rfl⟩
    exact ⟨p, hp, hx, rfl⟩
  · rintro ⟨p, hp, hx, rfl⟩
    exact ⟨p, hp, x, hx, rfl, rfl⟩

theorem lt_of_mem_picked (h : ∀ q ∈ ps, limit < q.due) : ∀ e ∈ picked f ps, limit < e.time := by
  intro e he
  obtain ⟨q, hq, -, hdue⟩ := mem_picked.mp he
  exact hdue ▸ h q hq

theorem picked_eq_nil (h : ∀ p ∈ ps, f p.action = none) : picked f ps = [] :=
  List.filterMap_eq_nil_iff.mpr fun p hp => by simp [h p hp]

theorem picked_enqueue_none (h : f p.action = none) :
    picked f (Clock.enqueue p ps) = picked f ps := by
  induction ps with
  | nil => exact picked_cons_none h
  | cons q rest ih =>
    rw [Clock.enqueue]
    split
    · cases hq : f q.action with
      | none => rw [picked_cons_none hq, picked_cons_none hq, ih]
      | some y => rw [picked_cons_some hq, picked_cons_some hq, ih]
    · exact picked_cons_none h

/-- What is handed out goes behind all that is due no later. -/
theorem picked_enqueue_some (h : f p.action = some x)
    (hps : ps.Pairwise fun p q => p.due ≤ q.due) :
    picked f (Clock.enqueue p ps) = Timeline.insert ⟨p.due, x⟩ (picked f ps) := by
  induction ps with
  | nil => exact picked_cons_some h
  | cons q rest ih =>
    have hrest := (List.pairwise_cons.mp hps).2
    rw [Clock.enqueue]
    split
    next hle =>
      cases hq : f q.action with
      | none => rw [picked_cons_none hq, picked_cons_none hq, ih hrest]
      | some y =>
        rw [picked_cons_some hq, picked_cons_some hq, ih hrest, Timeline.insert_cons,
          if_neg (not_lt.mpr hle)]
    next hle =>
      have hlt := VirtualTime.lt_of_pairwise hps (not_le.mp hle)
      rw [picked_cons_some h, Timeline.insert_of_forall_lt (lt_of_mem_picked hlt)]

namespace Clock

variable {k k' : Clock κ} {evs : List (ClockEvent κ)}

/-- Queues an action for each event of a timeline. -/
def scheduleAll (k : Clock κ) (action : β → κ) (tl : List (Timed β)) : Clock κ :=
  tl.foldl (fun k e => k.schedule e.time (action e.value)) k

theorem scheduleAll_concat (k : Clock κ) (action : β → κ) (tl : List (Timed β)) (e : Timed β) :
    k.scheduleAll action (tl ++ [e]) =
      (k.scheduleAll action tl).schedule e.time (action e.value) := by
  simp [scheduleAll]

@[simp] theorem now_scheduleAll : (k.scheduleAll action tl).now = k.now := by
  induction tl using List.reverseRecOn with
  | nil => rfl
  | append_singleton tl e ih => rw [scheduleAll_concat, schedule, ih]

@[simp] theorem scheduled_scheduleAll :
    (k.scheduleAll action tl).scheduled = k.scheduled + tl.length := by
  induction tl using List.reverseRecOn with
  | nil => rfl
  | append_singleton tl e ih =>
    rw [scheduleAll_concat, schedule, ih, List.length_append, List.length_singleton, Nat.add_assoc]

theorem length_scheduleAll :
    (k.scheduleAll action tl).queue.length = k.queue.length + tl.length := by
  induction tl using List.reverseRecOn with
  | nil => rfl
  | append_singleton tl e ih =>
    rw [scheduleAll_concat, schedule, length_enqueue, ih, List.length_append, List.length_singleton,
      Nat.add_assoc]

theorem Ordered.scheduleAll (h : k.Ordered) : (k.scheduleAll action tl).Ordered := by
  induction tl using List.reverseRecOn with
  | nil => exact h
  | append_singleton tl e ih =>
    rw [scheduleAll_concat]
    exact ih.schedule _ _

/-- What has been queued for a timeline is numbered from the first free number on. -/
theorem mem_scheduleAll (h : p ∈ (k.scheduleAll action tl).queue) :
    p ∈ k.queue ∨ (∃ e ∈ tl, p.action = action e.value) ∧ k.scheduled ≤ p.sequence ∧
      p.sequence < k.scheduled + tl.length := by
  induction tl using List.reverseRecOn with
  | nil => exact Or.inl h
  | append_singleton tl e ih =>
    rw [scheduleAll_concat] at h
    rw [List.length_append, List.length_singleton]
    rcases mem_enqueue.mp h with rfl | h
    · refine Or.inr ⟨⟨e, by simp, rfl⟩, ?_⟩
      rw [scheduled_scheduleAll]
      exact ⟨Nat.le_add_right _ _, Nat.lt_succ_self _⟩
    · rcases ih h with h | ⟨⟨x, hx, hp⟩, hlo, hhi⟩
      · exact Or.inl h
      · exact Or.inr ⟨⟨x, List.mem_append_left _ hx, hp⟩, hlo, by omega⟩

theorem mem_scheduleAll_of_mem (h : p ∈ k.queue) : p ∈ (k.scheduleAll action tl).queue := by
  induction tl using List.reverseRecOn with
  | nil => exact h
  | append_singleton tl e ih =>
    rw [scheduleAll_concat]
    exact mem_enqueue.mpr (Or.inr ih)

/-- A timeline that is queued stands in the queue in the order of its times. -/
theorem picked_scheduleAll (hk : k.Ordered) (hf : ∀ x, f (action x) = some x)
    (hfree : picked f k.queue = []) (hnow : ∀ e ∈ tl, k.now ≤ e.time) :
    picked f (k.scheduleAll action tl).queue = Timeline.sorted tl := by
  induction tl using List.reverseRecOn with
  | nil => exact hfree
  | append_singleton tl e ih =>
    have hdue : max e.time (k.scheduleAll action tl).now = e.time := by
      rw [now_scheduleAll]
      exact max_eq_left (hnow e (by simp))
    rw [scheduleAll_concat, schedule, hdue,
      picked_enqueue_some (hf e.value) hk.scheduleAll.pairwise_due,
      ih fun x hx => hnow x (by simp [hx]), Timeline.sorted_concat]

theorem picked_scheduleAll_none (hf : ∀ x, f (action x) = none) :
    picked f (k.scheduleAll action tl).queue = picked f k.queue := by
  induction tl using List.reverseRecOn with
  | nil => rfl
  | append_singleton tl e ih =>
    have hnone : f (action e.value) = none := hf e.value
    rw [scheduleAll_concat, schedule, ← ih]
    exact picked_enqueue_none hnone

/-- What nothing new is queued for has started or is still to come. -/
theorem Trace.picked (h : Trace k evs k')
    (hevs : ∀ x ∈ evs.filterMap ClockEvent.given?, f x.2 = none) :
    Marble.picked f (evs.filterMap ClockEvent.started?) ++ Marble.picked f k'.queue =
      Marble.picked f k.queue := by
  induction h with
  | refl => rfl
  | @queue es d h due action ih =>
    rw [List.filterMap_append] at hevs
    have hprev := ih fun x hx => hevs x (List.mem_append_left _ hx)
    have hnone : f action = none :=
      hevs (max due d.now, action) (List.mem_append_right _ (by simp [ClockEvent.given?]))
    have hqueue : Marble.picked f (d.schedule due action).queue = Marble.picked f d.queue :=
      picked_enqueue_none (p := ⟨max due d.now, d.scheduled, action⟩) hnone
    rw [hqueue, ← hprev]
    simp [List.filterMap_cons, ClockEvent.started?]
  | @start es d d' q limit h hn ih =>
    rw [List.filterMap_append] at hevs
    have hprev := ih fun x hx => hevs x (List.mem_append_left _ hx)
    obtain ⟨rest, hqueue, -, rfl⟩ := next?_eq_some hn
    rw [hqueue, ← List.singleton_append, picked_append] at hprev
    rw [← hprev]
    simp [ClockEvent.started?]
  | park _ hn ih => exact ih hevs

/-- What is pending was pending before, or has been queued since and has a later number. -/
theorem Trace.mem_queue (h : Trace k evs k') (hp : p ∈ k'.queue) :
    p ∈ k.queue ∨
      k.scheduled ≤ p.sequence ∧ (p.due, p.action) ∈ evs.filterMap ClockEvent.given? := by
  have hmem := h.perm.subset (List.mem_append_right _ hp)
  rcases List.mem_append.mp hmem with hmem | hmem
  · exact Or.inl hmem
  · right
    rw [numbered, List.mem_map] at hmem
    obtain ⟨⟨x, i⟩, hx, rfl⟩ := hmem
    exact ⟨(List.mem_zipIdx hx).1, (List.mem_zipIdx hx).2.2 ▸ List.getElem_mem _⟩

end Clock

end Marble
