import Marble.Proofs.ColdRuns

/-! What is queued on the clocks of a bench for one purpose, whichever actions serve it: it gains by
an action of that kind that is queued, loses by one that starts, and is left alone by all else. -/
namespace Marble.Bench

variable {α σ β : Type} {f : Action α σ → Option β} {b b' : Bench α σ} {c c' : ClockRef}
  {a : Action α σ} {limit target : VirtualTime} {x : β}

/-- What the actions that are queued on a clock hand out. -/
def queued (b : Bench α σ) (f : Action α σ → Option β) (c : ClockRef) : List (Timed β) :=
  picked f (b.clock c).queue

/-- What is queued for a purpose is on each clock what it was. -/
def Ignores (f : Action α σ → Option β) (b b' : Bench α σ) : Prop :=
  ∀ c, b'.queued f c = b.queued f c

instance : IsPreorder (Bench α σ) (Ignores f) where
  refl _ _ := rfl
  trans _ _ _ h h' c := (h' c).trans (h c)

theorem queued_of_clock (h : b'.clock c = b.clock c) : b'.queued f c = b.queued f c := by
  rw [queued, h, queued]

theorem ignores_of_clock (h : ∀ c, b'.clock c = b.clock c) : Ignores f b b' := fun c =>
  queued_of_clock (h c)

theorem ignores_schedule (h : f a = none) (b : Bench α σ) (c : ClockRef) (due : VirtualTime) :
    Ignores f b (b.schedule c due a) := by
  intro c'
  rw [queued, schedule, clock_modify]
  split
  · exact picked_enqueue_none h
  · rfl

/-- What is queued comes behind all of its kind that is due no later. -/
theorem queued_schedule (hb : (b.clock c').Ordered) (hc : (b.clocks.get? c').isSome)
    (h : f a = some x) (due : VirtualTime) (c : ClockRef) :
    (b.schedule c' due a).queued f c =
      if c' = c then Timeline.insert ⟨max due (b.now c'), x⟩ (b.queued f c) else b.queued f c := by
  rw [queued, schedule, clock_modify]
  by_cases hcc : c' = c
  · subst hcc
    rw [if_pos ⟨rfl, hc⟩, if_pos rfl]
    exact picked_enqueue_some h hb.pairwise_due
  · rw [if_neg fun h => hcc h.1, if_neg hcc]
    rfl

theorem ignores_park (b : Bench α σ) (c : ClockRef) (target : VirtualTime) :
    Ignores f b (b.park c target) := by
  intro c'
  rw [queued, park, clock_modify]
  split <;> rfl

/-- An action that is not of the kind starts without regard to it. -/
theorem ignores_next? (h : f a = none) (hn : b.next? c limit = some (a, b')) : Ignores f b b' := by
  obtain ⟨p, k, hp, rfl, hk, hother, -⟩ := clock_next? hn
  obtain ⟨rest, hqueue, -, rfl⟩ := Clock.next?_eq_some hp
  intro c'
  by_cases hc : c' = c
  · subst hc
    rw [queued, queued, hk, hqueue, picked_cons_none h]
  · exact queued_of_clock (hother c' hc)

/-- The start of an action of the kind takes it off its clock, which then reads the time it was
due. -/
theorem queued_next? (hb : (b.clock c).Ordered) (h : f a = some x)
    (hn : b.next? c limit = some (a, b')) :
    b.queued f c = ⟨b'.now c, x⟩ :: b'.queued f c ∧
      ∀ c', c' ≠ c → b'.queued f c' = b.queued f c' := by
  obtain ⟨p, k, hp, rfl, hk, hother, -⟩ := clock_next? hn
  have hnow : b'.now c = p.due := by
    rw [← hb.now_next? hp, ← hk]
    rfl
  obtain ⟨rest, hqueue, -, rfl⟩ := Clock.next?_eq_some hp
  refine ⟨?_, fun c' hc' => queued_of_clock (hother c' hc')⟩
  rw [queued, queued, hqueue, hk, hnow, picked_cons_some h]

/-- With nothing due by an instant, all that is queued is due after it. -/
theorem lt_of_mem_queued (hb : (b.clock c).Ordered) (hn : b.next? c limit = none) :
    ∀ e ∈ b.queued f c, limit < e.time :=
  lt_of_mem_picked (hb.lt_of_next?_eq_none (clock_next?_eq_none hn))

end Marble.Bench
