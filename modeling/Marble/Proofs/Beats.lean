import Marble.Proofs.Agreement

/-! Side effects are compared as events are: instants come out alike whether they are compared as
those of effects, or as those of events that all carry one and the same value. -/
namespace Marble

variable {α ε : Type} {v : α} {grid : TimeGrid} {index : Nat}

/-- A timeline with one and the same value at each of some instants. -/
def Timeline.beat (v : α) (instants : List VirtualTime) : List (Event α ε) :=
  instants.map fun t => ⟨t, .next v⟩

open Timeline (beat)

/-- What comes of comparing instants, first as those of effects, then as those of a value. Both
pass, both have the same counts, or both differ first at the same place; there each shows the two
instants in its own way. -/
inductive Tallies (ε : Type) [Shown α] [Shown ε] (v : α) :
    Except Error Unit → Except Error Unit → Prop
  | pass : Tallies ε v (.ok ()) (.ok ())
  | count (expected actual : Nat) :
    Tallies ε v (.error (.countMismatch expected actual)) (.error (.countMismatch expected actual))
  | place (index : Nat) (e a : VirtualTime) :
    Tallies ε v (.error (.eventMismatch index (effectText e) (effectText a)))
      (.error (.eventMismatch index (text (⟨e, .next v⟩ : Event α ε))
        (text (⟨a, .next v⟩ : Event α ε))))

theorem Tallies.of_pass [Shown α] [Shown ε] {result : Except Error Unit}
    (h : Tallies ε v (.ok ()) result) : result = .ok () := by
  cases h
  rfl

variable [BEq α] [BEq ε]

/-- Of two events with one value, the grid decides whether they agree. -/
theorem agrees_beat (hv : (v == v) = true) (e a : VirtualTime) :
    (⟨e, .next v⟩ : Event α ε).agrees .structural grid ⟨a, .next v⟩ =
      .ok (decide (e.truncate grid = a.truncate grid)) := by
  by_cases hcell : e.truncate grid = a.truncate grid
  · simp [Timed.agrees, Compare.structural, hcell, hv]
  · simp [Timed.agrees, hcell]

variable [Shown α] [Shown ε]

/-- The search for the first instant in another cell and that for the first pair of events that does
not agree go on and stop together. -/
theorem tallies_checkPairs (hv : (v == v) = true) (expected instants : List VirtualTime) :
    Tallies ε v (checkInstants grid index expected instants)
      (checkPairs (ε := ε) .structural grid index (beat v expected) (beat v instants)) := by
  induction expected generalizing instants index with
  | nil => exact .pass
  | cons e expected ih =>
    cases instants with
    | nil => exact .pass
    | cons a instants =>
      have hagrees : (⟨e, .next v⟩ : Event α ε).agrees .structural grid ⟨a, .next v⟩ =
          .ok (decide (e.truncate grid = a.truncate grid)) := agrees_beat hv e a
      by_cases hcell : e.truncate grid = a.truncate grid
      · have hinstants : checkInstants grid index (e :: expected) (a :: instants) =
            checkInstants grid (index + 1) expected instants := by
          simp [checkInstants, hcell]
        have hpairs : checkPairs (ε := ε) .structural grid index (beat v (e :: expected))
            (beat v (a :: instants)) =
              checkPairs (ε := ε) .structural grid (index + 1) (beat v expected)
                (beat v instants) := by
          simp [beat, checkPairs, hagrees, hcell]
        rw [hinstants, hpairs]
        exact ih instants
      · have hinstants : checkInstants grid index (e :: expected) (a :: instants) =
            .error (.eventMismatch index (effectText e) (effectText a)) := by
          simp [checkInstants, hcell]
        have hpairs : checkPairs (ε := ε) .structural grid index (beat v (e :: expected))
            (beat v (a :: instants)) =
              .error (.eventMismatch index (text (⟨e, .next v⟩ : Event α ε))
                (text (⟨a, .next v⟩ : Event α ε))) := by
          simp [beat, checkPairs, hagrees, hcell]
        rw [hinstants, hpairs]
        exact .place index e a

/-- Invocations and effects come out as the timelines do that have one and the same value at each of
their instants: for all of them and on every grid, if and only if that value counts as equal to
itself. -/
theorem checkEffects_tallies_iff (v : α) :
    (∀ (φ : Type) (grid : TimeGrid) (invocations : List VirtualTime) (expected : List (Timed φ)),
      Tallies ε v (checkEffects grid invocations expected)
        (checkEvents (ε := ε) .structural grid (beat v invocations)
          (beat v (expected.map (·.time))))) ↔
      (v == v) = true := by
  constructor
  · intro h
    have hone := h Unit .exact [.zero] [⟨.zero, ()⟩]
    have hevents : checkEvents (ε := ε) .structural .exact [⟨.zero, .next v⟩] [⟨.zero, .next v⟩] =
        .ok () := hone.of_pass
    simpa [Compare.structural] using checkEvents_next.mp hevents
  · intro hv φ grid invocations expected
    by_cases hlength : invocations.length = expected.length
    · have hpairs : Tallies ε v (checkInstants grid 0 (expected.map (·.time)) invocations)
          (checkPairs .structural grid 0 (beat v (expected.map (·.time))) (beat v invocations)) :=
        tallies_checkPairs hv (expected.map (·.time)) invocations
      simpa [checkEffects, checkEvents, beat, hlength] using hpairs
    · have hcount := Tallies.count (ε := ε) (v := v) expected.length invocations.length
      simpa [checkEffects, checkEvents, beat, hlength] using hcount

end Marble
