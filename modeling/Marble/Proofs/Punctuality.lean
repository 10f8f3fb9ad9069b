import Marble.Proofs.DispatchOrder
import Marble.Proofs.Listening

/-! What can be relied on of a clock at any moment: nothing in its queue is late, nothing is lost
from it, and it never runs back. -/
namespace Marble

variable {κ α σ : Type} {c : ClockRef} {limit target : VirtualTime}

namespace Clock

variable {k : Clock κ} {evs : List (ClockEvent κ)}

/-- Whatever has been queued has started or is pending. -/
theorem Trace.pending_add_dispatched (h : Trace ({} : Clock κ) evs k) :
    k.pending + k.dispatched = k.scheduled := by
  have hperm := h.perm.length_eq
  have hstarted : k.dispatched = (evs.filterMap ClockEvent.started?).length := by
    simpa using h.dispatched
  have hgiven : k.scheduled = (evs.filterMap ClockEvent.given?).length := by
    simpa using h.scheduled
  simp only [List.length_append, List.length_nil, numbered, List.length_map, List.length_zipIdx]
    at hperm
  rw [pending]
  omega

/-- Parking a clock where it has already been changes nothing. -/
theorem park_eq_self (h : target ≤ k.now) : k.park target = k := by
  rw [park, max_eq_left h]

end Clock

namespace Bench

variable {b b' : Bench α σ} {k : Clock (Action α σ)}

theorem clock_eq (hk : b.clocks.get? c = some k) : b.clock c = k := by
  rw [clock, hk, Option.getD_some]

theorem get?_park (b : Bench α σ) (c : ClockRef) (target : VirtualTime) :
    (b.park c target).clocks.get? c = (b.clocks.get? c).map (·.park target) := by
  simp [park, Table.get?_modify]

theorem park_eq_self (h : target ≤ b.now c) : b.park c target = b := by
  have hclocks : b.clocks.modify c (·.park target) = b.clocks.modify c fun k => k :=
    Table.modify_congr fun k hk => Clock.park_eq_self (by simpa [now, hk] using h)
  rw [park, hclocks, Table.modify_id]

/-- Nothing is due before the time a clock reads. -/
theorem Lived.next?_eq_none (h : b.Lived) (hlt : limit < b.now c) : b.next? c limit = none := by
  cases hn : b.next? c limit with
  | none => rfl
  | some next =>
    obtain ⟨p, rest, -, hqueue, -, hdue, -⟩ := h.next? hn
    have hlate := (h.ordered c).due p (by simp [hqueue])
    exact absurd (le_trans hlate hdue) (not_le.mpr hlt)

/-- A clock that has been made is there from then on. -/
theorem Change.clocks_isSome (h : Change b b') (hc : (b.clocks.get? c).isSome) :
    (b'.clocks.get? c).isSome := by
  have hpush : (b.addClock.2.clocks.get? c).isSome := by
    rw [addClock, Table.get?_push]
    split
    · rfl
    · exact hc
  cases h with
  | plain h =>
    cases h with
    | addClock => exact hpush
    | beginScope options => exact hpush
    | schedule c' due ha => rwa [Bench.schedule, Table.isSome_get?_modify]
    | park h => rwa [Bench.park, Table.isSome_get?_modify]
    | start h =>
      obtain ⟨row, hrow⟩ := exists_clock h
      obtain ⟨p, row', -, -, rfl⟩ := next?_eq_some hrow h
      rwa [note, Table.isSome_get?_modify]
    | addSource temperature c' events =>
      cases temperature with
      | cold => exact hc
      | hot =>
        rw [Bench.addSource, foldl_schedule_eq]
        rwa [Table.isSome_get?_modify]
    | attach s o => exact attach_clocks_isSome hc s o
    | register s t a =>
      rw [Bench.register]
      split <;> exact hc
    | _ => exact hc
  | _ => exact hc

theorem Reaches.clocks_isSome (h : Reaches b b') (hc : (b.clocks.get? c).isSome) :
    (b'.clocks.get? c).isSome := by
  induction h with
  | refl => exact hc
  | tail _ hstep ih => exact hstep.clocks_isSome ih

/-- What has ever been queued on a clock is pending or has started. -/
theorem Lived.pending_add_dispatched (h : b.Lived) (c : ClockRef) :
    (b.clock c).pending + (b.clock c).dispatched = (b.clock c).scheduled := by
  obtain ⟨_, htrace⟩ := h.history c
  exact htrace.pending_add_dispatched

end Bench

namespace Engine

open Bench

variable {E : Engine α σ} {b b' b₁ : Bench α σ} {k : Clock (Action α σ)}
  {ran : List (Pending (Action α σ))} {fuel : Nat}

/-- A drain that comes to its end has run some actions, each of which got done. -/
theorem Runs.of_drainWith (hruns : E.Runs c limit b ran b₁)
    (h : E.drainWith c limit fuel b₁ = (.done (), b')) : ∃ ran', E.Runs c limit b ran' b' := by
  induction fuel generalizing b₁ ran with
  | zero => simp [drainWith, Run.exhaust] at h
  | succ fuel ih =>
    cases hn : b₁.next? c limit with
    | none =>
      rw [drainWith_idle hn] at h
      obtain rfl := congrArg Prod.snd h
      exact ⟨ran, hruns⟩
    | some next =>
      obtain ⟨a, b₂⟩ := next
      rw [drainWith_turn hn] at h
      obtain ⟨_, b₃, hrun, hrest⟩ := Run.bind_eq_done h
      obtain ⟨row, hrow⟩ := exists_clock hn
      obtain ⟨p, row', hnext, rfl, -⟩ := next?_eq_some hrow hn
      obtain ⟨rest, hqueue, -⟩ := Clock.next?_eq_some hnext
      exact ih (hruns.turn (by rw [clock_eq hrow, hqueue]) hn hrun) hrest

/-- An advance that comes to its end has drained the clock, and then parked it. -/
theorem advanceTo_eq_done :
    E.advanceTo c target b = (.done (), b') ↔
      ∃ b₁, E.drain c target b = (.done (), b₁) ∧ b' = b₁.park c target := by
  constructor
  · intro h
    obtain ⟨_, b₁, hdrain, hpark⟩ := Run.bind_eq_done h
    exact ⟨b₁, hdrain, (congrArg Prod.snd hpark).symm⟩
  · rintro ⟨b₁, hdrain, rfl⟩
    rw [advanceTo, Run.bind_done hdrain]
    rfl

/-- No action that a clock runs by some instant leaves the clock at another time than it found. -/
def Steady (E : Engine α σ) (c : ClockRef) (limit : VirtualTime) (b : Bench α σ) : Prop :=
  ∀ ran b₁ a b₂, E.Runs c limit b ran b₁ → b₁.next? c limit = some (a, b₂) →
    (E.perform a b₂).2.now c = b₂.now c

/-- A clock that its actions do not drive reads no later than the last of them was due. -/
theorem Runs.now_le_max (hE : E.Lawful) (hb : b.Lived) (hsteady : E.Steady c limit b)
    (h : E.Runs c limit b ran b₁) : b₁.now c ≤ max (b.now c) limit := by
  induction h with
  | rest => exact le_max_left _ _
  | @turn ran p rest b₁ b₂ b₃ hruns _ hnext hrun ih =>
    have hlived : b₁.Lived := hb.reaches (hruns.respects hE)
    obtain ⟨q, _, k, -, -, hdue, -, hnow, -, hk⟩ := hlived.next? hnext
    have hleft := hsteady ran b₁ _ b₂ hruns hnext
    rw [hrun] at hleft
    have hreads : b₂.now c = q.due := by rw [← hnow, ← hk]; rfl
    calc b₃.now c = q.due := hleft.trans hreads
      _ ≤ limit := hdue
      _ ≤ max (b.now c) limit := le_max_right _ _

/-- An advance that comes to its end leaves nothing that is due by its target, and leaves the clock
there unless it has already been driven further. -/
theorem advanced (hE : E.Lawful) (hb : b.Lived) (hc : (b.clocks.get? c).isSome)
    (h : E.advanceTo c target b = (.done (), b')) :
    (∀ p ∈ (b'.clock c).queue, target < p.due) ∧ max (b.now c) target ≤ b'.now c ∧
      (E.Steady c target b → b'.now c = max (b.now c) target) := by
  obtain ⟨b₁, hdrain, rfl⟩ := advanceTo_eq_done.mp h
  obtain ⟨ran, hruns⟩ := Runs.of_drainWith .rest hdrain
  have hreaches : Reaches b b₁ := hruns.respects hE
  have hforward : max (b.now c) target ≤ max (b₁.now c) target :=
    max_le (le_trans (hreaches.follows.now_le c) (le_max_left _ _)) (le_max_right _ _)
  rw [queue_park, now_park (hreaches.clocks_isSome hc)]
  refine ⟨?_, hforward, fun hsteady => ?_⟩
  · have hnone := clock_next?_eq_none (next?_of_drainWith hdrain)
    exact ((hb.reaches hreaches).ordered c).lt_of_next?_eq_none hnone
  · exact le_antisymm (max_le (hruns.now_le_max hE hb hsteady) (le_max_right _ _)) hforward

/-- An advance to an instant that is past does nothing. -/
theorem advanceTo_past (hb : b.Lived) (hpast : target < b.now c) (hfuel : 0 < E.fuel) :
    E.advanceTo c target b = (.done (), b) := by
  obtain ⟨fuel, hfuel⟩ := Nat.exists_eq_succ_of_ne_zero (Nat.ne_of_gt hfuel)
  refine advanceTo_eq_done.mpr ⟨b, ?_, (park_eq_self (le_of_lt hpast)).symm⟩
  rw [drain, hfuel]
  exact drainWith_idle (hb.next?_eq_none hpast)

end Engine

namespace Scenario

open Bench

variable {α : Type} [Shown α]

/-- What can be relied on of the clocks of a bench under an engine. -/
structure Punctuality (E : Engine α (Callback α)) : Prop where
  calls : ClockCalls E
  /-- The benches spoken of are all that commands lead to, whatever becomes of each, -/
  between (script : Script α) : (after E script fresh).Lived
  /-- and all on the way there: a command leads on even if it panics, -/
  command (b : Bench α (Callback α)) (command : Command α) : Reaches b (perform E command b).2
  /-- as does each part of a script and every other callback, -/
  callback (b : Bench α (Callback α)) (script : Script α) (f : Callback α) :
    Reaches b (runScript E script b).2 ∧ Reaches b (E.call f b).2
  /-- and a drain, to the bench on which its next action has started and to the one it leaves. -/
  running {b b₁ b₂ : Bench α (Callback α)} {c : ClockRef} {limit : VirtualTime}
    {ran : List (Pending (Action α (Callback α)))} {a : Action α (Callback α)}
    (hruns : E.Runs c limit b ran b₁) (hnext : b₁.next? c limit = some (a, b₂)) :
    Reaches b b₂ ∧ Reaches b₂ (E.perform a b₂).2
  /-- On each of them nothing that is pending is late, -/
  punctual {b : Bench α (Callback α)} (h : b.Lived) (c : ClockRef) :
    ∀ p ∈ (b.clock c).queue, b.now c ≤ p.due
  /-- all that has ever been queued is pending or has started, -/
  accounted {b : Bench α (Callback α)} (h : b.Lived) (c : ClockRef) :
    (b.clock c).pending + (b.clock c).dispatched = (b.clock c).scheduled
  /-- and no clock reads less than it did before. -/
  forward {b b' : Bench α (Callback α)} (h : Reaches b b') (c : ClockRef) : b.now c ≤ b'.now c
  /-- It is told of each of them what its clocks have answered since there were any, -/
  told {b : Bench α (Callback α)} (h : b.Lived) : ∃ evs, Answered {} evs b
  /-- and whatever is told of a clock, each call that queues an action has raised the number of
  those that have ever been queued by one, and nothing else has; the same goes for starts, all of
  which are in the log. -/
  counted {b b' : Bench α (Callback α)}
    {evs : List (ClockRef × ClockEvent (Action α (Callback α)))} (h : Answered b evs b')
    (c : ClockRef) : Clock.Trace (b.clock c) (answersOf c evs) (b'.clock c) ∧
      (b'.clock c).scheduled =
        (b.clock c).scheduled + ((answersOf c evs).filterMap ClockEvent.given?).length ∧
      (b'.clock c).dispatched =
        (b.clock c).dispatched + ((answersOf c evs).filterMap ClockEvent.started?).length ∧
      (answersOf c evs).filterMap ClockEvent.start? = dispatches c (b'.log.toList.drop b.log.size)
  /-- When an advance comes to its end, nothing is pending that is due by its target, and the clock
  is there; it is later only if it was before, or if the actions that ran have moved it. -/
  advance {b b' : Bench α (Callback α)} {c : ClockRef} {target : VirtualTime} (h : b.Lived)
    (hc : (b.clocks.get? c).isSome) (hrun : E.advanceTo c target b = (.done (), b')) :
    (∀ p ∈ (b'.clock c).queue, target < p.due) ∧ max (b.now c) target ≤ b'.now c ∧
      (E.Steady c target b → b'.now c = max (b.now c) target)
  /-- An advance to an instant that is past does nothing. -/
  past {b : Bench α (Callback α)} {c : ClockRef} {target : VirtualTime} (h : b.Lived)
    (hpast : target < b.now c) (hfuel : 0 < E.fuel) : E.advanceTo c target b = (.done (), b)

/-- Whatever is queued and however clocks are driven, from outside or from inside actions, and
whether or not an action panics: a clock keeps account of its actions, is never late and never runs
back. -/
theorem punctuality (fuel : Nat) : Punctuality (Callback.engine (α := α) fuel) := by
  have hE := Callback.lawful_engine (α := α) fuel
  exact {
    calls := clockCalls hE
    between := fun script => lived_fresh.reaches (reaches_after hE script fresh)
    command := fun b command => lawful_perform hE command b
    callback := fun b script f => ⟨respects_runScript (lawful_perform hE) script b, hE f b⟩
    running := fun {b b₁ b₂ c limit ran a} hruns hnext => by
      have hstart : Reaches b₁ b₂ := (Change.plain (.start hnext)).reaches
      have hran : Reaches b b₁ := hruns.respects hE
      exact ⟨hran.trans hstart, Engine.respects_perform hE a b₂⟩
    punctual := fun h c => (h.ordered c).due
    accounted := fun h c => h.pending_add_dispatched c
    forward := fun h c => h.follows.now_le c
    told := fun h => Reaches.answered h
    counted := fun h c =>
      ⟨h.trace c, (h.trace c).scheduled, (h.trace c).dispatched, h.starts c⟩
    advance := fun h hc hrun => Engine.advanced hE h hc hrun
    past := fun h hpast hfuel => Engine.advanceTo_past h hpast hfuel }

end Scenario

end Marble
