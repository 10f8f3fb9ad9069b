import Marble.Proofs.Errands
import Marble.Proofs.Punctuality

/-! Driving a clock in steps: however many stops an advance makes on its way, it is the same
advance. -/
namespace Marble

variable {κ α σ : Type} {c : ClockRef} {limit limit' target target' : VirtualTime}

theorem VirtualTime.add_assoc (s t d : VirtualTime) : s + t + d = s + (t + d) := by
  ext
  simp only [add_ticks]
  omega

namespace Run

variable {ρ τ : Type} {m : Run α σ ρ} {f g : ρ → Run α σ τ} {b : Bench α σ}

/-- Runs that go on alike wherever fuel does not run out come to the same end. -/
theorem bind_congr_of_ne_exhausted (h : ((m >>= f) b).1 ≠ .exhausted)
    (hfg : ∀ r b', (f r b').1 ≠ .exhausted → g r b' = f r b') : (m >>= g) b = (m >>= f) b := by
  rcases hm : m b with ⟨r | message | _, b'⟩
  · rw [bind_done hm] at h ⊢
    rw [bind_done hm, hfg r b' h]
  · simp only [bind, hm]
  · simp only [bind, hm]

theorem bind_pure_unit (m : Run α σ Unit) : (m >>= fun _ => pure ()) = m := by
  funext b
  rcases hm : m b with ⟨r | message | _, b'⟩
  · rw [bind_done hm]
    rfl
  · simp only [bind, hm]
  · simp only [bind, hm]

end Run

namespace Clock

theorem next?_mono {k k' : Clock κ} {p : Pending κ} (hle : limit ≤ limit')
    (h : k.next? limit = some (p, k')) : k.next? limit' = some (p, k') := by
  obtain ⟨rest, hqueue, hdue, rfl⟩ := next?_eq_some h
  simp only [next?, hqueue, if_pos (le_trans hdue hle)]

/-- An action that is due later than the clock is parked starts as if it had not been. -/
theorem next?_park_eq {k : Clock κ} (h : k.next? target = none) :
    (k.park target).next? limit = k.next? limit := by
  rcases next?_eq_none h with hqueue | ⟨p, rest, hqueue, hlt⟩
  · simp only [next?, park, hqueue]
  · have hnow : max (max k.now target) p.due = max k.now p.due := by
      rw [max_assoc, max_eq_right (le_of_lt hlt)]
    simp only [next?, park, hqueue, hnow]

end Clock

namespace Bench

variable {b b' : Bench α σ} {a : Action α σ}

theorem Undriven.now (h : Undriven c b b') : b'.now c = b.now c := by
  cases hk : b.clocks.get? c with
  | none =>
    rw [Undriven, hk] at h
    rw [Bench.now, Bench.now, hk, Option.map_eq_none_iff.mp h]
  | some k =>
    obtain ⟨k', hk', hnow, -⟩ := h.exists_clock hk
    rw [Bench.now, Bench.now, hk, hk', Option.getD_some, Option.getD_some, hnow]

/-- What is due by an instant is due by any later one. -/
theorem next?_mono (hle : limit ≤ limit') (h : b.next? c limit = some (a, b')) :
    b.next? c limit' = some (a, b') := by
  obtain ⟨row, hrow⟩ := exists_clock h
  obtain ⟨p, k, hnext, rfl, rfl⟩ := next?_eq_some hrow h
  simp only [next?, hrow, Option.bind_some, Clock.next?_mono hle hnext]

theorem next?_park_eq (h : b.next? c target = none) :
    (b.park c target).next? c limit = b.next? c limit := by
  cases hrow : b.clocks.get? c with
  | none => simp [next?, park, Table.get?_modify, hrow]
  | some row =>
    have hsame : (row.park target).next? limit = row.next? limit :=
      Clock.next?_park_eq (next?_eq_none hrow h)
    simp only [next?, get?_park, hrow, Option.map_some, Option.bind_some, hsame]
    cases row.next? limit with
    | none => rfl
    | some next => simp only [park, Table.modify_modify]

theorem park_park (hle : target ≤ target') :
    (b.park c target).park c target' = b.park c target' := by
  simp only [park, Table.modify_modify, Clock.park, max_assoc, max_eq_right hle]

end Bench

namespace Engine

open Bench

variable {E : Engine α σ} {b : Bench α σ} {fuel fuel' : Nat}

/-- Runs everything due by `target` with some fuel, then leaves the clock there. -/
def advanceWith (E : Engine α σ) (c : ClockRef) (target : VirtualTime) (fuel : Nat) :
    Run α σ Unit :=
  E.drainWith c target fuel >>= fun _ => Run.update (·.park c target)

theorem advanceWith_idle (h : b.next? c target = none) :
    E.advanceWith c target (fuel + 1) b = (.done (), b.park c target) := by
  rw [advanceWith, Run.bind_done (drainWith_idle h)]
  rfl

theorem advanceWith_turn {a : Action α σ} {b' : Bench α σ} (h : b.next? c target = some (a, b')) :
    E.advanceWith c target (fuel + 1) b =
      (E.perform a >>= fun _ => E.advanceWith c target fuel) b' := by
  have hturn : E.drainWith c target (fuel + 1) b =
      (E.perform a >>= fun _ => E.drainWith c target fuel) b' := drainWith_turn h
  simp only [advanceWith, ← Run.bind_assoc]
  simp only [bind, hturn]

/-- More fuel makes no difference to an advance that has had enough. -/
theorem advanceWith_mono (hle : fuel ≤ fuel') (h : (E.advanceWith c target fuel b).1 ≠ .exhausted) :
    E.advanceWith c target fuel' b = E.advanceWith c target fuel b := by
  induction fuel generalizing b fuel' with
  | zero => exact (h rfl).elim
  | succ fuel ih =>
    obtain ⟨fuel', rfl⟩ := Nat.exists_eq_add_one_of_ne_zero (Nat.ne_zero_of_lt hle)
    cases hn : b.next? c target with
    | none => rw [advanceWith_idle hn, advanceWith_idle hn]
    | some next =>
      rw [advanceWith_turn hn] at h ⊢
      rw [advanceWith_turn hn]
      exact Run.bind_congr_of_ne_exhausted h fun _ _ => ih (Nat.le_of_succ_le_succ hle)

/-- With nothing due where a clock is parked, it makes no difference that it has been. -/
theorem advanceWith_park (hle : target ≤ target') (h : b.next? c target = none) :
    E.advanceWith c target' (fuel + 1) (b.park c target) =
      E.advanceWith c target' (fuel + 1) b := by
  cases hn : b.next? c target' with
  | none => rw [advanceWith_idle hn, advanceWith_idle ((next?_park_eq h).trans hn), park_park hle]
  | some next => rw [advanceWith_turn hn, advanceWith_turn ((next?_park_eq h).trans hn)]

/-- An advance may stop on its way. -/
theorem advanceWith_cut (hle : target ≤ target') (hfuel : fuel ≤ fuel')
    (h : (E.advanceWith c target' fuel b).1 ≠ .exhausted) :
    (E.advanceWith c target fuel >>= fun _ => E.advanceWith c target' fuel') b =
      E.advanceWith c target' fuel b := by
  induction fuel generalizing b with
  | zero => exact (h rfl).elim
  | succ fuel ih =>
    cases hn : b.next? c target with
    | none =>
      rw [← advanceWith_mono hfuel h, Run.bind_done (advanceWith_idle hn)]
      obtain ⟨fuel', rfl⟩ := Nat.exists_eq_add_one_of_ne_zero (Nat.ne_zero_of_lt hfuel)
      exact advanceWith_park hle hn
    | some next =>
      obtain ⟨a, b₁⟩ := next
      -- What starts first on the way to the stop starts first on the way to the end.
      have hturn :
          (E.advanceWith c target (fuel + 1) >>= fun _ => E.advanceWith c target' fuel') b =
          (E.perform a >>= fun _ => E.advanceWith c target fuel >>= fun _ =>
            E.advanceWith c target' fuel') b₁ := by
        rw [← Run.bind_assoc]
        simp only [bind, advanceWith_turn hn]
      rw [advanceWith_turn (next?_mono hle hn)] at h ⊢
      rw [hturn]
      exact Run.bind_congr_of_ne_exhausted h fun _ _ => ih (Nat.le_of_succ_le hfuel)

/-- An advance may stop on its way, at any instant up to its target. -/
theorem advanceTo_cut (hle : target ≤ target') (h : (E.advanceTo c target' b).1 ≠ .exhausted) :
    (E.advanceTo c target >>= fun _ => E.advanceTo c target') b = E.advanceTo c target' b :=
  advanceWith_cut hle (Nat.le_refl E.fuel) h

/-- An advance may stop as often as one likes. -/
theorem each_advanceTo {targets : List VirtualTime}
    (hsorted : (targets ++ [target]).Pairwise (· ≤ ·))
    (h : (E.advanceTo c target b).1 ≠ .exhausted) :
    Run.each (E.advanceTo c) (targets ++ [target]) b = E.advanceTo c target b := by
  induction targets generalizing b with
  | nil => exact congrFun (Run.bind_pure_unit _) b
  | cons first rest ih =>
    obtain ⟨hfirst, hrest⟩ := List.pairwise_cons.mp hsorted
    have hcut := advanceTo_cut (E := E) (hfirst target (by simp)) h
    rw [← hcut] at h ⊢
    exact Run.bind_congr_of_ne_exhausted h fun _ _ => ih hrest

/-- A delay may be waited for in two parts, if the actions that run in the first do not move the
clock. -/
theorem advanceBy_cut (hE : E.Lawful) (hb : b.Lived) (hc : (b.clocks.get? c).isSome)
    {delay delay' : VirtualTime} {b' : Bench α σ} (hsteady : E.Steady c (b.now c + delay) b)
    (h : E.advanceBy c (delay + delay') b = (.done (), b')) :
    (E.advanceBy c delay >>= fun _ => E.advanceBy c delay') b = (.done (), b') := by
  have hdone : E.advanceTo c (b.now c + delay + delay') b = (.done (), b') :=
    VirtualTime.add_assoc _ _ _ ▸ h
  have hcut := advanceTo_cut (VirtualTime.le_add (b.now c + delay) delay') (by rw [hdone]; simp)
  obtain ⟨_, b₁, hfirst, hsecond⟩ := Run.bind_eq_done (hcut.trans hdone)
  have hnow : b₁.now c = b.now c + delay := by
    rw [(advanced hE hb hc hfirst).2.2 hsteady, max_eq_right (VirtualTime.le_add _ _)]
  calc (E.advanceBy c delay >>= fun _ => E.advanceBy c delay') b
      = E.advanceBy c delay' b₁ := Run.bind_done (m := E.advanceBy c delay) hfirst
    _ = E.advanceTo c (b.now c + delay + delay') b₁ := by rw [← hnow]; rfl
    _ = (.done (), b') := hsecond

theorem Calm.steady {n : Nat} (h : E.Calm c limit n b) : E.Steady c limit b := by
  intro ran b₁ a b₂ hruns hnext
  obtain ⟨b₃, hrun, hundriven⟩ := (h ran b₁ hruns).2 a b₂ hnext
  rw [hrun]
  exact hundriven.now

end Engine

namespace Scenario

open Bench

variable {α : Type} [Shown α] {b : Bench α (Callback α)} {fuel : Nat} {targets : List VirtualTime}

/-- A clock on which nothing is queued but errands may be driven in steps: the same runs in the same
order and at the same times, and leaves the same bench, as in a single advance. -/
theorem advance_in_steps (hb : b.Lived) (hc : (b.clocks.get? c).isSome) (herrands : b.Errands c)
    (hfuel : (b.clock c).load < fuel) (hsorted : (targets ++ [target]).Pairwise (· ≤ ·))
    (delay delay' : VirtualTime) :
    (∃ b', Run.each ((Callback.engine fuel).advanceTo c) (targets ++ [target]) b = (.done (), b') ∧
      (Callback.engine fuel).advanceTo c target b = (.done (), b')) ∧
    ∃ b', ((Callback.engine fuel).advanceBy c delay >>= fun _ =>
        (Callback.engine fuel).advanceBy c delay') b = (.done (), b') ∧
      (Callback.engine fuel).advanceBy c (delay + delay') b = (.done (), b') := by
  obtain ⟨fuel, rfl⟩ := Nat.exists_eq_add_one_of_ne_zero (Nat.ne_zero_of_lt hfuel)
  have hcalm : ∀ limit, (Callback.engine (fuel + 1)).Calm c limit (fuel + 1) b :=
    fun limit => Engine.calm_errands herrands hfuel
  refine ⟨?_, ?_⟩
  · obtain ⟨_, b₁, -, -, hdone⟩ := (hcalm target).advanceTo
    refine ⟨_, ?_, hdone⟩
    rw [Engine.each_advanceTo hsorted (by rw [hdone]; simp), hdone]
  · obtain ⟨_, b₁, -, -, hdone⟩ := (hcalm (b.now c + (delay + delay'))).advanceTo
    exact ⟨_, Engine.advanceBy_cut (Callback.lawful_engine _) hb hc (hcalm _).steady hdone, hdone⟩

/-- A clock that is already late, with an action that queues two others, one of them for an instant
that is past. -/
def queueing : Bench Int64 (Callback Int64) :=
  (fresh.park ⟨0⟩ (.clamp 2)).schedule ⟨0⟩ (.clamp 5) (.invoke (.call (.action ⟨0⟩ (.string "x")
    [.scheduleAfter "main" (.clamp 3) (.string "y") [], .clockText "main",
      .scheduleAt "main" (.clamp 1) (.string "z") []])))

theorem advance_in_steps_queueing :
    (∃ b', Run.each ((Callback.engine 4).advanceTo ⟨0⟩)
        ([.clamp 1, .clamp 6] ++ [.clamp 9]) queueing = (.done (), b') ∧
      (Callback.engine 4).advanceTo ⟨0⟩ (.clamp 9) queueing = (.done (), b')) ∧
    ∃ b', ((Callback.engine 4).advanceBy ⟨0⟩ (.clamp 3) >>= fun _ =>
        (Callback.engine 4).advanceBy ⟨0⟩ .never) queueing = (.done (), b') ∧
      (Callback.engine 4).advanceBy ⟨0⟩ (.clamp 3 + .never) queueing = (.done (), b') := by
  refine advance_in_steps (lived_fresh.reaches ?_) rfl ?_ (by decide) (by decide) _ _
  · exact (Change.plain (.park rfl)).reaches.tail (.plain (.schedule _ _ _ rfl))
  · intro p hp
    obtain rfl := List.mem_singleton.mp hp
    exact .action _ _ (.scheduleAfter rfl .nil (.look rfl (.scheduleAt rfl .nil .nil)))

end Scenario

end Marble
