import Marble.Bench.Drive
import Marble.Proofs.Run

/-! One turn of a drain at a time: the next action starts, or nothing is left to start. -/
namespace Marble

variable {α σ : Type} {c : ClockRef} {limit target : VirtualTime} {b b' : Bench α σ}
  {a : Action α σ}

namespace Bench

variable {clock : Clock (Action α σ)}

theorem next?_eq_some (hc : b.clocks.get? c = some clock) (h : b.next? c limit = some (a, b')) :
    ∃ p clock', clock.next? limit = some (p, clock') ∧ a = p.action ∧
      b' = ({ b with clocks := b.clocks.modify c fun _ => clock' } : Bench α σ).note
        (.report (.dispatching c p.due p.sequence)) := by
  rw [next?] at h
  rw [hc, Option.bind_some] at h
  cases hn : clock.next? limit with
  | none => simp [hn] at h
  | some next =>
    obtain ⟨p, clock'⟩ := next
    obtain ⟨rfl, rfl⟩ := by simpa [hn] using h
    exact ⟨p, clock', rfl, rfl, rfl⟩

/-- Only a clock that exists has an action to start. -/
theorem exists_clock (h : b.next? c limit = some (a, b')) :
    ∃ clock, b.clocks.get? c = some clock := by
  cases hc : b.clocks.get? c with
  | none => simp [next?, hc] at h
  | some clock => exact ⟨clock, rfl⟩

/-- What starts is taken off its clock and put down in the log. Nothing else changes. -/
theorem next?_rest (h : b.next? c limit = some (a, b')) :
    ∃ clocks log, b' = { b with clocks, log } := by
  obtain ⟨clock, hc⟩ := exists_clock h
  obtain ⟨p, clock', -, -, rfl⟩ := next?_eq_some hc h
  exact ⟨_, _, rfl⟩

theorem next?_eq_none (hc : b.clocks.get? c = some clock) (h : b.next? c limit = none) :
    clock.next? limit = none := by
  cases hn : clock.next? limit with
  | none => rfl
  | some next => simp [next?, hc, hn] at h

end Bench

/-- The ways to drive a clock. -/
inductive Drive where
  | advanceTo (target : VirtualTime)
  | advanceBy (delay : VirtualTime)
  | runUntilIdle

namespace Engine

def drive (E : Engine α σ) (c : ClockRef) : Drive → Run α σ Unit
  | .advanceTo target => E.advanceTo c target
  | .advanceBy delay => E.advanceBy c delay
  | .runUntilIdle => E.runUntilIdle c

variable {E : Engine α σ} {fuel : Nat} {R : Bench α σ → Bench α σ → Prop}

theorem drainWith_idle (h : b.next? c limit = none) :
    E.drainWith c limit (fuel + 1) b = (.done (), b) := by
  simp only [drainWith, Run.change_bind, h]
  rfl

theorem drainWith_turn (h : b.next? c limit = some (a, b')) :
    E.drainWith c limit (fuel + 1) b =
      (E.perform a >>= fun _ => E.drainWith c limit fuel) b' := by
  simp only [drainWith, Run.change_bind, h]

/-- A drain that comes to its end leaves nothing that is due. -/
theorem next?_of_drainWith (h : E.drainWith c limit fuel b = (.done (), b')) :
    b'.next? c limit = none := by
  induction fuel generalizing b with
  | zero => simp [drainWith, Run.exhaust] at h
  | succ fuel ih =>
    cases hn : b.next? c limit with
    | none =>
      rw [drainWith_idle hn] at h
      obtain rfl := congrArg Prod.snd h
      exact hn
    | some next =>
      obtain ⟨a, b₁⟩ := next
      rw [drainWith_turn hn] at h
      obtain ⟨_, b₂, _, h⟩ := Run.bind_eq_done h
      exact ih h

/-- What every turn keeps to, a drain keeps to. -/
theorem keeps_drainWith [IsPreorder _ R]
    (h : ∀ b a b', b.next? c limit = some (a, b') → R b (E.perform a b').2) :
    Run.Keeps R (E.drainWith c limit fuel) := by
  induction fuel with
  | zero => exact Run.keeps_exhaust
  | succ fuel ih =>
    intro b
    cases hn : b.next? c limit with
    | none =>
      rw [drainWith_idle hn]
      exact refl_of R b
    | some next =>
      obtain ⟨a, b₁⟩ := next
      rw [drainWith_turn hn]
      have hturn := h b a b₁ hn
      rcases Run.bind_cases (E.perform a) (fun _ => E.drainWith c limit fuel) b₁ with
        ⟨r, b₂, hp, he⟩ | ⟨he, _⟩
      · rw [hp] at hturn
        rw [he]
        exact trans_of R hturn (ih b₂)
      · rw [he]
        exact hturn

/-- An advance parks the clock only once nothing is due by its target. -/
theorem keeps_advanceTo [IsPreorder _ R] (hdrain : Run.Keeps R (E.drain c target))
    (hpark : ∀ b, b.next? c target = none → R b (b.park c target)) :
    Run.Keeps R (E.advanceTo c target) := by
  intro b
  have h := hdrain b
  rcases Run.bind_cases (E.drain c target) (fun _ => Run.update (·.park c target)) b with
    ⟨r, b', hd, he⟩ | ⟨he, _⟩
  · rw [hd] at h
    change R b (((E.drain c target >>= fun _ => Run.update (·.park c target)) b)).2
    rw [he]
    exact trans_of R h (hpark b' (next?_of_drainWith hd))
  · change R b (((E.drain c target >>= fun _ => Run.update (·.park c target)) b)).2
    rw [he]
    exact h

/-- What every turn keeps to, and parking with nothing due, the clock is driven by in any way. -/
theorem keeps_drive [IsPreorder _ R]
    (h : ∀ b limit a b', b.next? c limit = some (a, b') → R b (E.perform a b').2)
    (hpark : ∀ b target, b.next? c target = none → R b (b.park c target)) (d : Drive) :
    Run.Keeps R (E.drive c d) := by
  have hadvance : ∀ target, Run.Keeps R (E.advanceTo c target) := fun target =>
    keeps_advanceTo (keeps_drainWith fun b => h b target) fun b => hpark b target
  cases d with
  | advanceTo target => exact hadvance target
  | advanceBy delay => exact Run.keeps_bind (Run.keeps_read _) fun now => hadvance (now + delay)
  | runUntilIdle => exact keeps_drainWith fun b => h b .never

/-- The bench on which a timed run has queued when to subscribe and when to dispose. -/
def prepared (b : Bench α σ) (c : ClockRef) (factory : σ) (options : RunOptions) : Bench α σ :=
  let opened := (b.addRecorder c).2.schedule c options.subscribeAt
    (.openRun b.recorders.next factory)
  if options.disposeAt.isNever then opened
  else opened.schedule c options.disposeAt (.closeRun b.recorders.next)

theorem start_eq (b : Bench α σ) (c : ClockRef) (factory : σ) (options : RunOptions) :
    E.start c factory options b =
      ((if options.stopAt.isNever then E.runUntilIdle c else E.advanceTo c options.stopAt) >>=
        fun _ => Run.read (·.messages b.recorders.next)) (prepared b c factory options) := by
  rw [start, prepared]
  cases options.disposeAt.isNever <;> cases options.stopAt.isNever <;> rfl

end Engine

end Marble
