import Marble.Element
import Marble.Proofs.Ending

/-! A scope that is ending or has ended refuses whatever is to be put down for its end, wherever the
call comes from, and nothing comes of the call. -/
namespace Marble

variable {α σ : Type} {E : Engine α σ} {b b₁ b₂ : Bench α σ} {s : ScopeRef} {scope : Scope α σ}

open Bench

namespace Phase

/-- A scope takes nothing more from the moment on that it begins to end. -/
theorem isAccepting_eq_false {p : Phase} : p.isAccepting = false ↔ p = .ending ∨ p = .disposed := by
  cases p <;> simp [isAccepting]

end Phase

namespace Engine

/-- Expects what comes of a way to subscribe to behave like a diagram. -/
def expectBy (subscribe : RecorderRef → Run α σ SubscriptionRef) (s : ScopeRef)
    (d : Diagram α SequenceError (Effect σ)) (compare : Compare α) : Attempt α σ Unit := do
  let scope ← Attempt.check (·.accepting s)
  let offset ← Attempt.read (·.now scope.clock)
  let expected := Timeline.shift offset (d.notifications scope.options.unit)
  let releaseAt := Timeline.lastTime expected offset + scope.options.padding
  let r ← Attempt.change (·.addRecorder scope.clock)
  let sub ← Attempt.lift (subscribe r)
  Attempt.update (·.schedule scope.clock releaseAt (.release r sub))
  Attempt.step (·.register s releaseAt (.events r d.source expected compare))

/-- The expectation of a sequence is one of what subscribing to the sequence brings. -/
theorem expect_eq_expectBy (s : ScopeRef) (q : Sequence α)
    (d : Diagram α SequenceError (Effect σ)) (compare : Compare α) :
    E.expect s q d compare = expectBy (fun r => E.subscribe q (.recorder r)) s d compare := rfl

theorem expectBy_of_closed (hrow : b.scopes.get? s = some scope)
    (hclosed : scope.phase.isAccepting = false)
    (subscribe : RecorderRef → Run α σ SubscriptionRef) (d : Diagram α SequenceError (Effect σ))
    (compare : Compare α) :
    expectBy subscribe s d compare b = (.done (.error (.scopeClosed s.scopeId)), b) := by
  have hcheck : Attempt.check (·.accepting s) b = (.done (.error (.scopeClosed s.scopeId)), b) := by
    simp [Attempt.check, accepting, hrow, hclosed]
  rw [expectBy, Attempt.bind_error hcheck]

/-- A call is refused just when the scope takes nothing more. -/
theorem enroll_eq_refused_iff (hrow : b.scopes.get? s = some scope) (e : Enrolment α σ) :
    E.enroll s e b = (.done (.error (.scopeClosed s.scopeId)), b) ↔
      scope.phase = .ending ∨ scope.phase = .disposed := by
  rw [← Phase.isAccepting_eq_false]
  constructor
  · intro hrefused
    by_contra hopen
    have haccepting : b.accepting s = .ok scope :=
      accepting_eq_ok.mpr ⟨hrow, by simpa using hopen⟩
    obtain ⟨b', htaken, -⟩ := enroll_accepting (E := E) haccepting e
    rw [htaken] at hrefused
    cases congrArg Prod.fst hrefused
  · exact fun hclosed => refuses_of_row hrow hclosed E e

/-- How calls fare that would put something down for the end of a scope. -/
structure Refusal (E : Engine α σ) : Prop where
  /-- Exactly if the scope is ending or has ended, the answer is that it is closed and the bench
  stays as it is, whatever is to be put down. -/
  refused {b : Bench α σ} {s : ScopeRef} {scope : Scope α σ} (hrow : b.scopes.get? s = some scope)
    (e : Enrolment α σ) : E.enroll s e b = (.done (.error (.scopeClosed s.scopeId)), b) ↔
      scope.phase = .ending ∨ scope.phase = .disposed
  /-- To expect a sequence is to expect what subscribing to it brings, -/
  expected (s : ScopeRef) (q : Sequence α) (d : Diagram α SequenceError (Effect σ))
    (compare : Compare α) :
    E.expect s q d compare = expectBy (fun r => E.subscribe q (.recorder r)) s d compare
  /-- and what is expected in vain is not subscribed to, whatever subscribing would do. -/
  unsubscribed {b : Bench α σ} {s : ScopeRef} {scope : Scope α σ}
    (hrow : b.scopes.get? s = some scope)
    (hclosed : scope.phase = .ending ∨ scope.phase = .disposed)
    (subscribe : RecorderRef → Run α σ SubscriptionRef) (d : Diagram α SequenceError (Effect σ))
    (compare : Compare α) :
    expectBy subscribe s d compare b = (.done (.error (.scopeClosed s.scopeId)), b)
  /-- A scope whose end has begun is ending all the while that actions of its clock run. Whatever
  client code does, its horizon and its assertions are those it had. -/
  running {b b₁ b₂ : Bench α σ} {s : ScopeRef} {scope : Scope α σ}
    {ran : List (Pending (Action α σ))} (h : b.Disciplined) (hrow : b.scopes.get? s = some scope)
    (hg : s ∉ b.guarded)
    (hruns : E.Runs scope.clock scope.horizon (closing s scope.horizon b) ran b₁)
    (hclient : Upkeep b₁ b₂) : b₂.scopes.get? s = some { scope with phase := .ending }
  /-- So it is while any of its assertions are checked, and there are no others any more. -/
  checked [Shown α] {b b₁ b₂ b₃ : Bench α σ} {s : ScopeRef} {scope : Scope α σ}
    {ran : List (Pending (Action α σ))} {before : List (Assertion α σ)}
    {os : List (Except Error Unit)} (h : b.Disciplined) (hrow : b.scopes.get? s = some scope)
    (hg : s ∉ b.guarded)
    (hruns : E.Runs scope.clock scope.horizon (closing s scope.horizon b) ran b₁)
    (hchecks : E.outcomes s scope.options.grid 0 before
      (checking s scope.clock scope.horizon b₁) = (.done os, b₂))
    (hclient : Upkeep b₂ b₃) :
    b₃.scopes.get? s = some { scope with phase := .ending, pending := [] }
  /-- A scope that has ended and left the stack for good keeps its phase, and everything else. -/
  forever {b b' : Bench α σ} {s : ScopeRef} {scope : Scope α σ} (h : b.Disciplined)
    (hrow : b.scopes.get? s = some scope)
    (hclosed : scope.phase = .ending ∨ scope.phase = .disposed)
    (hg : s ∉ b.guarded) (hclient : Upkeep b b') : b'.scopes.get? s = some scope

/-- A scope refuses everything from the moment on that it begins to end: while its actions run,
while its assertions are checked, and ever after. -/
theorem refusal_of_upkeep (hE : E.Respects Upkeep) : E.Refusal where
  refused := enroll_eq_refused_iff
  expected := expect_eq_expectBy
  unsubscribed hrow hclosed := expectBy_of_closed hrow (Phase.isAccepting_eq_false.mpr hclosed)
  running h hrow hg hruns hclient :=
    ((hruns.closed hE (closed_closing h hrow hg _)).upkeep hclient).row
  checked h hrow hg hruns hchecks hclient := by
    have hran := hruns.closed hE (closed_closing h hrow hg _)
    exact ((closed_of_outcomes hE hchecks (hran.checking _ _)).upkeep hclient).row
  forever h hrow hclosed hg hclient := by
    have hshut : Closed _ _ _ := ⟨h, hrow, Phase.isAccepting_eq_false.mpr hclosed, hg⟩
    exact (hshut.upkeep hclient).row

/-- The scope with an action that queues another one is to go on until both are due. -/
def spawningOn : Bench Int64 (Callback Int64) := spawning.modifyScope ⟨0⟩ (·.extend (.clamp 9))

theorem not_guarded_spawning : (⟨0⟩ : ScopeRef) ∉ spawning.guarded := by decide

theorem disciplined_spawningOn : spawningOn.Disciplined := by
  have hbegun := upkeep_beginScope (Scenario.fresh : Bench Int64 (Callback Int64)) default
    Scenario.disciplined_fresh
  have hready : Upkeep (Scenario.fresh.beginScope default).2 spawning := upkeep_of_eq rfl rfl rfl
  exact (settles_modifyScope spawning ⟨0⟩ _ (hready hbegun.disciplined).disciplined
    (begun_of_row rfl) not_guarded_spawning).disciplined

/-- Its clock is being driven to the horizon, and the first action has run. Nothing more can be
asked for. -/
theorem refused_spawning : ∃ p b₁,
    (Callback.engine 6).Runs ⟨1⟩ (.clamp 9) (closing ⟨0⟩ (.clamp 9) spawningOn) [p] b₁ ∧
    (Callback.engine 6).enroll ⟨0⟩ (.assertion .never (.script [])) b₁ =
      (.done (.error (.scopeClosed ⟨1⟩)), b₁) := by
  have hrefusal := refusal_of_upkeep (Scenario.upkeep_engine (α := Int64) 6)
  have hruns : (Callback.engine 6).Runs ⟨1⟩ (.clamp 9) (closing ⟨0⟩ (.clamp 9) spawningOn)
      ([] ++ [_]) _ := .turn .rest rfl rfl rfl
  have hrow : spawningOn.scopes.get? ⟨0⟩ = some ((Scope.begun ⟨1⟩ default).extend (.clamp 9)) := rfl
  have hending := hrefusal.running disciplined_spawningOn hrow not_guarded_spawning hruns
    (refl_of Upkeep _)
  exact ⟨_, _, hruns, (hrefusal.refused hending _).mpr (.inl rfl)⟩

end Engine

end Marble
