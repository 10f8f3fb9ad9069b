import Marble.Proofs.Reachable
import Marble.Proofs.Registration
import Marble.Proofs.Verdict

/-! What is put down for the end of a scope, and what it comes to: the horizon is the latest instant
that any of it asks for, and the assertions stand in the order they came. -/
namespace Marble

variable {α σ : Type} {E : Engine α σ} {b b' : Bench α σ} {s : ScopeRef} {scope : Scope α σ}
  {options : ScopeOptions} {c : ClockRef} {ts : List VirtualTime} {asserted : List (Assertion α σ)}

/-- What can be put down for the end of a scope. -/
inductive Enrolment (α σ : Type) where
  | assertion (horizon : VirtualTime) (f : σ)
  | expectation (q : Sequence α) (d : Diagram α SequenceError (Effect σ)) (compare : Compare α)
  | effects (d : Diagram α SequenceError (Effect σ))
  | invocations (p : ProbeRef) (d : Diagram α SequenceError (Effect σ))

namespace Enrolment

/-- The effects of a diagram that is read from an instant on. -/
def effectsFrom (t : VirtualTime) (options : ScopeOptions)
    (d : Diagram α SequenceError (Effect σ)) : List (Timed (Effect σ)) :=
  Timeline.shift t (d.sideEffects options.unit)

/-- The instants that the clock is to reach for it. -/
def times (options : ScopeOptions) (t : VirtualTime) : Enrolment α σ → List VirtualTime
  | .assertion horizon _ => [horizon]
  | .expectation _ d _ => [Engine.releaseAt d options t]
  | .effects d => (effectsFrom t options d).map (·.time)
  | .invocations _ d => [Timeline.lastTime (effectsFrom t options d) t + options.padding]

/-- The assertions it adds, with the recorder that is made for it. -/
def assertions (options : ScopeOptions) (t : VirtualTime) (r : RecorderRef) :
    Enrolment α σ → List (Assertion α σ)
  | .assertion _ f => [.check f]
  | .expectation _ d compare => [.events r d.source (Engine.expected d options t) compare]
  | .effects _ => []
  | .invocations p d => [.effects p (effectsFrom t options d)]

end Enrolment

/-- The latest of some instants. -/
def latest (ts : List VirtualTime) : VirtualTime := ts.foldl max .zero

/-- A scope for which more has been put down. -/
def Scope.owing (scope : Scope α σ) (ts : List VirtualTime) (asserted : List (Assertion α σ)) :
    Scope α σ :=
  { scope with horizon := ts.foldl max scope.horizon, pending := scope.pending ++ asserted }

theorem Scope.owing_owing (scope : Scope α σ) (ts ts' : List VirtualTime)
    (asserted asserted' : List (Assertion α σ)) :
    (scope.owing ts asserted).owing ts' asserted' =
      scope.owing (ts ++ ts') (asserted ++ asserted') := by
  simp [owing]

/-- What a scope owes that has had all this put down since it began. -/
theorem Scope.begun_owing (c : ClockRef) (options : ScopeOptions) (ts : List VirtualTime)
    (asserted : List (Assertion α σ)) :
    (Scope.begun c options).owing ts asserted =
      { options, clock := c, phase := .active, horizon := latest ts, pending := asserted } := by
  simp [owing, begun, latest]

namespace Bench

/-- An assertion that is registered asks for its horizon. -/
theorem row_register (h : b.accepting s = .ok scope) (t : VirtualTime) (a : Assertion α σ) :
    (b.entered s t a).scopes.get? s = some (scope.owing [t] [a]) := by
  obtain ⟨hrow, -⟩ := accepting_eq_ok.mp h
  change (b.modifyScope s _).scopes.get? s = _
  rw [get?_modifyScope, hrow]
  rfl

/-- Effects that are queued ask for their own times. -/
theorem row_extendAll (c : ClockRef) (effects : List (Timed (Effect σ)))
    (h : b.scopes.get? s = some scope) :
    (effects.foldl (fun b e =>
      (b.modifyScope s (·.extend e.time)).schedule c e.time (.invoke e.value)) b).scopes.get? s =
      some (scope.owing (effects.map (·.time)) []) := by
  induction effects generalizing b scope with
  | nil => simpa [Scope.owing] using h
  | cons e rest ih =>
    have hnext : ((b.modifyScope s (·.extend e.time)).schedule c e.time
        (.invoke e.value)).scopes.get? s = some (scope.extend e.time) := by
      change (b.modifyScope s _).scopes.get? s = _
      rw [get?_modifyScope, h]
      rfl
    rw [List.foldl_cons, ih hnext]
    rfl

theorem pass_scopes (b : Bench α σ) (stages : List (Stage α)) (n : Signal α) :
    (b.pass stages n).2.scopes = b.scopes := by
  induction stages generalizing b n with
  | nil => rfl
  | cons stage rest ih =>
    have hwitness : (b.witness stage n).scopes = b.scopes := by cases stage <;> cases n <;> rfl
    rw [pass]
    split
    · exact hwitness
    · rw [ih, hwitness]

end Bench

namespace Engine

/-- Puts something down for the end of a scope. -/
def enroll (E : Engine α σ) (s : ScopeRef) : Enrolment α σ → Attempt α σ Unit
  | .assertion horizon f => Attempt.step (·.register s horizon (.check f))
  | .expectation q d compare => E.expect s q d compare
  | .effects d => scheduleEffects s d
  | .invocations p d => expectEffects s p d

/-- To put something down is nothing that client code could not do. -/
theorem respects_enroll {R : Bench α σ → Bench α σ → Prop} [Bench.Admits R] (hE : E.Respects R)
    (s : ScopeRef) (e : Enrolment α σ) : Attempt.Keeps R (E.enroll s e) := by
  cases e with
  | assertion horizon f =>
    exact Attempt.keeps_step fun b =>
      Bench.Admits.aside (.register b s _ _) (Bench.clock_register b s _ _)
  | expectation q d compare => exact respects_expect hE s q d compare
  | effects d => exact keeps_scheduleEffects s d
  | invocations p d => exact keeps_expectEffects s p d

/-- A recorder takes in what comes without a word to anybody else. -/
theorem notify_recorder (stages : List (Stage α)) (r : RecorderRef) (n : Signal α)
    (b : Bench α σ) :
    ∃ b', E.notify ⟨stages, .recorder r⟩ n b = (.done (), b') ∧ b'.scopes = b.scopes := by
  have hpass := Bench.pass_scopes b stages n
  rw [notify, Run.change_bind]
  cases (b.pass stages n).1 with
  | none => exact ⟨_, rfl, hpass⟩
  | some m => exact ⟨_, rfl, hpass⟩

theorem subscribe_recorder (q : Sequence α) (r : RecorderRef) (b : Bench α σ) :
    ∃ sub b', E.subscribe q (.recorder r) b = (.done sub, b') ∧ b'.scopes = b.scopes := by
  obtain ⟨base, stages⟩ := q
  cases base with
  | empty =>
    obtain ⟨b₁, hrun, hscopes⟩ := notify_recorder (E := E) stages r .completed b
    exact ⟨b₁.subscriptions.next, (b₁.addSubscription .nothing).2, Run.bind_done hrun, hscopes⟩
  | never => exact ⟨_, _, rfl, rfl⟩
  | source src =>
    refine ⟨_, _, rfl, ?_⟩
    dsimp only [Bench.attach]
    cases b.sources.get? src with
    | none => rfl
    | some row =>
      cases htemperature : row.temperature with
      | cold => simp only [htemperature, Bench.foldl_schedule_eq]; rfl
      | hot => simp only [htemperature]; rfl
  | just items =>
    have hnotify : ∀ n ∈ items, ∀ b₁, b₁.scopes = b.scopes →
        ∃ b₂, E.notify ⟨stages, .recorder r⟩ n b₁ = (.done (), b₂) ∧ b₂.scopes = b.scopes := by
      intro n _ b₁ h₁
      obtain ⟨b₂, hrun, hscopes⟩ := notify_recorder (E := E) stages r n b₁
      exact ⟨b₂, hrun, hscopes.trans h₁⟩
    obtain ⟨b₁, hrun, hscopes⟩ := Run.each_done_of hnotify rfl
    exact ⟨b₁.subscriptions.next, (b₁.addSubscription .nothing).2, Run.bind_done hrun, hscopes⟩
  | after c items =>
    have hpush : ∀ e ∈ items, ∀ b₁ : Bench α σ, b₁.scopes = b.scopes →
        ∃ b₂, Run.update (·.scheduleAfter c e.time (.push ⟨stages, .recorder r⟩ e.value)) b₁ =
          (.done (), b₂) ∧ b₂.scopes = b.scopes := fun _ _ _ h₁ => ⟨_, rfl, h₁⟩
    obtain ⟨b₁, hrun, hscopes⟩ := Run.each_done_of hpush rfl
    exact ⟨b₁.subscriptions.next, (b₁.addSubscription .nothing).2, Run.bind_done hrun, hscopes⟩

/-- A scope that takes assertions takes whatever is put down for its end. -/
theorem enroll_accepting (h : b.accepting s = .ok scope) (e : Enrolment α σ) :
    ∃ b', E.enroll s e b = (.done (.ok ()), b') ∧ b'.scopes.get? s = some (scope.owing
      (e.times scope.options (b.now scope.clock))
      (e.assertions scope.options (b.now scope.clock) b.recorders.next)) := by
  have hcheck : Attempt.check (·.accepting s) b = (.done (.ok scope), b) := by
    simp [Attempt.check, h]
  cases e with
  | assertion horizon f => exact ⟨_, step_register h horizon (.check f), Bench.row_register h _ _⟩
  | expectation q d compare =>
    obtain ⟨sub, b₁, hsubscribe, hscopes⟩ :=
      subscribe_recorder (E := E) q (b.addRecorder scope.clock).1 (b.addRecorder scope.clock).2
    have haccept : (b₁.schedule scope.clock (releaseAt d scope.options (b.now scope.clock))
        (.release b.recorders.next sub)).accepting s = .ok scope :=
      (Bench.accepting_of_scopes hscopes).trans h
    exact ⟨_, expect_of_subscribe h hsubscribe hscopes d compare, Bench.row_register haccept _ _⟩
  | effects d =>
    obtain ⟨hrow, -⟩ := Bench.accepting_eq_ok.mp h
    rw [enroll, scheduleEffects, Attempt.bind_ok hcheck, Attempt.read_bind, Attempt.note_bind]
    exact ⟨_, rfl, Bench.row_extendAll scope.clock _ hrow⟩
  | invocations p d =>
    rw [enroll, expectEffects, Attempt.bind_ok hcheck, Attempt.read_bind]
    exact ⟨_, step_register h _ _, Bench.row_register h _ _⟩

end Engine

namespace Bench

/-- A scope since it began, with the instants and the assertions that all the things put down for
its end come to, whoever puts them down. Nothing else that happens touches the scope. -/
inductive Enrolled (s : ScopeRef) (options : ScopeOptions) (c : ClockRef) :
    List VirtualTime → List (Assertion α σ) → Bench α σ → Prop
  | begun {b : Bench α σ} (h : b.scopes.get? s = some (Scope.begun c options)) :
    Enrolled s options c [] [] b
  | aside {ts : List VirtualTime} {asserted : List (Assertion α σ)} {b b' : Bench α σ}
    (h : Enrolled s options c ts asserted b) (hrow : b'.scopes.get? s = b.scopes.get? s) :
    Enrolled s options c ts asserted b'
  | enroll {ts : List VirtualTime} {asserted : List (Assertion α σ)} {b : Bench α σ}
    (h : Enrolled s options c ts asserted b) (E : Engine α σ) (e : Enrolment α σ) :
    Enrolled s options c (ts ++ e.times options (b.now c))
      (asserted ++ e.assertions options (b.now c) b.recorders.next) (E.enroll s e b).2

/-- All that has been put down is there when the scope is to end. -/
theorem Enrolled.row (h : Enrolled s options c ts asserted b) :
    b.scopes.get? s = some ((Scope.begun c options).owing ts asserted) := by
  induction h with
  | begun h => simpa [Scope.owing, Scope.begun] using h
  | aside _ hrow ih => rw [hrow, ih]
  | enroll h E e ih =>
    have haccepting := accepting_eq_ok.mpr ⟨ih, rfl⟩
    obtain ⟨b', hrun, hrow⟩ := Engine.enroll_accepting (E := E) haccepting e
    rw [hrun, hrow, Scope.owing_owing]
    rfl

/-- Whatever is to be put down for the end of a scope is refused, and nothing comes of it. -/
def Refuses (b : Bench α σ) (s : ScopeRef) : Prop :=
  ∀ (E : Engine α σ) (e : Enrolment α σ),
    E.enroll s e b = (.done (.error (.scopeClosed s.scopeId)), b)

theorem refuses_of_row (hrow : b.scopes.get? s = some scope)
    (hclosed : scope.phase.isAccepting = false) : b.Refuses s := by
  have haccepting : b.accepting s = .error (.scopeClosed s.scopeId) := by
    simp [accepting, hrow, hclosed]
  have hcheck : Attempt.check (·.accepting s) b = (.done (.error (.scopeClosed s.scopeId)), b) := by
    simp [Attempt.check, haccepting]
  intro E e
  cases e with
  | assertion horizon f => simp [Engine.enroll, Attempt.step, register, haccepting]
  | expectation q d compare => rw [Engine.enroll, Engine.expect, Attempt.bind_error hcheck]
  | effects d => rw [Engine.enroll, Engine.scheduleEffects, Attempt.bind_error hcheck]
  | invocations p d => rw [Engine.enroll, Engine.expectEffects, Attempt.bind_error hcheck]

end Bench

end Marble
