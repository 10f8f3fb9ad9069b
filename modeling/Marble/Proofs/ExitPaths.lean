import Marble.Proofs.Phases

/-! A body that runs in a scope of its own. Whichever way it is left, the scope is off the stack
afterwards; how it is left decides about the assertions of the scope, and about the answer. -/
namespace Marble

variable {α σ ρ : Type} {E : Engine α σ} {b b' b₁ b₂ : Bench α σ} {s : ScopeRef} {scope : Scope α σ}
  {options : ScopeOptions} {body : ScopeRef → Attempt α σ ρ}

namespace Bench

/-- The stack is what it was. -/
def Unmoved (b b' : Bench α σ) : Prop := b'.stack = b.stack

instance : IsPreorder (Bench α σ) Unmoved where
  refl _ := rfl
  trans _ _ _ h h' := Eq.trans h' h

theorem unmoved_next? {c : ClockRef} {limit : VirtualTime} {a : Action α σ}
    (h : b.next? c limit = some (a, b')) : Unmoved b b' := by
  obtain ⟨clocks, log, rfl⟩ := next?_rest h
  rfl

end Bench

open Bench

namespace Engine

/-- The answer of a body in a scope of its own. The error of the body wins over that of the
scope. -/
def combine : Except Error ρ → Except Error Unit → Except Error ρ
  | .error e, _ => .error e
  | .ok _, .error e => .error e
  | .ok value, .ok () => .ok value

variable [Shown α]

/-- Assertions leave the stack alone if the client code among them comes to an outcome and does
so. -/
theorem eachCheck_unmoved {grid : TimeGrid} {asserted : List (Assertion α σ)}
    (h : ∀ before f after os b₁, asserted = before ++ .check f :: after →
      E.outcomes s grid 0 before b = (.done os, b₁) →
      ∃ o b₂, E.call f b₁ = (.done o, b₂) ∧ Unmoved b₁ b₂) :
    E.EachCheck Unmoved s grid asserted b := by
  intro before a after os b₁ heq hrun
  cases a with
  | check f => exact h before f after os b₁ heq hrun
  | events r diagram expected compare =>
    obtain ⟨b₂, hdone⟩ := verify_events_done E (s := s) grid r diagram expected compare b₁
    have hkept : Attempt.Keeps Unmoved (E.verify s grid (.events r diagram expected compare)) :=
      keeps_verify E (fun _ _ _ => rfl) grid fun f hf => by cases hf
    have hunmoved := hkept b₁
    rw [hdone] at hunmoved
    exact ⟨_, b₂, hdone, hunmoved⟩
  | effects p expected => exact ⟨_, b₁, rfl, rfl⟩

/-- Neither the actions that come to start while a scope ends panic or touch the stack, nor does the
client code that its assertions call. -/
structure Discreet (E : Engine α σ) (s : ScopeRef) (scope : Scope α σ) (b : Bench α σ) : Prop where
  actions : E.EachTurn Unmoved scope.clock scope.horizon E.fuel (closing s scope.horizon b)
  assertions : ∀ ran b₁, E.Runs scope.clock scope.horizon (closing s scope.horizon b) ran b₁ →
    b₁.next? scope.clock scope.horizon = none →
    ∀ before f after os b₂, scope.pending = before ++ .check f :: after →
      E.outcomes s scope.options.grid 0 before (checking s scope.clock scope.horizon b₁) =
        (.done os, b₂) →
      ∃ o b₃, E.call f b₂ = (.done o, b₃) ∧ Unmoved b₂ b₃

/-- An innermost scope that gets to its horizon, and whose assertions all come to an outcome, is
over. -/
theorem endScope_of_outcomes (hE : E.Respects Upkeep) {rest : List ScopeRef}
    {ran : List (Pending (Action α σ))} {os : List (Except Error Unit)} (h : b.Disciplined)
    (hstack : b.stack = s :: rest) (hg : s ∉ b.guarded) (hrow : b.scopes.get? s = some scope)
    (hruns : E.Runs scope.clock scope.horizon (closing s scope.horizon b) ran b₁)
    (hadvance : E.advanceTo scope.clock scope.horizon (closing s scope.horizon b) =
      (.done (), b₁.park scope.clock scope.horizon))
    (houtcomes : E.outcomes s scope.options.grid 0 scope.pending
      (checking s scope.clock scope.horizon b₁) = (.done os, b₂)) :
    E.endScope s b = (.done (verdict os),
        relinquish s (.done (verdict os)) ((concluded s os b₂).removeScope s)) ∧
      (relinquish s (.done (verdict os)) ((concluded s os b₂).removeScope s)).scopes.get? s =
        some { scope with phase := .disposed, pending := [] } := by
  -- From here on nothing is taken in, whatever client code does.
  have hran := hruns.closed hE (closed_closing h hrow hg scope.horizon)
  have hchecked := closed_of_outcomes hE houtcomes (hran.checking _ _)
  have hjudge : E.judge s b = (.done os, b₂) := by
    refine (judge_eq_done hrow).mpr ⟨b₁.park scope.clock scope.horizon, hadvance, ?_⟩
    rw [(hran.park _ _).row]
    exact houtcomes
  exact ⟨endScope_of_settle hstack (settle_of_judge hrow hjudge), row_ended hchecked.row rfl os _⟩

/-- The innermost scope ends with the verdict on all that it has pending, and leaves the rest of the
stack alone. -/
theorem endScope_discreet (hE : E.Respects Upkeep) {rest : List ScopeRef} (h : b.Disciplined)
    (hstack : b.stack = s :: rest) (hg : s ∉ b.guarded) (hrow : b.scopes.get? s = some scope)
    (hdiscreet : E.Discreet s scope b) :
    ∃ ran b₁ os b₂ b',
      E.Runs scope.clock scope.horizon (closing s scope.horizon b) ran b₁ ∧
      b₁.next? scope.clock scope.horizon = none ∧
      E.outcomes s scope.options.grid 0 scope.pending (checking s scope.clock scope.horizon b₁) =
        (.done os, b₂) ∧
      E.endScope s b = (.done (verdict os), b') ∧ b'.stack = b.stack.erase s ∧
      b'.scopes.get? s = some { scope with phase := .disposed, pending := [] } := by
  obtain ⟨ran, b₁, hruns, hnone, hadvance⟩ := hdiscreet.actions.advanceTo
  obtain ⟨os, b₂, houtcomes, hchecked⟩ :=
    (eachCheck_unmoved (hdiscreet.assertions ran b₁ hruns hnone)).outcomes fun _ _ => rfl
  obtain ⟨hend, hdisposed⟩ := endScope_of_outcomes hE h hstack hg hrow hruns hadvance houtcomes
  have hran : Unmoved b b₁ := hdiscreet.actions.runs unmoved_next? hruns
  have hunmoved : b₂.stack = b.stack := Eq.trans hchecked hran
  have hclosed := (hruns.closed hE (closed_closing h hrow hg scope.horizon)).checking scope.clock
    scope.horizon
  refine ⟨ran, b₁, os, b₂, _, hruns, hnone, houtcomes, hend, ?_, hdisposed⟩
  rw [stack_ended (closed_of_outcomes hE houtcomes hclosed).disciplined, hunmoved]

/-- A body that comes to its end is followed by the end of its scope, and both have a say. -/
theorem within_of_endScope {outcome : Except Error ρ} {ended : Except Error Unit}
    (hbody : body b.scopes.next (b.beginScope options).2 = (.done outcome, b₁))
    (hend : E.endScope b.scopes.next b₁ = (.done ended, b₂)) :
    E.within options body b = (.done (combine outcome ended), b₂) := by
  have hran : ((body b.scopes.next).result.onPanic (·.abandon b.scopes.next .abandonedInPanic))
      (b.beginScope options).2 = (.done outcome, b₁) := by
    rw [Run.onPanic, Attempt.result, hbody]
  have hended : Attempt.lift (E.endScope b.scopes.next).result b₁ = (.done (.ok ended), b₂) :=
    Attempt.lift_done hend
  rw [within, Attempt.change_bind, beginScope_ref, Attempt.bind_ok (Attempt.lift_done hran),
    Attempt.bind_ok hended]
  cases outcome with
  | error e => rfl
  | ok value => cases ended <;> rfl

/-- A panic in a body gives its scope up and goes on. -/
theorem within_of_panicked {message : String}
    (hbody : body b.scopes.next (b.beginScope options).2 = (.panicked message, b₁)) :
    E.within options body b =
      (.panicked message, b₁.abandon b.scopes.next .abandonedInPanic) := by
  have hran : ((body b.scopes.next).result.onPanic (·.abandon b.scopes.next .abandonedInPanic))
      (b.beginScope options).2 =
        (.panicked message, b₁.abandon b.scopes.next .abandonedInPanic) := by
    rw [Run.onPanic, Attempt.result, hbody]
  rw [within, Attempt.change_bind, beginScope_ref,
    Attempt.bind_panicked (Attempt.lift_panicked hran)]

/-- The ways out of a body that has a scope of its own. -/
structure Exits (E : Engine α σ) (options : ScopeOptions) (body : ScopeRef → Attempt α σ ρ)
    (b : Bench α σ) : Prop where
  /-- If the body panics, the scope is given up, and nothing that it has pending runs. -/
  panicked {message : String} {b₁ : Bench α σ}
    (hbody : body b.scopes.next (b.beginScope options).2 = (.panicked message, b₁)) :
    ∃ b', GivenUp b.scopes.next b₁ b' ∧ E.within options body b = (.panicked message, b')
  /-- So it is if the body leaves a later scope open. The answer is then that the innermost one is
  in the way, unless the body has an error of its own. -/
  surrounding {outcome : Except Error ρ} {b₁ : Bench α σ} {t : ScopeRef}
    (hbody : body b.scopes.next (b.beginScope options).2 = (.done outcome, b₁))
    (ht : t ∈ b₁.stack) (hlater : b.scopes.next.index < t.index) :
    ∃ top b', b₁.stack.head? = some top ∧ GivenUp b.scopes.next b₁ b' ∧
      E.within options body b = (.done (combine outcome
        (.error (.unbalancedScope b.scopes.next.scopeId top.scopeId))), b')
  /-- Otherwise all that the scope has pending is checked, whatever the body answers, once the clock
  has run to the horizon. The answer is the error of the body, the first failure, or the value of
  the body, and the rest of the stack is as the body left it. -/
  innermost {outcome : Except Error ρ} {b₁ : Bench α σ}
    (hbody : body b.scopes.next (b.beginScope options).2 = (.done outcome, b₁))
    (hlast : ∀ t ∈ b₁.stack, t.index ≤ b.scopes.next.index) :
    b₁.stack.head? = some b.scopes.next ∧ ∃ scope, b₁.scopes.get? b.scopes.next = some scope ∧
      (E.Discreet b.scopes.next scope b₁ → ∃ ran b₂ os b₃ b',
        E.Runs scope.clock scope.horizon (closing b.scopes.next scope.horizon b₁) ran b₂ ∧
        b₂.next? scope.clock scope.horizon = none ∧
        E.outcomes b.scopes.next scope.options.grid 0 scope.pending
          (checking b.scopes.next scope.clock scope.horizon b₂) = (.done os, b₃) ∧
        E.within options body b = (.done (combine outcome (verdict os)), b') ∧
        b'.stack = b₁.stack.erase b.scopes.next ∧
        b'.scopes.get? b.scopes.next = some { scope with phase := .disposed, pending := [] })
  /-- Even if an assertion panics or touches the stack, the scope is off it in the end. -/
  gone (hleft : (body b.scopes.next (b.beginScope options).2).1 ≠ .exhausted) :
    b.scopes.next ∉ (E.within options body b).2.stack

/-- A scope of its own is off the stack whichever way its body is left, and its assertions are
checked if the body returns with nothing open inside of it. -/
theorem exits_within (hE : E.Respects Upkeep) (h : b.Disciplined) (options : ScopeOptions)
    {body : ScopeRef → Attempt α σ ρ} (hbody : ∀ s, Attempt.Keeps Upkeep (body s)) :
    E.Exits options body b := by
  have hopened : Upholds [] [] b (b.beginScope options).2 := upkeep_beginScope b options h
  have hopen : b.scopes.next ∈ (b.beginScope options).2.stack := by simp
  have hbegun := hopened.disciplined.begun _ hopen
  have hg : b.scopes.next ∉ (b.beginScope options).2.guarded := h.next_not_guarded
  have hkept : ∀ {outcome : Outcome (Except Error ρ)} {b₁ : Bench α σ},
      body b.scopes.next (b.beginScope options).2 = (outcome, b₁) →
      Upholds [] [] (b.beginScope options).2 b₁ := fun hrun => by
    have hbody := hbody b.scopes.next _ hopened.disciplined
    rwa [Attempt.result, hrun] at hbody
  -- The body cannot get at the guard of the scope, so it leaves the scope on the stack.
  have hstill : ∀ {outcome : Outcome (Except Error ρ)} {b₁ : Bench α σ},
      body b.scopes.next (b.beginScope options).2 = (outcome, b₁) →
      b.scopes.next ∈ b₁.stack ∧ b.scopes.next ∉ b₁.guarded := fun hrun =>
    ⟨((hkept hrun).stack _ hbegun hg (by simp)).mpr hopen, (hkept hrun).guarded _ hbegun hg⟩
  refine ⟨fun hrun => ?_, fun hrun ht hlater => ?_, fun hrun hlast => ?_, fun hleft => ?_⟩
  · exact ⟨_, givenUp_abandon _ _ .abandonedInPanic, within_of_panicked hrun⟩
  · obtain ⟨top, rest, hstack, hne⟩ := (hkept hrun).disciplined.exists_top ht hlater
    refine ⟨top, _, by rw [hstack]; rfl, givenUp_abandon _ _ .abandonedOutOfOrder, ?_⟩
    exact within_of_endScope hrun (endScope_other hstack hne)
  · have hdisciplined := (hkept hrun).disciplined
    obtain ⟨hmem, hunguarded⟩ := hstill hrun
    obtain ⟨rest, hstack⟩ := hdisciplined.exists_rest hmem hlast
    obtain ⟨scope, hrow⟩ := (hdisciplined.begun _ hmem).exists_row
    refine ⟨by rw [hstack]; rfl, scope, hrow, fun hdiscreet => ?_⟩
    obtain ⟨ran, b₂, os, b₃, b', hruns, hnone, houtcomes, hend, hrest, hdisposed⟩ :=
      endScope_discreet hE hdisciplined hstack hunguarded hrow hdiscreet
    exact ⟨ran, b₂, os, b₃, b', hruns, hnone, houtcomes, within_of_endScope hrun hend, hrest,
      hdisposed⟩
  · rcases hrun : body b.scopes.next (b.beginScope options).2 with ⟨outcome | message | _, b₁⟩
    · obtain ⟨hmem, hunguarded⟩ := hstill hrun
      rw [(within_of_done options hrun).1]
      exact (upholds_endScope hE (hkept hrun).disciplined hmem hunguarded).2
    · rw [within_of_panicked hrun]
      exact (hkept hrun).disciplined.not_mem_abandon _ _
    · simp [hrun] at hleft

/-- A body that registers an assertion, which fails, and has no error of its own. -/
theorem within_failing : ∃ b', (Callback.engine 6).within default
      (fun s => (Callback.engine 6).enroll s
        (.assertion (.clamp 9) (.script [.fail .noActiveScope])))
      (Scenario.fresh : Bench Int64 (Callback Int64)) = (.done (.error .noActiveScope), b') ∧
    b'.stack = [] := by
  have hE := Scenario.upkeep_engine (α := Int64) 6
  have hexits := exits_within hE Scenario.disciplined_fresh default fun s =>
    respects_enroll hE s (.assertion (.clamp 9) (.script [.fail .noActiveScope]))
  obtain ⟨-, scope, hrow, hends⟩ := hexits.innermost rfl fun t ht => by
    obtain rfl := List.mem_singleton.mp ht
    exact Nat.le_refl _
  obtain rfl : (Scope.begun ⟨1⟩ default).owing [.clamp 9]
      [.check (.script [.fail .noActiveScope])] = scope := Option.some.inj hrow
  obtain ⟨ran, b₂, os, b₃, b', -, -, houtcomes, hanswer, hstack, -⟩ := hends {
    actions := eachTurn_of_none rfl
    assertions := by
      intro _ b₁ _ _ before f after os b₂ heq _
      have hf : Assertion.check f ∈ before ++ .check f :: after := by simp
      rw [← heq] at hf
      obtain rfl := Assertion.check.inj (List.mem_singleton.mp hf)
      exact ⟨_, _, rfl, rfl⟩ }
  obtain rfl : [.error .noActiveScope] = os := Outcome.done.inj (congrArg Prod.fst houtcomes)
  exact ⟨b', hanswer, hstack⟩

end Engine

end Marble
