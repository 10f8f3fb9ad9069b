import Marble.Proofs.Phases

/-! The life of a scope, whatever is done with guards by commands, actions and assertions. -/
namespace Marble

open Bench

variable {α : Type} {b b' : Bench α (Callback α)} {s : ScopeRef} {name : String}
  {scope : Scope α (Callback α)}

namespace Bench

theorem progress_withoutGuard (b : Bench α (Callback α)) (name : String) :
    Progress b (b.withoutGuard name) := progress_aside rfl rfl (guarded_withoutGuard b name)

/-- A guard that has been taken belongs to an open and active scope. -/
theorem Orderly.take (h : b.Orderly) (hname : b.names.guards.lookup name = some s) :
    ∃ scope, b.scopes.get? s = some scope ∧ scope.phase = .active ∧ s ∈ b.stack := by
  have hopen : s ∈ b.stack := h.held s (mem_guarded hname)
  obtain ⟨scope, hrow⟩ := (h.begun s hopen).exists_row
  exact ⟨scope, hrow, phase_of_row hrow ▸ h.active s (mem_guarded hname), hopen⟩

end Bench

namespace Scenario

theorem orderly_fresh : (fresh : Bench α (Callback α)).Orderly := by
  refine ⟨disciplined_fresh, ?_, ?_⟩
  · simp [fresh, guarded, addClock]
  · intro s hs
    simp [Begun, fresh, addClock, Table.next] at hs

/-- A command that takes the guard under a name and then uses it up. -/
theorem progress_takeGuard {ρ : Type} {use : ScopeRef → Task α ρ} (name : String)
    (huse : ∀ b s scope, b.Orderly → s ∈ b.stack → s ∉ b.guarded → b.scopes.get? s = some scope →
      scope.phase = .active → Advances [s] [s] b (use s b).2) :
    Attempt.Keeps Progress (takeGuard name >>= use) := by
  intro b h
  change Advances [] [] b ((takeGuard name >>= use) b).2
  cases hname : b.names.guards.lookup name with
  | none =>
    rw [Attempt.bind_panicked (takeGuard_none hname)]
    exact .refl h
  | some s =>
    obtain ⟨scope, hrow, ha, hopen⟩ := h.take hname
    have htaken := progress_withoutGuard b name h
    rw [Attempt.bind_ok (takeGuard_eq hname)]
    exact htaken.use (fun _ => mem_guarded hname)
      (huse _ s scope htaken.orderly hopen (h.toDisciplined.not_guarded hname) hrow ha)

variable [Shown α] {E : Engine α (Callback α)}

theorem progress_beginScope_command (name : String) (options : ScopeOptions) :
    Attempt.Keeps Progress (perform E (.beginScope name options)) := by
  intro b h
  obtain ⟨b', hrun, hstack, hscopes, -⟩ := perform_beginScope (E := E) b name options
  have hupholds := upkeep_beginScope_command (E := E) name options b h.toDisciplined
  change Upholds [] [] b (perform E (.beginScope name options) b).2 at hupholds
  change Advances [] [] b (perform E (.beginScope name options) b).2
  rw [hrun] at hupholds ⊢
  exact hupholds.advances_begin h hstack hscopes

theorem progress_perform (hP : E.Respects Progress) (c : Command α) :
    Attempt.Keeps Progress (perform E c) := by
  cases c with
  | beginScope name options => exact progress_beginScope_command name options
  | endScope name =>
    refine progress_takeGuard name fun b s scope h hs hg hrow ha => ?_
    rw [Attempt.bind_pure_snd]
    exact (Engine.leaves_endScope hP h hs hg hrow ha).advances
  | dropScope name =>
    refine progress_takeGuard name fun b s scope h hs hg hrow ha => ?_
    rw [Attempt.bind_pure_snd, Attempt.lift_snd, Engine.dropScope_eq_endScope]
    exact (Engine.leaves_endScope hP h hs hg hrow ha).advances
  | panicHolding name message =>
    refine progress_takeGuard name fun b s scope h hs hg hrow ha => ?_
    rw [Attempt.lift_snd]
    exact advances_abandon h (begun_of_row hrow) hg _
  | within name options script value =>
    refine fun b h => (Engine.inside_within hP options (fun s => ?_) h).advances
    refine Attempt.keeps_bind (keeps_nameScope name s) fun _ => ?_
    exact Attempt.keeps_bind (hP _) fun _ => Attempt.keeps_pure _
  | _ => exact respects_perform hP rfl

theorem progress_engine (fuel : Nat) : (Callback.engine fuel).Respects (Progress (α := α)) :=
  Callback.respects_engine (fun _ hP => progress_perform hP) fuel

theorem orderly_after (hP : E.Respects Progress) (script : Script α) (h : b.Orderly) :
    (after E script b).Orderly := by
  have hkept : Progress b (after E script b) :=
    keeps_foldl (fun b c => progress_perform hP c b) b script
  exact (hkept h).orderly

/-- What holds of the lives of scopes under an engine. -/
structure Lifecycle (E : Engine α (Callback α)) : Prop where
  /-- At all times a scope that has left the stack is over, with nothing left to check, or has been
  left at its end. -/
  always (script : Script α) : (after E script fresh).Orderly
  /-- No phase ever moves back, whatever is done by a command, -/
  command {b : Bench α (Callback α)} (c : Command α) (h : b.Orderly) :
    Advances [] [] b (perform E c b).2
  /-- by a callback, wherever it is called, -/
  callback {b : Bench α (Callback α)} (f : Callback α) (h : b.Orderly) :
    Advances [] [] b (E.call f b).2
  /-- by any plain change in between, -/
  plain {b b' : Bench α (Callback α)} (hb : Plain b b') (h : b.Orderly) : Advances [] [] b b'
  /-- by the actions of a clock, all along, -/
  running {b b₁ : Bench α (Callback α)} {c : ClockRef} {limit : VirtualTime}
    {ran : List (Pending (Action α (Callback α)))} (h : b.Orderly)
    (hruns : E.Runs c limit b ran b₁) : Advances [] [] b b₁
  /-- or by the end of a scope: only of a scope that is being settled does the phase change then,
  while its guard is out of reach. -/
  ending {b : Bench α (Callback α)} {s : ScopeRef} {scope : Scope α (Callback α)} (h : b.Orderly)
    (hs : s ∈ b.stack) (hg : s ∉ b.guarded) (hrow : b.scopes.get? s = some scope)
    (ha : scope.phase = .active) : Advances [] [s] b (E.settle s b).2
  /-- A scope whose guard stands under a name is active. -/
  active {b : Bench α (Callback α)} {name : String} {s : ScopeRef} (h : b.Orderly)
    (hname : b.names.guards.lookup name = some s) :
    ∃ scope, b.scopes.get? s = some scope ∧ scope.phase = .active
  /-- Ending a scope with its guard, with or without a failure, leaves it over, if it comes to its
  end. -/
  ends {b : Bench α (Callback α)} {name : String} {s : ScopeRef} {answer : Except Error (Reply α)}
    (h : b.Orderly) (hname : b.names.guards.lookup name = some s)
    (hdone : (perform E (.endScope name) b).1 = .done answer) :
    (perform E (.endScope name) b).2.Disposed s
  /-- If not, the scope is left at its end: with nothing to check if it is an assertion that breaks
  off, and with all its assertions if it is an action of its clock. -/
  broken {b : Bench α (Callback α)} {name : String} {s : ScopeRef} {scope : Scope α (Callback α)}
    (h : b.Orderly) (hname : b.names.guards.lookup name = some s)
    (hrow : b.scopes.get? s = some scope)
    (hbroken : ∀ answer, (perform E (.endScope name) b).1 ≠ .done answer) :
    (perform E (.endScope name) b).2.scopes.get? s = some (E.leftover s scope (b.withoutGuard name))
  /-- Dropping the guard leaves the scope as ending it does. -/
  drops (b : Bench α (Callback α)) (name : String) :
    (perform E (.dropScope name) b).2 = (perform E (.endScope name) b).2
  /-- A scope is over that is not the innermost one when its guard is used, -/
  unbalanced {b : Bench α (Callback α)} {name : String} {s t : ScopeRef} {rest : List ScopeRef}
    (h : b.Orderly) (hname : b.names.guards.lookup name = some s) (hstack : b.stack = t :: rest)
    (hne : t ≠ s) : (perform E (.endScope name) b).2.Disposed s
  /-- or whose guard is dropped by a panic, -/
  unwinding {b : Bench α (Callback α)} {name : String} {s : ScopeRef} (message : String)
    (h : b.Orderly) (hname : b.names.guards.lookup name = some s) :
    (perform E (.panicHolding name message) b).2.Disposed s
  /-- or that has been begun for a body which panics or comes to its end. -/
  inside {b : Bench α (Callback α)} {ρ : Type} (options : ScopeOptions)
    {body : ScopeRef → Task α ρ} (hbody : ∀ s, Attempt.Keeps Progress (body s)) (h : b.Orderly) :
    E.Inside options body b
  /-- Once off the stack, a scope changes no more. -/
  stays {b b' : Bench α (Callback α)} {s : ScopeRef} (h : b.Orderly) (hs : b.Begun s)
    (hgone : s ∉ b.stack) (hb : Advances [] [] b b') :
    b'.scopes.get? s = b.scopes.get? s ∧ s ∉ b'.stack

theorem leaves_perform (hP : E.Respects Progress) (h : b.Orderly)
    (hname : b.names.guards.lookup name = some s) (hrow : b.scopes.get? s = some scope) :
    E.Leaves s scope (b.withoutGuard name) (E.endScope s (b.withoutGuard name)).1
      (perform E (.endScope name) b).2 := by
  obtain ⟨scope', hrow', ha, hopen⟩ := h.take hname
  obtain rfl : scope = scope' := Option.some.inj (hrow.symm.trans hrow')
  rw [perform, Attempt.bind_ok (takeGuard_eq hname), Attempt.bind_pure_snd]
  exact Engine.leaves_endScope hP (progress_withoutGuard b name h).orderly hopen
    (h.toDisciplined.not_guarded hname) hrow ha

/-- The command comes to its end just when the end of the scope does. -/
theorem perform_endScope_done (hname : b.names.guards.lookup name = some s) :
    (∃ answer, (perform E (.endScope name) b).1 = .done answer) ↔
      ∃ answer, (E.endScope s (b.withoutGuard name)).1 = .done answer := by
  rw [perform, Attempt.bind_ok (takeGuard_eq hname)]
  rcases hout : E.endScope s (b.withoutGuard name) with ⟨(e | r) | message | _, b'⟩
  · simp [Attempt.bind_error hout]
  · simp [Attempt.bind_ok hout]
  · simp [Attempt.bind_panicked hout]
  · simp [bind, Attempt.next, hout]

theorem perform_dropScope_snd (b : Bench α (Callback α)) (name : String) :
    (perform E (.dropScope name) b).2 = (perform E (.endScope name) b).2 := by
  cases hname : b.names.guards.lookup name with
  | none =>
    rw [perform, perform, Attempt.bind_panicked (takeGuard_none hname),
      Attempt.bind_panicked (takeGuard_none hname)]
  | some s =>
    rw [perform, perform, Attempt.bind_ok (takeGuard_eq hname),
      Attempt.bind_ok (takeGuard_eq hname), Attempt.bind_pure_snd, Attempt.bind_pure_snd,
      Attempt.lift_snd, Engine.dropScope_eq_endScope]

/-- Scopes live through their phases in order, whatever scripts nested to any depth do, and are over
once they have left the stack, save those whose end was broken off. -/
theorem lifecycle (fuel : Nat) : Lifecycle (Callback.engine (α := α) fuel) := by
  have hP := progress_engine (α := α) fuel
  exact {
    always := fun script => orderly_after hP script orderly_fresh
    command := fun c h => progress_perform hP c _ h
    callback := fun f h => hP f _ h
    plain := fun hb h => hb.progress h
    running := fun h hruns => hruns.respects hP h
    ending := fun h hs hg hrow ha => (Engine.advances_settle hP h hs hg hrow ha).1
    active := fun h hname => by
      obtain ⟨scope, hrow, ha, -⟩ := h.take hname
      exact ⟨scope, hrow, ha⟩
    ends := fun h hname hdone => by
      obtain ⟨scope, hrow, -, -⟩ := h.take hname
      obtain ⟨answer, hanswer⟩ := (perform_endScope_done hname).mp ⟨_, hdone⟩
      exact (leaves_perform hP h hname hrow).disposed answer hanswer
    broken := fun h hname hrow hbroken => by
      refine (leaves_perform hP h hname hrow).broken fun answer hanswer => ?_
      obtain ⟨answer', hdone⟩ := (perform_endScope_done hname).mpr ⟨answer, hanswer⟩
      exact hbroken answer' hdone
    drops := perform_dropScope_snd
    unbalanced := fun h hname hstack hne => by
      obtain ⟨scope, hrow, -, -⟩ := h.take hname
      exact (leaves_perform hP h hname hrow).disposed _
        (congrArg Prod.fst (Engine.endScope_other (b := Bench.withoutGuard _ _) hstack hne))
    unwinding := fun message h hname => by
      obtain ⟨scope, hrow, -, -⟩ := h.take hname
      rw [perform, Attempt.bind_ok (takeGuard_eq hname), Attempt.lift_snd]
      exact disposed_abandon (b := Bench.withoutGuard _ _) (begun_of_row hrow) _
    inside := fun options _ hbody h => Engine.inside_within hP options hbody h
    stays := fun h hs hgone hb => h.stays hs hgone hb.toUpholds }

/-- An action that panics while its scope is ending takes the scope off the stack at its end, with
its assertions unchecked. -/
theorem after_brokenOff :
    let b := after (Callback.engine 9) [.beginScope "s" default,
      .registerAssertion (some "s") (.string "a") .zero [],
      .scheduleAt "s" .zero (.string "x") [.panic "boom"], .endScope "s"]
      (fresh : Bench Int64 (Callback Int64))
    b.stack = [] ∧
      (b.scopes.get? ⟨0⟩).map (fun scope => (scope.phase, scope.pending.length)) =
        some (.ending, 1) := by
  decide

end Scenario

end Marble
