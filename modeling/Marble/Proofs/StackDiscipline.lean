import Marble.Element
import Marble.Proofs.Clockwork
import Marble.Proofs.Guards

/-! The stack of open scopes, whatever is done with their guards: by commands from outside, and by
assertions and actions while a scope is ending. -/
namespace Marble

open Bench

variable {α : Type} {b b' : Bench α (Callback α)} {s t : ScopeRef} {name : String}

namespace Bench

/-- The bench without the guard under a name. -/
def withoutGuard (b : Bench α (Callback α)) (name : String) : Bench α (Callback α) :=
  { b with names := { b.names with guards := b.names.guards.filter (·.1 != name) } }

theorem guarded_withoutGuard (b : Bench α (Callback α)) (name : String) :
    (b.withoutGuard name).guarded.Sublist b.guarded := List.filter_sublist.map _

theorem upkeep_withoutGuard (b : Bench α (Callback α)) (name : String) :
    Upkeep b (b.withoutGuard name) := fun h =>
  upholds_of_sublist h rfl (guarded_withoutGuard b name) rfl fun _ _ hrow _ _ => hrow

theorem mem_guards (h : b.names.guards.lookup name = some s) : (name, s) ∈ b.names.guards := by
  obtain ⟨l, l', heq, -⟩ := List.lookup_eq_some_iff.mp h
  simp [heq]

theorem mem_guarded (h : b.names.guards.lookup name = some s) : s ∈ b.guarded :=
  List.mem_map_of_mem (f := Prod.snd) (mem_guards h)

/-- A guard that has been taken is out of everyone else's reach. -/
theorem Disciplined.not_guarded (h : b.Disciplined) (hname : b.names.guards.lookup name = some s) :
    s ∉ (b.withoutGuard name).guarded := by
  intro hmem
  obtain ⟨⟨other, _⟩, hother, rfl⟩ := List.mem_map.mp hmem
  obtain ⟨hother, hne⟩ := List.mem_filter.mp hother
  have heq := List.inj_on_of_nodup_map h.apart hother (mem_guards hname) rfl
  simp [(Prod.mk.inj heq).1] at hne

end Bench

namespace Scenario

theorem takeGuard_eq (hname : b.names.guards.lookup name = some s) :
    takeGuard name b = (.done (.ok s), b.withoutGuard name) := by
  have hfind : (Task.find (·.guards.lookup name) : Task α ScopeRef) b = (.done (.ok s), b) := by
    rw [Task.find, Attempt.read_bind, hname]
    rfl
  rw [takeGuard, Attempt.bind_ok hfind]
  rfl

theorem takeGuard_none (hname : b.names.guards.lookup name = none) :
    takeGuard name b = (.panicked "nothing has this name", b) := by
  have hfind : (Task.find (·.guards.lookup name) : Task α ScopeRef) b =
      (.panicked "nothing has this name", b) := by
    rw [Task.find, Attempt.read_bind, hname]
    rfl
  rw [takeGuard, Attempt.bind_panicked hfind]

/-- A command that takes the guard under a name and then uses it up. -/
theorem upkeep_takeGuard {ρ : Type} {use : ScopeRef → Task α ρ} (name : String)
    (huse : ∀ b s, b.Disciplined → s ∈ b.stack → s ∉ b.guarded → Upholds [s] [s] b (use s b).2) :
    Attempt.Keeps Upkeep (takeGuard name >>= use) := by
  intro b h
  change Upholds [] [] b ((takeGuard name >>= use) b).2
  cases hname : b.names.guards.lookup name with
  | none =>
    rw [Attempt.bind_panicked (takeGuard_none hname)]
    exact .refl h
  | some s =>
    have htaken : Upholds [] [] b (b.withoutGuard name) := upkeep_withoutGuard b name h
    have hopen : s ∈ b.stack := h.held s (mem_guarded hname)
    rw [Attempt.bind_ok (takeGuard_eq hname)]
    exact htaken.use (fun _ => mem_guarded hname)
      (huse _ s htaken.disciplined hopen (h.not_guarded hname))

/-- A guard that is used up takes its scope off the stack for good. -/
theorem gone_of_takeGuard {ρ : Type} {use : ScopeRef → Task α ρ}
    (hname : b.names.guards.lookup name = some s) (h : b.Disciplined)
    (huse : ∀ b, b.Disciplined → s ∈ b.stack → s ∉ b.guarded →
      Upholds [s] [s] b (use s b).2 ∧ s ∉ (use s b).2.stack) :
    s ∉ ((takeGuard name >>= use) b).2.stack ∧ s ∉ ((takeGuard name >>= use) b).2.guarded := by
  have htaken : Upholds [] [] b (b.withoutGuard name) := upkeep_withoutGuard b name h
  have hopen : s ∈ b.stack := h.held s (mem_guarded hname)
  have hg := h.not_guarded hname
  rw [Attempt.bind_ok (takeGuard_eq hname)]
  obtain ⟨hused, hgone⟩ := huse _ htaken.disciplined hopen hg
  exact ⟨hgone, hused.guarded s (htaken.begun s (h.begun s hopen)) hg⟩

/-- The innermost scope is the one that began last among those that are open. -/
theorem scope_none_eq (h : b.Disciplined) :
    (Task.scope none : Task α ScopeRef) b = (.done (.ok s), b) ↔
      s ∈ b.stack ∧ ∀ t ∈ b.stack, t.index ≤ s.index := by
  have htop : ∀ top rest, b.stack = top :: rest →
      (Task.scope none : Task α ScopeRef) b = (.done (.ok top), b) := fun top rest hstack => by
    simp [Task.scope, Attempt.check, hstack]
  constructor
  · intro heq
    cases hstack : b.stack with
    | nil => simp [Task.scope, Attempt.check, hstack] at heq
    | cons top rest =>
      obtain rfl : top = s := by simpa [htop top rest hstack] using heq
      refine ⟨by simp, fun t ht => Nat.le_of_not_lt fun hlt => ?_⟩
      obtain ⟨other, later, hother, hne⟩ := h.exists_top (hstack ▸ ht) hlt
      exact hne (List.cons.inj (hother.symm.trans hstack)).1
  · rintro ⟨hs, hlast⟩
    obtain ⟨rest, hstack⟩ := h.exists_rest hs hlast
    exact htop s rest hstack

theorem disciplined_fresh : (fresh : Bench α (Callback α)).Disciplined :=
  ⟨.nil, by simp [fresh, addClock], by simp [fresh, guarded, addClock],
    by simp [fresh, guarded, addClock]⟩

variable [Shown α] {E : Engine α (Callback α)}

/-- The guard of a scope that begins is stored under a name. -/
theorem perform_beginScope (b : Bench α (Callback α)) (name : String) (options : ScopeOptions) :
    ∃ b', perform E (.beginScope name options) b =
        (.done (.ok (.text b.scopes.next.scopeId.text)), b') ∧
      b'.stack = b.scopes.next :: b.stack ∧ b'.scopes = (b.beginScope options).2.scopes ∧
      b'.names.guards = bindName name b.scopes.next b.names.guards := by
  obtain ⟨row, hrow⟩ : ∃ row, (b.beginScope options).2.scopes.get? b.scopes.next = some row := by
    simp [beginScope, addClock, modifyScope, note, Table.get?_modify, Table.get?_push]
  have hscope : (Task.scopeRow b.scopes.next : Task α (Scope α (Callback α)))
      (b.beginScope options).2 = (.done (.ok row), (b.beginScope options).2) := by
    simp only [Task.scopeRow, Attempt.check, hrow]
  have hnamed : ∃ b₁, (nameScope name b.scopes.next : Task α Unit) (b.beginScope options).2 =
      (.done (.ok ()), b₁) ∧ b₁.stack = b.scopes.next :: b.stack ∧
        b₁.scopes = (b.beginScope options).2.scopes ∧ b₁.names.guards = b.names.guards := by
    rw [nameScope, Attempt.bind_ok hscope]
    exact ⟨_, rfl, rfl, rfl, rfl⟩
  obtain ⟨b₁, hname, hstack, hscopes, hguards⟩ := hnamed
  refine ⟨{ b₁ with names := { b₁.names with
    guards := bindName name b.scopes.next b₁.names.guards } }, ?_, hstack, hscopes, ?_⟩
  · rw [perform, Attempt.change_bind]
    change (nameScope name b.scopes.next >>= _) (b.beginScope options).2 = _
    rw [Attempt.bind_ok hname]
    rfl
  · simp [hguards]

/-- A guard stored under a name is one more to reach for, unless it takes the place of another. -/
theorem upkeep_beginScope_command (name : String) (options : ScopeOptions) :
    Attempt.Keeps Upkeep (perform E (.beginScope name options)) := by
  intro b h
  obtain ⟨b', hrun, hstack, hscopes, hguards⟩ := perform_beginScope (E := E) b name options
  have hopened : Upholds [] [] b (b.beginScope options).2 := upkeep_beginScope b options h
  have hbegun : ∀ s, b'.Begun s ↔ (b.beginScope options).2.Begun s := by simp [Begun, hscopes]
  have hsublist : ((b.names.guards.filter (·.1 != name)).map (·.2)).Sublist b.guarded :=
    List.filter_sublist.map _
  have hguarded : b'.guarded =
      b.scopes.next :: (b.names.guards.filter (·.1 != name)).map (·.2) := by
    simp [guarded, hguards, bindName]
  have hnext := h.next_not_guarded
  change Upholds [] [] b (perform E (.beginScope name options) b).2
  rw [hrun]
  refine ⟨⟨?_, ?_, ?_, ?_⟩, fun s hs => (hbegun s).mpr (hopened.begun s hs), ?_, ?_, ?_⟩
  · rw [hstack]
    exact hopened.disciplined.order
  · rw [hstack]
    exact fun s hs => (hbegun s).mpr (hopened.disciplined.begun s hs)
  · intro s hs
    rw [hguarded] at hs
    rw [hstack]
    rcases List.mem_cons.mp hs with rfl | hs
    · simp
    · exact List.mem_cons_of_mem _ (h.held s (hsublist.subset hs))
  · rw [hguarded]
    exact List.nodup_cons.mpr ⟨fun hmem => hnext (hsublist.subset hmem), h.apart.sublist hsublist⟩
  · intro s hs hg hmem
    rw [hguarded] at hmem
    rcases List.mem_cons.mp hmem with rfl | hmem
    · exact Nat.lt_irrefl _ hs
    · exact hg (hsublist.subset hmem)
  · intro s hs hg hown
    rw [hstack]
    exact hopened.stack s hs hg hown
  · rw [hscopes]
    exact hopened.row

theorem upkeep_perform (hE : E.Respects Upkeep) (c : Command α) :
    Attempt.Keeps Upkeep (perform E c) := by
  cases c with
  | beginScope name options => exact upkeep_beginScope_command name options
  | endScope name =>
    refine upkeep_takeGuard name fun b s h hs hg => ?_
    rw [Attempt.bind_pure_snd]
    exact (Engine.upholds_endScope hE h hs hg).1
  | dropScope name =>
    refine upkeep_takeGuard name fun b s h hs hg => ?_
    rw [Attempt.bind_pure_snd, Attempt.lift_snd]
    exact (Engine.upholds_dropScope hE h hs hg).1
  | panicHolding name message =>
    refine upkeep_takeGuard name fun b s h hs hg => ?_
    rw [Attempt.lift_snd]
    exact upholds_abandon h hg _
  | within name options script value =>
    refine Engine.respects_within hE options fun s => ?_
    refine Attempt.keeps_bind (keeps_nameScope name s) fun _ => ?_
    exact Attempt.keeps_bind (hE _) fun _ => Attempt.keeps_pure _
  | _ => exact respects_perform hE rfl

theorem upkeep_engine (fuel : Nat) : (Callback.engine fuel).Respects (Upkeep (α := α)) :=
  Callback.respects_engine (fun _ hE => upkeep_perform hE) fuel

theorem disciplined_after (hE : E.Respects Upkeep) (script : Script α) (h : b.Disciplined) :
    (after E script b).Disciplined := by
  have hkept : Upkeep b (after E script b) :=
    keeps_foldl (fun b c => upkeep_perform hE c b) b script
  exact (hkept h).disciplined

/-- What holds of the stack of open scopes under an engine. -/
structure StackDiscipline (E : Engine α (Callback α)) : Prop where
  /-- At all times the stack lists scopes in the order they began, and all whose guards are at
  hand. -/
  always (script : Script α) : (after E script fresh).Disciplined
  /-- A scope whose guard is being used stays on the stack, and one whose guard has been used up
  stays off it, whatever is done by a command, -/
  command {b : Bench α (Callback α)} (c : Command α) (h : b.Disciplined) :
    Upholds [] [] b (perform E c b).2
  /-- by a callback, wherever it is called, -/
  callback {b : Bench α (Callback α)} (f : Callback α) (h : b.Disciplined) :
    Upholds [] [] b (E.call f b).2
  /-- or by all that runs while a scope is ending. A scope that takes no more assertions then
  changes no more, save that ending it takes it through its last phases. -/
  ending {b : Bench α (Callback α)} {s : ScopeRef} (h : b.Disciplined) (hs : s ∈ b.stack)
    (hg : s ∉ b.guarded) : Upholds [] [s] b (E.settle s b).2
  /-- The current scope is the last of those that are open. -/
  current {b : Bench α (Callback α)} {s : ScopeRef} (h : b.Disciplined) :
    (Task.scope none : Task α ScopeRef) b = (.done (.ok s), b) ↔
      s ∈ b.stack ∧ ∀ t ∈ b.stack, t.index ≤ s.index
  /-- A scope that begins is put on the stack, with a guard at hand. -/
  begins (b : Bench α (Callback α)) (name : String) (options : ScopeOptions) :
    ∃ b', perform E (.beginScope name options) b =
        (.done (.ok (.text b.scopes.next.scopeId.text)), b') ∧
      b'.stack = b.scopes.next :: b.stack ∧ b'.names.guards.lookup name = some b.scopes.next
  /-- Using a guard takes its scope off the stack, however it ends. -/
  ends {b : Bench α (Callback α)} {name : String} {s : ScopeRef} (h : b.Disciplined)
    (hname : b.names.guards.lookup name = some s) {c : Command α}
    (hc : c = .endScope name ∨ c = .dropScope name ∨ ∃ message, c = .panicHolding name message) :
    s ∉ (perform E c b).2.stack ∧ s ∉ (perform E c b).2.guarded
  /-- A scope that is not the innermost one cannot be ended, and is given up. -/
  unbalanced {b : Bench α (Callback α)} {name : String} {s t : ScopeRef} {rest : List ScopeRef}
    (hname : b.names.guards.lookup name = some s) (hstack : b.stack = t :: rest) (hne : t ≠ s) :
    ∃ b', GivenUp s (b.withoutGuard name) b' ∧
      perform E (.endScope name) b = (.done (.error (.unbalancedScope s.scopeId t.scopeId)), b') ∧
      perform E (.dropScope name) b =
        (.panicked (Error.unbalancedScope s.scopeId t.scopeId).message, b')
  /-- A scope whose guard is dropped by a panic is given up. -/
  unwinding {b : Bench α (Callback α)} {name : String} {s : ScopeRef} (message : String)
    (hname : b.names.guards.lookup name = some s) :
    ∃ b', GivenUp s (b.withoutGuard name) b' ∧
      perform E (.panicHolding name message) b = (.panicked message, b')
  /-- Ending a scope answers that no scope is active only when that is what the first of its
  assertions to fail says. -/
  answer {b : Bench α (Callback α)} {name : String} {s : ScopeRef} (h : b.Disciplined)
    (hname : b.names.guards.lookup name = some s)
    (hout : (perform E (.endScope name) b).1 = .done (.error .noActiveScope)) :
    ∃ os b', E.judge s (b.withoutGuard name) = (.done os, b') ∧ verdict os = .error .noActiveScope

theorem perform_begins (b : Bench α (Callback α)) (name : String) (options : ScopeOptions) :
    ∃ b', perform E (.beginScope name options) b =
        (.done (.ok (.text b.scopes.next.scopeId.text)), b') ∧
      b'.stack = b.scopes.next :: b.stack ∧ b'.names.guards.lookup name = some b.scopes.next := by
  obtain ⟨b', hrun, hstack, -, hguards⟩ := perform_beginScope (E := E) b name options
  exact ⟨b', hrun, hstack, by simp [hguards, bindName]⟩

theorem perform_unbalanced {rest : List ScopeRef} (hname : b.names.guards.lookup name = some s)
    (hstack : b.stack = t :: rest) (hne : t ≠ s) :
    ∃ b', GivenUp s (b.withoutGuard name) b' ∧
      perform E (.endScope name) b = (.done (.error (.unbalancedScope s.scopeId t.scopeId)), b') ∧
      perform E (.dropScope name) b =
        (.panicked (Error.unbalancedScope s.scopeId t.scopeId).message, b') := by
  have hend := Engine.endScope_other (E := E) (b := b.withoutGuard name) hstack hne
  have hdrop := Engine.dropScope_other (E := E) (b := b.withoutGuard name) hstack hne
  refine ⟨_, givenUp_abandon (b.withoutGuard name) s .abandonedOutOfOrder, ?_, ?_⟩
  · rw [perform, Attempt.bind_ok (takeGuard_eq hname), Attempt.bind_error hend]
  · rw [perform, Attempt.bind_ok (takeGuard_eq hname),
      Attempt.bind_panicked (Attempt.lift_panicked hdrop)]

theorem perform_panicHolding (message : String) (hname : b.names.guards.lookup name = some s) :
    ∃ b', GivenUp s (b.withoutGuard name) b' ∧
      perform E (.panicHolding name message) b = (.panicked message, b') := by
  refine ⟨_, givenUp_abandon (b.withoutGuard name) s .abandonedInPanic, ?_⟩
  rw [perform, Attempt.bind_ok (takeGuard_eq hname)]
  rfl

theorem gone_perform (hE : E.Respects Upkeep) (h : b.Disciplined)
    (hname : b.names.guards.lookup name = some s) {c : Command α}
    (hc : c = .endScope name ∨ c = .dropScope name ∨ ∃ message, c = .panicHolding name message) :
    s ∉ (perform E c b).2.stack ∧ s ∉ (perform E c b).2.guarded := by
  rcases hc with rfl | rfl | ⟨message, rfl⟩
  · refine gone_of_takeGuard hname h fun b h hs hg => ?_
    rw [Attempt.bind_pure_snd]
    exact Engine.upholds_endScope hE h hs hg
  · refine gone_of_takeGuard hname h fun b h hs hg => ?_
    rw [Attempt.bind_pure_snd, Attempt.lift_snd]
    exact Engine.upholds_dropScope hE h hs hg
  · refine gone_of_takeGuard hname h fun b h hs hg => ?_
    rw [Attempt.lift_snd]
    exact ⟨upholds_abandon h hg _, h.not_mem_abandon s _⟩

/-- That no scope is active can only be the verdict on the assertions of a scope. -/
theorem judged_noActiveScope (h : b.Disciplined) (hname : b.names.guards.lookup name = some s)
    (hout : (perform E (.endScope name) b).1 = .done (.error .noActiveScope)) :
    ∃ os b', E.judge s (b.withoutGuard name) = (.done os, b') ∧
      verdict os = .error .noActiveScope := by
  have hopen : s ∈ b.stack := h.held s (mem_guarded hname)
  obtain ⟨scope, hscope⟩ : ∃ scope, (b.withoutGuard name).scopes.get? s = some scope :=
    (h.begun s hopen).exists_row
  have hended : (E.endScope s (b.withoutGuard name)).1 = .done (.error .noActiveScope) := by
    rw [perform, Attempt.bind_ok (takeGuard_eq hname)] at hout
    rcases Attempt.bind_eq_done (Prod.ext hout rfl) with ⟨_, _, _, hpure⟩ | ⟨e, hfail, heq⟩
    · cases congrArg Prod.fst hpure
    · obtain rfl := Except.error.inj heq
      exact congrArg Prod.fst hfail
  cases hstack : b.stack with
  | nil => simp [hstack] at hopen
  | cons t rest =>
    by_cases hts : t = s
    · subst hts
      have hsettled := (Engine.endScope_eq_done (E := E) (b := b.withoutGuard name) hstack).mp
        hended
      obtain ⟨os, b', hjudge, hverdict⟩ := (Engine.settle_eq_done hscope).mp hsettled
      exact ⟨os, b', hjudge, hverdict.symm⟩
    · rw [Engine.endScope_other (b := b.withoutGuard name) hstack hts] at hended
      simp at hended

/-- The stack of open scopes is in order, and lists a scope from its beginning until its guard has
been used up, whatever is done by scripts nested to any depth. -/
theorem stackDiscipline (fuel : Nat) : StackDiscipline (Callback.engine (α := α) fuel) := by
  have hE := upkeep_engine (α := α) fuel
  exact {
    always := fun script => disciplined_after hE script disciplined_fresh
    command := fun c h => upkeep_perform hE c _ h
    callback := fun f h => hE f _ h
    ending := fun h hs hg => Engine.upholds_settle hE h (h.begun _ hs) hg
    current := scope_none_eq
    begins := perform_begins
    ends := fun h hname _ hc => gone_perform hE h hname hc
    unbalanced := perform_unbalanced
    unwinding := perform_panicHolding
    answer := judged_noActiveScope }

/-- An assertion that finds no scope active passes that on, although its own scope is. -/
theorem run_noActiveScope :
    ((run ([.beginScope "s" default,
        .registerAssertion (some "s") (.string "a") .zero [.fail .noActiveScope],
        .endScope "s"] : Script Int64)).map (·.outcome))[2]? =
      some (.done (.error .noActiveScope)) := rfl

end Scenario

end Marble
