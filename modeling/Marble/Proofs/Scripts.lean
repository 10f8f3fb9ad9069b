import Marble.Proofs.Reachable
import Marble.Scenario.Answer

/-! Scripts of commands, nested to any depth: they keep to a relation of benches if every command
does. All they do to a bench comes about by changes of it. -/
namespace Marble

open Bench

variable {α : Type} {β γ : Type} {R : Bench α (Callback α) → Bench α (Callback α) → Prop}

/-- Whether a command begins a scope or ends one. -/
def Command.handlesGuard : Command α → Bool
  | .beginScope .. | .endScope .. | .dropScope .. | .panicHolding .. | .within .. => true
  | _ => false

section

variable [Bears R]

namespace Task

theorem keeps_find (what : Names α → Option β) : Attempt.Keeps R (find what) := by
  refine Attempt.keeps_bind (Attempt.keeps_read _) ?_
  rintro (_ | x)
  · exact Attempt.keeps_lift (Run.keeps_panic _)
  · exact Attempt.keeps_pure x

/-- Whoever looks up a name goes on with what goes by it. -/
theorem keeps_find_bind {what : Names α → Option β} {f : β → Task α γ}
    (h : ∀ b x, what b.names = some x → R b (f x b).2) : Attempt.Keeps R (find what >>= f) := by
  intro b
  change R b ((find what >>= f) b).2
  cases hx : what b.names with
  | none =>
    have hlost : find what b = (.panicked "nothing has this name", b) := by
      rw [find, Attempt.read_bind, hx]
      rfl
    rw [Attempt.bind_panicked hlost]
    exact refl_of R b
  | some x =>
    have hfound : find what b = (.done (.ok x), b) := by
      rw [find, Attempt.read_bind, hx]
      rfl
    rw [Attempt.bind_ok hfound]
    exact h b x hx

/-- Naming an object that is no subscription leaves the guards and the subscriptions where they
are. -/
theorem keeps_rename {f : Names α → Names α} (hf : ∀ names, (f names).guards = names.guards)
    (hs : ∀ names, (f names).subscriptions = names.subscriptions) : Attempt.Keeps R (rename f) :=
  Attempt.keeps_update fun b => Bears.aside (.rename b (hf b.names)) (fun _ => rfl) (fun _ => rfl)
    ⟨fun _ h => h, hs b.names⟩ (unheard_of_eq rfl rfl)

theorem keeps_scope (name : Option String) :
    Attempt.Keeps R (scope name : Task α ScopeRef) := by
  cases name with
  | none => exact Attempt.keeps_check _
  | some name => exact keeps_find _

theorem keeps_diagram (d : Drawing α (EffectScript α)) : Attempt.Keeps R (diagram d) := by
  refine Attempt.keeps_bind (keeps_find _) fun entries => ?_
  split
  · exact Attempt.keeps_fail _
  · exact Attempt.keeps_bind (Attempt.keeps_note fun b => Engine.allows_note b rfl rfl)
      fun _ => Attempt.keeps_pure _

theorem keeps_scopeRow (s : ScopeRef) :
    Attempt.Keeps R (scopeRow s : Task α (Scope α (Callback α))) := Attempt.keeps_check _

end Task

namespace Scenario

open Marble.Task

theorem keeps_nameScope (name : String) (s : ScopeRef) :
    Attempt.Keeps R (nameScope name s : Task α Unit) :=
  Attempt.keeps_bind (keeps_scopeRow s) fun _ => keeps_rename (fun _ => rfl) fun _ => rfl

theorem keeps_home (unit : UnitOfTime) (where_ : Home) :
    Attempt.Keeps R (home unit where_ : Task α (ClockRef × UnitOfTime)) := by
  cases where_ with
  | innermost =>
    exact Attempt.keeps_bind (keeps_scope _) fun s =>
      Attempt.keeps_bind (keeps_scopeRow s) fun _ => Attempt.keeps_pure _
  | scope name =>
    exact Attempt.keeps_bind (keeps_scope _) fun s =>
      Attempt.keeps_bind (keeps_scopeRow s) fun _ => Attempt.keeps_pure _
  | clock name => exact Attempt.keeps_bind (keeps_find _) fun _ => Attempt.keeps_pure _

theorem keeps_material (m : Material α (EffectScript α)) :
    Attempt.Keeps R (material m) := by
  cases m with
  | events clock items => exact Attempt.keeps_bind (keeps_find _) fun _ => Attempt.keeps_pure _
  | drawing where_ unit d =>
    exact Attempt.keeps_bind (keeps_diagram d) fun _ =>
      Attempt.keeps_bind (keeps_home unit where_) fun _ => Attempt.keeps_pure _

/-- Adds an object and names it. -/
theorem keeps_named {make : Bench α (Callback α) → β × Bench α (Callback α)}
    (h : ∀ b, R b (make b).2) {f : β → Names α → Names α}
    (hf : ∀ x names, (f x names).guards = names.guards)
    (hs : ∀ x names, (f x names).subscriptions = names.subscriptions) :
    Attempt.Keeps R (do
      let x ← Attempt.change make
      rename (f x)
      return .nothing : Task α (Reply α)) :=
  Attempt.keeps_bind (Attempt.keeps_change h) fun x =>
    Attempt.keeps_bind (keeps_rename (hf x) (hs x)) fun _ => Attempt.keeps_pure _

/-- A subscription that goes by a name is at large. -/
theorem atLarge_of_lookup {b : Bench α (Callback α)} {name : String} {s : SubscriptionRef}
    (h : b.names.subscriptions.lookup name = some s) : b.AtLarge s := by
  obtain ⟨before, after, hnames, _⟩ := List.lookup_eq_some_iff.mp h
  exact Or.inl ⟨name, by simp [hnames]⟩

/-- Whoever subscribes may give a name to what is got hold of. -/
theorem keeps_namedSubscription {E : Engine α (Callback α)} [E.Feeds R] (hE : E.Respects R)
    (q : Sequence α) (k : Sink) (name : String) :
    Attempt.Keeps R (do
      let s ← Attempt.lift (E.subscribe q k)
      rename fun names => { names with subscriptions := bindName name s names.subscriptions }
      return .nothing : Task α (Reply α)) := by
  refine Attempt.keeps_lift_bind (Engine.respects_subscribe hE q k) fun b s b' hsub => ?_
  obtain ⟨b₀, hbefore, hs, hafter, hmade⟩ := Engine.subscribe_atLarge hE hsub
  exact trans_of R hbefore (Bears.use hs hafter (.name b' name hmade))

variable [Shown α] {E : Engine α (Callback α)}

theorem respects_perform [E.Feeds R] [E.Drives R] (hE : E.Respects R) {c : Command α}
    (hc : c.handlesGuard = false) : Attempt.Keeps R (perform E c) := by
  have hdone : Attempt.Keeps R (return .nothing : Task α (Reply α)) := Attempt.keeps_pure _
  cases c with
  | clock name =>
    exact keeps_named (fun b =>
        Bears.aside (.addClock b) (clock_addClock b) (fun _ => rfl) (spares_of_eq rfl rfl)
          (unheard_of_eq rfl rfl))
      (fun _ _ => rfl) fun _ _ => rfl
  | scheduleAt clock due label script =>
    refine Attempt.keeps_bind (keeps_find _) fun c => ?_
    exact Attempt.keeps_bind (Attempt.keeps_update fun b =>
        Bears.mild (.schedule _ _ _ rfl rfl rfl) (unheard_of_eq rfl rfl))
      fun _ => hdone
  | scheduleAfter clock delay label script =>
    refine Attempt.keeps_bind (keeps_find _) fun c => ?_
    exact Attempt.keeps_bind (Attempt.keeps_update fun b =>
        Bears.scheduleAfter b c delay rfl rfl rfl)
      fun _ => hdone
  | advanceTo clock target =>
    refine Attempt.keeps_bind (keeps_find _) fun c => ?_
    exact Attempt.keeps_bind (Attempt.keeps_lift (Engine.respects_advanceTo hE c target))
      fun _ => hdone
  | advanceBy clock delay =>
    refine Attempt.keeps_bind (keeps_find _) fun c => ?_
    exact Attempt.keeps_bind (Attempt.keeps_lift (Engine.respects_advanceBy hE c delay))
      fun _ => hdone
  | runUntilIdle clock =>
    refine Attempt.keeps_bind (keeps_find _) fun c => ?_
    exact Attempt.keeps_bind (Attempt.keeps_lift (Engine.respects_runUntilIdle hE c)) fun _ => hdone
  | clockText clock =>
    refine Attempt.keeps_bind (keeps_find _) fun c => ?_
    exact Attempt.keeps_bind (Attempt.keeps_read _) fun _ => Attempt.keeps_pure _
  | source name temperature from_ =>
    refine Attempt.keeps_bind (keeps_material from_) fun cs => ?_
    exact keeps_named (fun b => Bears.mild (.addSource b temperature cs.1 cs.2)
      (unheard_addSource b temperature cs.1 cs.2)) (fun _ _ => rfl)
      fun _ _ => rfl
  | sourceInfo name =>
    refine Attempt.keeps_bind (keeps_find _) fun s => ?_
    refine Attempt.keeps_bind (Attempt.keeps_read _) ?_
    rintro (_ | row) <;> exact Attempt.keeps_pure _
  | sequence name recipe =>
    refine Attempt.keeps_bind (keeps_find _) fun q => ?_
    exact Attempt.keeps_bind (keeps_rename (fun _ => rfl) fun _ => rfl) fun _ =>
      Attempt.keeps_pure _
  | subscribe name recipe rules =>
    refine Attempt.keeps_bind (keeps_find _) fun q => ?_
    refine Attempt.keeps_bind (Attempt.keeps_change fun b =>
        Bears.aside (.addListener ..) (fun _ => rfl) (fun _ => rfl) (spares_of_eq rfl rfl)
          (unheard_of_eq rfl rfl))
      fun l => ?_
    exact keeps_namedSubscription hE q _ name
  | dispose name =>
    refine keeps_find_bind fun b s hs => ?_
    refine Attempt.leads_lift_bind ?_ fun _ _ h => h
    exact Engine.respects_dispose hE (atLarge_of_lookup hs) (refl_of R b)
  | subscription name =>
    refine Attempt.keeps_bind (keeps_find _) fun s => ?_
    refine Attempt.keeps_bind (Attempt.keeps_read _) ?_
    rintro (_ | row) <;> exact Attempt.keeps_pure _
  | teardown name script =>
    intro b
    have hmade : R b (b.addSubscription (.call (.script script))).2 :=
      Bears.aside (.addSubscription b rfl) (fun _ => rfl) (fun _ => rfl)
        (spares_addSubscription b _)
        (unheard_of_eq rfl rfl)
    refine Bears.use (Or.inr (Or.inr (Nat.le_refl _))) hmade (.name _ name ?_)
    simp [addSubscription, Table.next, Table.push]
  | recorder name clock recipe =>
    refine Attempt.keeps_bind (keeps_find _) fun c => ?_
    refine Attempt.keeps_bind (Engine.keeps_addRecorder c) fun r => ?_
    refine Attempt.keeps_bind (keeps_rename (fun _ => rfl) fun _ => rfl) fun _ => ?_
    cases recipe with
    | none => exact hdone
    | some recipe =>
      refine Attempt.keeps_bind (keeps_find _) fun q => ?_
      exact keeps_namedSubscription hE q _ name
  | notify name items =>
    refine Attempt.keeps_bind (keeps_find _) fun r => ?_
    refine Attempt.keeps_bind (Attempt.keeps_lift ?_) fun _ => hdone
    exact Run.keeps_each fun n _ => Run.keeps_update fun b => Bears.record b r n
  | detach name =>
    refine Attempt.keeps_bind (keeps_find _) fun r => ?_
    exact Attempt.keeps_bind (Engine.keeps_detach r) fun _ => hdone
  | messages name =>
    refine Attempt.keeps_bind (keeps_find _) fun r => ?_
    refine Attempt.keeps_bind (Attempt.keeps_read _) ?_
    rintro (_ | row) <;> exact Attempt.keeps_pure _
  | record recipe clock =>
    refine Attempt.keeps_bind (keeps_find _) fun q => ?_
    refine Attempt.keeps_bind (keeps_find _) fun c => ?_
    exact Attempt.keeps_bind (Attempt.keeps_lift (Engine.respects_record hE q c)) fun _ =>
      Attempt.keeps_pure _
  | start recipe clock options script =>
    refine Attempt.keeps_bind (keeps_find _) fun c => ?_
    exact Attempt.keeps_bind (Attempt.keeps_lift (Engine.respects_start hE c _ options)) fun _ =>
      Attempt.keeps_pure _
  | probe name where_ =>
    refine Attempt.keeps_bind (keeps_home _ where_) fun cu => ?_
    exact keeps_named (fun b =>
        Bears.aside (.addProbe b cu.1) (fun _ => rfl) (fun _ => rfl) (spares_of_eq rfl rfl)
          (unheard_of_eq rfl rfl))
      (fun _ _ => rfl) fun _ _ => rfl
  | callProbe name =>
    refine Attempt.keeps_bind (keeps_find _) fun p => ?_
    exact Attempt.keeps_bind (Attempt.keeps_update fun b =>
        Bears.aside (.stamp b p) (fun _ => rfl) (fun _ => rfl) (spares_of_eq rfl rfl)
          (unheard_of_eq rfl rfl))
      fun _ => hdone
  | scheduleProbe name clock due =>
    refine Attempt.keeps_bind (keeps_find _) fun p => ?_
    refine Attempt.keeps_bind (keeps_find _) fun c => ?_
    exact Attempt.keeps_bind (Attempt.keeps_update fun b =>
        Bears.mild (.schedule _ _ _ rfl rfl rfl) (unheard_of_eq rfl rfl))
      fun _ => hdone
  | invocations name =>
    refine Attempt.keeps_bind (keeps_find _) fun p => ?_
    exact Attempt.keeps_bind (Attempt.keeps_read _) fun _ => Attempt.keeps_pure _
  | beginScope name options => cases hc
  | endScope name => cases hc
  | dropScope name => cases hc
  | panicHolding name message => cases hc
  | panic message => exact Attempt.keeps_lift (Run.keeps_panic _)
  | guardText name =>
    exact Attempt.keeps_bind (keeps_find _) fun _ => Attempt.keeps_pure _
  | innermost name =>
    refine Attempt.keeps_bind (keeps_scope none) fun s => ?_
    cases name with
    | none => exact Attempt.keeps_bind (Attempt.keeps_pure ()) fun _ => Attempt.keeps_pure _
    | some name => exact Attempt.keeps_bind (keeps_nameScope name s) fun _ => Attempt.keeps_pure _
  | scopeInfo name =>
    refine Attempt.keeps_bind (keeps_scope _) fun s => ?_
    refine Attempt.keeps_bind (keeps_scopeRow s) fun row => ?_
    refine Attempt.keeps_bind (Attempt.keeps_read _) fun _ => ?_
    exact Attempt.keeps_bind (Attempt.keeps_read _) fun _ => Attempt.keeps_pure _
  | expect scope recipe d compare =>
    refine Attempt.keeps_bind (keeps_find _) fun q => ?_
    refine Attempt.keeps_bind (keeps_diagram d) fun diagram => ?_
    refine Attempt.keeps_bind (keeps_scope scope) fun s => ?_
    exact Attempt.keeps_bind (Engine.respects_expect hE s q diagram compare) fun _ => hdone
  | scheduleEffects scope d =>
    refine Attempt.keeps_bind (keeps_diagram d) fun diagram => ?_
    refine Attempt.keeps_bind (keeps_scope scope) fun s => ?_
    exact Attempt.keeps_bind (Engine.keeps_scheduleEffects s diagram) fun _ => hdone
  | expectEffects scope probe d =>
    refine Attempt.keeps_bind (keeps_find _) fun p => ?_
    refine Attempt.keeps_bind (keeps_diagram d) fun diagram => ?_
    refine Attempt.keeps_bind (keeps_scope scope) fun s => ?_
    exact Attempt.keeps_bind (Engine.keeps_expectEffects s p diagram) fun _ => hdone
  | registerAssertion scope label horizon script =>
    refine Attempt.keeps_bind (keeps_scope scope) fun s => ?_
    refine Attempt.keeps_bind (keeps_scopeRow s) fun row => ?_
    exact Attempt.keeps_bind (Engine.keeps_register s _ _) fun _ => hdone
  | within name options script value => cases hc
  | fail cause => exact Attempt.keeps_fail cause

theorem respects_runScript (h : ∀ c, Attempt.Keeps R (perform E c)) (script : Script α) :
    Attempt.Keeps R (runScript E script) := by
  induction script with
  | nil => exact Attempt.keeps_pure ()
  | cons c rest ih =>
    refine Attempt.keeps_bind (Attempt.keeps_lift (h c)) fun result => ?_
    refine Attempt.keeps_bind (Attempt.keeps_note fun b => Engine.allows_note b rfl rfl) fun _ => ?_
    exact Attempt.keeps_bind (Attempt.keeps_check _) fun _ => ih

end Scenario

namespace Callback

variable [Shown α] {E : Engine α (Callback α)}

/-- A callback notes that it starts, and then runs its script. -/
theorem respects_run (h : ∀ script, Attempt.Keeps R (Scenario.runScript E script))
    (f : Callback α) : Attempt.Keeps R (f.run E) := by
  have hnoted : ∀ (e : VirtualTime → Entry α) (c : ClockRef) (script : Script α),
      (∀ t, (e t).started? = none ∧ (e t).isHeard = false) → Attempt.Keeps R (do
        Attempt.note (e (← Attempt.read (·.now c)))
        Scenario.runScript E script : Task α Unit) := by
    intro e c script he
    refine Attempt.keeps_bind (Attempt.keeps_read _) fun t => ?_
    have hnote : Attempt.Keeps R (Attempt.note (σ := Callback α) (e t)) :=
      Attempt.keeps_note fun b => Engine.allows_note b (he t).1 (he t).2
    exact Attempt.keeps_bind hnote fun _ => h script
  cases f with
  | action c label script => exact hnoted (.ran label) c script fun _ => ⟨rfl, rfl⟩
  | assertion c label script => exact hnoted (.asserted label) c script fun _ => ⟨rfl, rfl⟩
  | script script => exact h script
  | note payload =>
    exact Attempt.keeps_note fun b => Engine.allows_note b rfl rfl
  | factory c script recipe => exact hnoted .built c script fun _ => ⟨rfl, rfl⟩

/-- Callbacks may lead to callbacks to any depth. -/
theorem respects_engine
    (h : ∀ fuel, (engine fuel).Respects R → ∀ c,
      Attempt.Keeps R (Scenario.perform (engine fuel) c))
    (fuel : Nat) : (engine fuel).Respects R := by
  induction fuel with
  | zero => exact fun _ => Run.keeps_exhaust
  | succ fuel ih => exact fun f => respects_run (Scenario.respects_runScript (h _ ih)) f

end Callback

end

namespace Scenario

variable [Excuses R]

theorem keeps_renameAll {f : Names α → Names α}
    (hs : ∀ names, (f names).subscriptions = names.subscriptions) :
    Attempt.Keeps R (Task.rename f) :=
  Attempt.keeps_update fun b =>
    Excuses.change (.rename b _) (fun _ => rfl) (fun _ => rfl) ⟨fun _ h => h, hs b.names⟩
      (unheard_of_eq rfl rfl)

theorem lawful_takeGuard (name : String) :
    Attempt.Keeps R (takeGuard name : Task α ScopeRef) :=
  Attempt.keeps_bind (Task.keeps_find _) fun s =>
    Attempt.keeps_bind (keeps_renameAll fun _ => rfl) fun _ => Attempt.keeps_pure s

variable [Shown α] {E : Engine α (Callback α)} [E.Feeds R] [E.Drives R]

theorem lawful_perform (hE : E.Respects R) (c : Command α) :
    Attempt.Keeps R (perform E c) := by
  have hdone : Attempt.Keeps R (return .nothing : Task α (Reply α)) := Attempt.keeps_pure _
  cases c with
  | beginScope name options =>
    refine Attempt.keeps_bind (Attempt.keeps_change fun b =>
        Bears.aside (.beginScope b options) (clock_addClock b) (fun _ => rfl) (spares_of_eq rfl rfl)
          (unheard_beginScope b options))
      fun s => ?_
    refine Attempt.keeps_bind (keeps_nameScope name s) fun _ => ?_
    exact Attempt.keeps_bind (keeps_renameAll fun _ => rfl) fun _ => Attempt.keeps_pure _
  | endScope name =>
    refine Attempt.keeps_bind (lawful_takeGuard name) fun s => ?_
    exact Attempt.keeps_bind (Engine.lawful_endScope hE s) fun _ => hdone
  | dropScope name =>
    refine Attempt.keeps_bind (lawful_takeGuard name) fun s => ?_
    exact Attempt.keeps_bind (Attempt.keeps_lift (Engine.lawful_dropScope hE s)) fun _ => hdone
  | panicHolding name message =>
    refine Attempt.keeps_bind (lawful_takeGuard name) fun s => ?_
    refine Attempt.keeps_lift (Run.keeps_onPanic (Run.keeps_panic _) fun b => ?_)
    exact Excuses.change (.abandon b s _ fun _ _ => rfl) (fun _ => rfl) (fun _ => rfl)
      (spares_of_eq rfl rfl) (unheard_abandon b s _)
  | within name options script value =>
    refine Engine.lawful_within hE options fun s => ?_
    refine Attempt.keeps_bind (keeps_nameScope name s) fun _ => ?_
    exact Attempt.keeps_bind (hE _) fun _ => Attempt.keeps_pure _
  | _ => exact respects_perform hE rfl

end Scenario

theorem Callback.permits_engine [Shown α] [Excuses R] [∀ fuel, (engine fuel).Feeds R]
    [∀ fuel, (engine fuel).Drives R] (fuel : Nat) : (engine fuel).Respects R :=
  respects_engine (fun _ hE => Scenario.lawful_perform hE) fuel

theorem Callback.lawful_engine [Shown α] (fuel : Nat) :
    (engine fuel : Engine α (Callback α)).Lawful := permits_engine fuel

end Marble
