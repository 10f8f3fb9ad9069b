import Marble.Element
import Marble.Proofs.Judgement
import Marble.Proofs.Registration
import Marble.Proofs.Writing
import Marble.Scenario.Answer

/-! Expecting a cold source: with its registration the outcome of the assertion is decided. -/
namespace Marble

variable {α σ : Type} {E : Engine α σ} {b b' : Bench α σ} {s : ScopeRef} {src : SourceRef}
  {scope : Scope α σ} {source : Source α} {k : Clock (Action α σ)} {stages : List (Stage α)}
  {d : Diagram α SequenceError (Effect σ)} {compare : Compare α}

namespace Engine

variable [Shown α]

/-- The outcome of an assertion is settled: after any turns that drive the clock or leave the watch
alone, it is this one among the outcomes by which the scope is judged when it ends. -/
def Settles (E : Engine α σ) (w : Watch) (s : ScopeRef) (other : Action α σ → Prop) (index : Nat)
    (outcome : Except Error Unit) (b : Bench α σ) : Prop :=
  ∀ turns : List (Run α σ Unit),
    (∀ m ∈ turns, (∃ d, m = E.drive w.clock d) ∨ Run.Keeps (Watch.Spared E w s other) m) →
    ∀ b₁ rest answer, Run.each id turns b = (.done (), b₁) → b₁.stack = s :: rest →
      (E.endScope s b₁).1 = .done answer →
      ∃ os b₂, E.judge s b₁ = (.done os, b₂) ∧ answer = verdict os ∧ os[index]? = some outcome

/-- However the clock is driven, the scope then ends with this outcome. -/
def EndsWith (E : Engine α σ) (c : ClockRef) (s : ScopeRef) (outcome : Except Error Unit)
    (b : Bench α σ) : Prop :=
  ∀ drives : List Drive, ∃ b₁, Run.each (E.drive c) drives b = (.done (), b₁) ∧
    (E.endScope s b₁).1 = .done outcome

/-- Registering an expectation succeeds and settles its outcome, among any other work that leaves it
alone. If there is no other work and no other assertion, the scope ends with that outcome. -/
def Decides (E : Engine α σ) (s : ScopeRef) (q : Sequence α)
    (d : Diagram α SequenceError (Effect σ)) (compare : Compare α) (b : Bench α σ)
    (scope : Scope α σ) (k : Clock (Action α σ)) (length : Nat)
    (outcome : Except Error Unit) : Prop :=
  ∃ b₂, E.expect s q d compare b = (.done (.ok ()), b₂) ∧
    (∀ other, Watch.Considerate E (watchOf b scope.clock) s other →
      (∀ p ∈ k.queue, other p.action) → (∀ a ∈ scope.pending, a.Meets other) →
      E.Settles (watchOf b scope.clock) s other scope.pending.length outcome b₂) ∧
    (k.queue = [] → scope.pending = [] → b.stack.head? = some s → length + 1 < E.fuel →
      E.EndsWith scope.clock s outcome b₂)

end Engine

namespace Watch

variable [Shown α] {w : Watch} {other : Action α σ → Prop} {row : Recorder α}
  {text : String} {expected : List (Timed (Signal α))}

/-- A watch whose recording ends in time is judged by its outlook. -/
theorem settles (hother : Considerate E w s other) (hk : w.InCompany other b row k)
    (hs : b.scopes.get? s = some scope) (hclock : scope.clock = w.clock)
    (hmeets : ∀ a ∈ scope.pending, a.Meets other) {i : Nat}
    (hat : scope.pending[i]? = some (.events w.recorder text expected compare))
    {p : Pending (Action α σ)} (hp : p ∈ k.queue) (hstop : w.stops p.action)
    (hdue : p.due ≤ scope.horizon) :
    E.Settles w s other i (checkEvents compare scope.options.grid
      (row.outlook (w.arrivals k.queue)) expected) b := by
  intro turns hturns b₁ rest answer hrun hstack hend
  have hkeeps : Run.Keeps (Spared E w s other) (Run.each id turns) := by
    refine Run.keeps_each fun m hm => ?_
    rcases hturns m hm with ⟨d, rfl⟩ | h
    · exact spared_drive hother d
    · exact h
  have hspared := hkeeps b
  rw [hrun] at hspared
  obtain ⟨row₁, k₁, hk₁, hleads⟩ := Turns.leads (hspared row k hk) hk
  obtain ⟨scope₁, hs₁, hgrows⟩ := hleads.scope scope hs
  obtain ⟨os, b₂, hjudge, rfl⟩ :=
    (Engine.settle_eq_done hs₁).mp ((Engine.endScope_eq_done hstack).mp hend)
  refine ⟨os, b₂, hjudge, rfl, ?_⟩
  have houtcome := judge_at hother hk₁ hs₁ (hgrows.clock.trans hclock) (hgrows.meets hmeets)
    (hgrows.getElem? hat)
    (fun hl => ⟨p, hleads.stop p hp hstop hl, hstop, hdue.trans hgrows.horizon⟩) hjudge
  rw [houtcome, hleads.outlook, hgrows.options]

/-- The only assertion of a scope with its clock to itself is judged in any case. -/
theorem judge_solo (h : w.Solo E b) (hs : b.scopes.get? s = some scope)
    (hclock : scope.clock = w.clock)
    (hpending : scope.pending = [.events w.recorder text expected compare]) :
    ∃ outcome b', E.judge s b = (.done [outcome], b') := by
  have h₀ : w.Solo E ((b.modifyScope s fun scope => { scope with phase := .ending }).note
      (.report (.advancing s.scopeId scope.horizon))) := by
    obtain ⟨row, k, hk, hown, hfuel⟩ := h
    exact ⟨row, k, ⟨hk.toIntact.congr rfl rfl, hk.queue, hk.ordered⟩, hown, hfuel⟩
  obtain ⟨b₁, hadvance, -, hscopes, -⟩ := advanceTo_solo h₀ scope.horizon
  have hlist : ((b₁.scopes.get? s).map (·.pending)).getD [] =
      [.events w.recorder text expected compare] := by
    rw [hscopes]
    simp [Bench.note, Bench.get?_modifyScope, hs, hpending]
  obtain ⟨_, hverify⟩ := Engine.verify_events_done E (s := s) scope.options.grid w.recorder text
    expected compare (b₁.modifyScope s fun scope => { scope with pending := [] })
  obtain ⟨b₂, houtcomes⟩ := Engine.outcomes_singleton hverify 0
  rw [← hlist] at houtcomes
  rw [← hclock] at hadvance
  exact ⟨_, b₂, (Engine.judge_eq_done hs).mpr ⟨b₁, hadvance, houtcomes⟩⟩

end Watch

namespace Engine

variable [Shown α]

/-- Expecting a cold source behind silent stages. -/
theorem decides_cold (h : b.Ready s scope k src source)
    (hevents : source.events.Pairwise fun x y => x.time ≤ y.time)
    (stages : List (Stage α)) (hstages : ∀ stage ∈ stages, stage.isSilent)
    (d : Diagram α SequenceError (Effect σ)) (compare : Compare α) :
    E.Decides s ⟨.source src, stages⟩ d compare b scope k source.events.length
      (checkEvents compare scope.options.grid
        (Timeline.observed stages k.now (releaseAt d scope.options k.now) source.events)
        (expected d scope.options k.now)) := by
  obtain ⟨b₂, hrun, hint, hk₂, hs₂, hstack₂⟩ := expect_cold (E := E) h stages d compare
  have hlimit := le_releaseAt d scope.options k.now
  have hkept : (watchOf b scope.clock).Kept b₂ { clock := scope.clock } _ :=
    ⟨hint, hk₂, Watch.registered_ordered h.ordered⟩
  have hsettles : ∀ other, Watch.Considerate E (watchOf b scope.clock) s other →
      (∀ p ∈ k.queue, other p.action) → (∀ a ∈ scope.pending, a.Meets other) →
      E.Settles (watchOf b scope.clock) s other scope.pending.length (checkEvents compare
        scope.options.grid (Timeline.observed stages k.now (releaseAt d scope.options k.now)
          source.events) (expected d scope.options k.now)) b₂ := by
    intro other hother hqueue hmeets
    have hcompany : ∀ p ∈ ((watchOf b scope.clock).registered k stages source.events
        (releaseAt d scope.options k.now)).queue,
        (watchOf b scope.clock).Owns p.action ∨ other p.action :=
      fun p hp => (Watch.mem_registered hstages hp).imp_right (hqueue p)
    obtain ⟨p, hp, hstop, hdue⟩ := Watch.stop_mem_registered (w := watchOf b scope.clock) stages
      source.events hlimit
    have hsettled := Watch.settles hother ⟨hkept, hcompany⟩ hs₂ rfl
      (Scope.meets_take hmeets trivial) (List.getElem?_concat_length ..) hp hstop
      (hdue ▸ le_max_right _ _)
    rwa [Watch.outlook_registered h.ordered (fun p hp => (hother _ (hqueue p hp)).1) hevents hlimit]
      at hsettled
  refine ⟨b₂, hrun, hsettles, ?_⟩
  intro hqueue hpending hstack hfuel drives
  have hsolo : (watchOf b scope.clock).Solo E b₂ := by
    refine ⟨_, _, hkept, fun p hp => ?_, ?_⟩
    · rcases Watch.mem_registered hstages hp with hp | hp
      · exact hp
      · simp [hqueue] at hp
    · rwa [Watch.length_registered, hqueue, List.length_nil, Nat.zero_add]
  obtain ⟨b₁, hdrives, hsolo₁, hscopes₁, hstack₁⟩ := Watch.drives_solo hsolo drives
  obtain ⟨rest, hrest⟩ := List.head?_eq_some_iff.mp hstack
  rw [← hscopes₁] at hs₂
  have hstack' : b₁.stack = s :: rest := hstack₁.trans (hstack₂.trans hrest)
  obtain ⟨outcome, b₃, hjudge⟩ :=
    Watch.judge_solo hsolo₁ hs₂ rfl (by rw [Scope.take, hpending]; rfl)
  have hend : (E.endScope s b₁).1 = .done outcome := (endScope_eq_done hstack').mpr
    ((settle_eq_done hs₂).mpr ⟨[outcome], b₃, hjudge, (verdict_singleton outcome).symm⟩)
  obtain ⟨os, b₄, hos, -, hat⟩ := hsettles (fun _ => False) (fun _ h => h.elim)
    (fun p hp => by simp [hqueue] at hp) (by simp [hpending]) (drives.map (E.drive scope.clock))
    (fun m hm => by
      obtain ⟨d, -, rfl⟩ := List.mem_map.mp hm
      exact Or.inl ⟨d, rfl⟩)
    b₁ rest outcome (by rw [Run.each_map]; exact hdrives) hstack' hend
  obtain rfl : [outcome] = os := Outcome.done.inj (congrArg Prod.fst (hjudge.symm.trans hos))
  rw [hpending] at hat
  obtain rfl := Option.some.inj hat
  exact ⟨b₁, hdrives, hend⟩

/-- A cold source that replays one diagram is judged against another: what counts is its timeline
from the registration on, cut after the first terminal, as far as it comes by the end of the
recording. -/
theorem decides_drawn {text : String} {legend : Legend α SequenceError (Effect σ)}
    {drawn : Diagram α SequenceError (Effect σ)} (hdrawn : Diagram.ofText text legend = .ok drawn)
    (h : b.Ready s scope k src source)
    (hevents : source.events = drawn.notifications scope.options.unit)
    (d : Diagram α SequenceError (Effect σ)) (compare : Compare α) :
    E.Decides s ⟨.source src, []⟩ d compare b scope k
      (drawn.notifications scope.options.unit).length
      (checkEvents compare scope.options.grid
        ((Timeline.untilTerminal
          (Timeline.shift k.now (drawn.notifications scope.options.unit))).filter
          fun e => decide (e.time ≤ releaseAt d scope.options k.now))
        (expected d scope.options k.now)) := by
  have hdecides := decides_cold (E := E) h
    (hevents ▸ Diagram.pairwise_notifications hdrawn scope.options.unit) [] (by simp) d compare
  rwa [Timeline.observed, Timeline.through_nil, hevents] at hdecides

/-- What is due just when the recording ends still counts; what is due later does not. -/
theorem decides_drawn_boundary :
    (Callback.engine 5).Decides ⟨0⟩ ⟨.source ⟨0⟩, []⟩
      ⟨"a-a", ⟨[(⟨'a'⟩, .value 7)], none⟩, [(0, .notify (.next 7)), (2, .notify (.next 7))]⟩
      .structural
      ((({} : Bench Int64 (Callback Int64)).beginScope ⟨default, .exact, .zero⟩).2.addSource .cold
        ⟨0⟩ [⟨.clamp 0, .next 7⟩, ⟨.clamp 20, .next 7⟩, ⟨.clamp 30, .completed⟩]).2
      (Scope.begun ⟨0⟩ ⟨default, .exact, .zero⟩) {} 3 (.ok ()) :=
  decides_drawn (show Diagram.ofText "a-a|" ⟨[(⟨'a'⟩, .value (7 : Int64))], none⟩ = .ok ⟨_, _,
      [(0, .notify (.next 7)), (2, .notify (.next 7)), (3, .notify .completed)]⟩ from rfl)
    (Bench.ready_beginScope {} ⟨default, .exact, .zero⟩ _) rfl _ _

end Engine

end Marble
