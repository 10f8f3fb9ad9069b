import Marble.Proofs.Company
import Marble.Proofs.Verdict

/-! The assertion of a watch is judged by what the recorder was to take in from the beginning. -/
namespace Marble

variable {α σ ρ : Type} {E : Engine α σ} {w : Watch} {s : ScopeRef} {other : Action α σ → Prop}
  {b b' : Bench α σ} {tl : List (Timed (Signal α))}

/-- An advance that comes to its end leaves nothing that is due. -/
theorem Engine.lt_of_advanceTo {c : ClockRef} {target : VirtualTime} {k : Clock (Action α σ)}
    (h : E.advanceTo c target b = (.done (), b')) (hk : b'.clocks.get? c = some k)
    (hord : k.Ordered) : ∀ p ∈ k.queue, target < p.due := by
  obtain ⟨_, b₁, hdrain, hpark⟩ := Run.bind_eq_done h
  obtain rfl : b₁.park c target = b' := congrArg Prod.snd hpark
  cases hk₁ : b₁.clocks.get? c with
  | none => simp [Bench.park, Table.get?_modify, hk₁] at hk
  | some k₁ =>
    obtain rfl : k₁.park target = k := by simpa [Bench.park, Table.get?_modify, hk₁] using hk
    have hnext := Bench.next?_eq_none hk₁ (Engine.next?_of_drainWith hdrain)
    exact hord.lt_of_next?_eq_none (Clock.next?_park hnext)

namespace Watch

/-- The recording has ended with these events. -/
def Over (w : Watch) (other : Action α σ → Prop) (tl : List (Timed (Signal α))) (b : Bench α σ) :
    Prop :=
  ∃ row k, w.InCompany other b row k ∧ row.state ≠ .listening ∧ row.messages.toList = tl

theorem Over.messages (h : w.Over other tl b) : b.messages w.recorder = tl := by
  obtain ⟨row, k, hk, -, hmessages⟩ := h
  rw [hk.messages, Recorder.outlook_nil, hmessages]

/-- What leaves the watch alone changes nothing about a recording that has ended. -/
theorem Over.run (h : w.Over other tl b) {m : Run α σ ρ} {r : ρ}
    (hm : Run.Keeps (Spared E w s other) m) (hrun : m b = (.done r, b')) : w.Over other tl b' := by
  obtain ⟨row, k, hk, hstate, hmessages⟩ := h
  have hspared := hm b
  rw [hrun] at hspared
  obtain ⟨row', k', hk', hleads⟩ := Turns.leads (hspared row k hk) hk
  have hstate' : row'.state ≠ .listening := fun hl => hstate (hleads.listening hl)
  have hout := hleads.outlook
  rw [Recorder.outlook_of_ne hstate, Recorder.outlook_of_ne hstate', hmessages] at hout
  exact ⟨row', k', hk', hstate', hout⟩

theorem spared_note (e : Entry α) : Run.Keeps (Spared E w s other) (Run.note e) :=
  Run.keeps_note fun _ => Aside.spared
    ⟨rfl, rfl, rfl, fun scope hs => ⟨scope, hs, .refl scope⟩⟩

theorem spared_reportFailure (index : Nat) (outcome : Except Error Unit) :
    Run.Keeps (Spared E w s other) (Engine.reportFailure s index outcome) :=
  Engine.keeps_reportFailure (fun b e => spared_note e b) s index outcome

section

variable [Shown α] {grid : TimeGrid}

theorem spared_verify (hother : Considerate E w s other) {a : Assertion α σ} (ha : a.Meets other) :
    Run.Keeps (Spared E w s other) (E.verify s grid a).result := by
  refine Engine.keeps_verify E (fun b _ _ => spared_note _ b) grid fun f hf b => ?_
  subst hf
  change Spared E w s other b (E.call f b).2
  rw [← Engine.fire_snd]
  exact (hother _ ha).2 b

/-- Among all outcomes, the one of a watch whose recording has ended is settled. -/
theorem outcomes_at (hother : Considerate E w s other) {pending : List (Assertion α σ)}
    {index i : Nat} {os : List (Except Error Unit)} {text : String}
    {expected : List (Timed (Signal α))} {compare : Compare α} (h : w.Over other tl b)
    (hmeets : ∀ a ∈ pending, a.Meets other)
    (hat : pending[i]? = some (.events w.recorder text expected compare))
    (hrun : E.outcomes s grid index pending b = (.done os, b')) :
    os[i]? = some (checkEvents compare grid tl expected) := by
  induction pending generalizing b index i os with
  | nil => simp at hat
  | cons a rest ih =>
    obtain ⟨o, b₁, hverify, hrun⟩ := Run.bind_eq_done hrun
    obtain ⟨_, b₂, hreport, hrun⟩ := Run.bind_eq_done hrun
    obtain ⟨later, b₃, hlater, hrun⟩ := Run.bind_eq_done hrun
    obtain ⟨rfl, rfl⟩ := Run.pure_eq_done hrun
    cases i with
    | zero =>
      obtain rfl : a = .events w.recorder text expected compare := by simpa using hat
      obtain ⟨b₄, hdone⟩ := Engine.verify_events_done E (s := s) grid w.recorder text
        expected compare b
      obtain rfl : checkEvents compare grid (b.messages w.recorder) expected = o :=
        Outcome.done.inj (congrArg Prod.fst (hdone.symm.trans hverify))
      simp [h.messages]
    | succ i =>
      have h₁ := h.run (spared_verify hother (hmeets a (by simp))) hverify
      have h₂ := h₁.run (spared_reportFailure (E := E) index o) hreport
      simpa using ih h₂ (fun a ha => hmeets a (by simp [ha])) (by simpa using hat) hlater

/-- When its scope is judged, the outcome of a watch is settled by what was to come. -/
theorem judge_at (hother : Considerate E w s other) {row : Recorder α} {k : Clock (Action α σ)}
    {scope : Scope α σ} {i : Nat} {os : List (Except Error Unit)} {text : String}
    {expected : List (Timed (Signal α))} {compare : Compare α} (hk : w.InCompany other b row k)
    (hs : b.scopes.get? s = some scope) (hclock : scope.clock = w.clock)
    (hmeets : ∀ a ∈ scope.pending, a.Meets other)
    (hat : scope.pending[i]? = some (.events w.recorder text expected compare))
    (hstop : row.state = .listening →
      ∃ p ∈ k.queue, w.stops p.action ∧ p.due ≤ scope.horizon)
    (hrun : E.judge s b = (.done os, b')) :
    os[i]? = some (checkEvents compare scope.options.grid (row.outlook (w.arrivals k.queue))
      expected) := by
  obtain ⟨b₁, hadvance, hrun⟩ := (Engine.judge_eq_done hs).mp hrun
  have hk₀ : w.InCompany other ((b.modifyScope s fun scope => { scope with phase := .ending }).note
      (.report (.advancing s.scopeId scope.horizon))) row k :=
    ⟨⟨hk.toIntact.congr rfl rfl, hk.queue, hk.ordered⟩, hk.company⟩
  have hspared := spared_drive hother (.advanceTo scope.horizon)
    ((b.modifyScope s fun scope => { scope with phase := .ending }).note
      (.report (.advancing s.scopeId scope.horizon)))
  rw [Engine.drive, ← hclock, hadvance] at hspared
  obtain ⟨row₁, k₁, hk₁, hleads⟩ := Turns.leads (hspared row k hk₀) hk₀
  obtain ⟨scope₁, hs₁, hgrows⟩ := hleads.scope { scope with phase := .ending } (by
    simp [Bench.note, Bench.get?_modifyScope, hs])
  have hstate : row₁.state ≠ .listening := by
    intro hl
    obtain ⟨p, hp, hstops, hdue⟩ := hstop (hleads.listening hl)
    have hlate := Engine.lt_of_advanceTo hadvance (by rw [hclock]; exact hk₁.queue) hk₁.ordered p
      (hleads.stop p hp hstops hl)
    exact not_lt.mpr hdue hlate
  have hout := hleads.outlook
  rw [Recorder.outlook_of_ne hstate] at hout
  have hover : w.Over other (row.outlook (w.arrivals k.queue))
      (b₁.modifyScope s fun scope => { scope with pending := [] }) :=
    ⟨row₁, k₁, ⟨⟨hk₁.toIntact.congr rfl rfl, hk₁.queue, hk₁.ordered⟩, hk₁.company⟩, hstate, hout⟩
  have hlist : ((b₁.scopes.get? s).map (·.pending)).getD [] = scope₁.pending := by
    simp [hs₁]
  rw [hlist] at hrun
  exact outcomes_at hother hover (hgrows.meets hmeets) (hgrows.getElem? hat) hrun

end

end Watch

end Marble
