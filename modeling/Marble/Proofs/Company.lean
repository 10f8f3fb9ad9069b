import Marble.Proofs.Subscribe
import Mathlib.Logic.Relation

/-! A watch in company: whatever else goes on and leaves it alone, what the recorder will take in is
settled from the beginning. -/
namespace Marble

variable {α σ ρ : Type} {E : Engine α σ} {w : Watch} {s : ScopeRef} {other : Action α σ → Prop}
  {b b' b'' : Bench α σ} {a : Action α σ} {limit target : VirtualTime}

/-- An assertion that calls the client counts as the action that would make the call. -/
def Assertion.Meets (other : Action α σ → Prop) : Assertion α σ → Prop
  | .check f => other (.invoke (.call f))
  | _ => True

/-- A scope may get more assertions and a later horizon. -/
structure Scope.Grows (other : Action α σ → Prop) (scope scope' : Scope α σ) : Prop where
  options : scope'.options = scope.options
  clock : scope'.clock = scope.clock
  horizon : scope.horizon ≤ scope'.horizon
  pending : ∃ more, scope'.pending = scope.pending ++ more ∧ ∀ a ∈ more, a.Meets other

theorem Scope.Grows.refl (scope : Scope α σ) : scope.Grows other scope :=
  ⟨rfl, rfl, le_refl _, [], by simp, by simp⟩

theorem Scope.Grows.trans {scope scope' scope'' : Scope α σ} (h : scope.Grows other scope')
    (h' : scope'.Grows other scope'') : scope.Grows other scope'' := by
  obtain ⟨more, hmore, hmeets⟩ := h.pending
  obtain ⟨more', hmore', hmeets'⟩ := h'.pending
  refine ⟨h'.options.trans h.options, h'.clock.trans h.clock, h.horizon.trans h'.horizon,
    more ++ more', by rw [hmore', hmore, List.append_assoc], ?_⟩
  intro a ha
  rcases List.mem_append.mp ha with ha | ha
  · exact hmeets a ha
  · exact hmeets' a ha

theorem Scope.Grows.meets {scope scope' : Scope α σ} (h : scope.Grows other scope')
    (hmeets : ∀ a ∈ scope.pending, a.Meets other) : ∀ a ∈ scope'.pending, a.Meets other := by
  obtain ⟨more, hpending, hmore⟩ := h.pending
  intro a ha
  rw [hpending] at ha
  rcases List.mem_append.mp ha with ha | ha
  · exact hmeets a ha
  · exact hmore a ha

theorem Scope.Grows.getElem? {scope scope' : Scope α σ} (h : scope.Grows other scope') {i : Nat}
    {a : Assertion α σ} (hat : scope.pending[i]? = some a) : scope'.pending[i]? = some a := by
  obtain ⟨more, hpending, -⟩ := h.pending
  rw [hpending, List.getElem?_append_left (List.getElem?_eq_some_iff.mp hat).1]
  exact hat

namespace Watch

/-- The actions that have to do with the recording. -/
def concerns (w : Watch) (a : Action α σ) : Bool := w.stops a || w.feeds a

/-- Everything that matters to a watch is as it was, and the scope it belongs to only grows. -/
structure Aside (w : Watch) (s : ScopeRef) (other : Action α σ → Prop)
    (b b' : Bench α σ) : Prop where
  clock : b'.clocks.get? w.clock = b.clocks.get? w.clock
  recorder : b'.recorders.get? w.recorder = b.recorders.get? w.recorder
  sub : b'.subscriptions.get? w.sub = b.subscriptions.get? w.sub
  scope : ∀ scope, b.scopes.get? s = some scope →
    ∃ scope', b'.scopes.get? s = some scope' ∧ scope.Grows other scope'

/-- One step among others: something aside, a call on the clock, or the start of an action. An
action of the watch does its work at once; another one has only started. -/
inductive Turn (E : Engine α σ) (w : Watch) (s : ScopeRef) (other : Action α σ → Prop) :
    Bench α σ → Bench α σ → Prop
  | aside {b b' : Bench α σ} (h : w.Aside s other b b') : Turn E w s other b b'
  | schedule (b : Bench α σ) (due : VirtualTime) {a : Action α σ} (ha : other a)
    (hc : w.concerns a = false) : Turn E w s other b (b.schedule w.clock due a)
  | own {b b' : Bench α σ} {a : Action α σ} {limit : VirtualTime}
    (hn : b.next? w.clock limit = some (a, b')) (ha : w.Owns a) :
    Turn E w s other b (E.perform a b').2
  | start {b b' : Bench α σ} {a : Action α σ} {limit : VirtualTime}
    (hn : b.next? w.clock limit = some (a, b')) (hc : w.concerns a = false) : Turn E w s other b b'
  | park {b : Bench α σ} {target : VirtualTime} (hn : b.next? w.clock target = none) :
    Turn E w s other b (b.park w.clock target)

/-- Any number of turns. -/
abbrev Turns (E : Engine α σ) (w : Watch) (s : ScopeRef) (other : Action α σ → Prop) :
    Bench α σ → Bench α σ → Prop := Relation.ReflTransGen (Turn E w s other)

variable {row row' row'' : Recorder α} {k k' k'' : Clock (Action α σ)}

/-- A watch that is kept, with nothing but other actions beside its own. -/
structure InCompany (w : Watch) (other : Action α σ → Prop) (b : Bench α σ) (row : Recorder α)
    (k : Clock (Action α σ)) : Prop extends w.Kept b row k where
  company : ∀ p ∈ k.queue, w.Owns p.action ∨ other p.action

/-- From one bench to a later one: the outlook stays, the end of the recording stays in the queue
until it comes, and the scope only grows. -/
structure Leads (w : Watch) (s : ScopeRef) (other : Action α σ → Prop) (b b' : Bench α σ)
    (row row' : Recorder α) (k k' : Clock (Action α σ)) : Prop where
  outlook : row'.outlook (w.arrivals k'.queue) = row.outlook (w.arrivals k.queue)
  listening : row'.state = .listening → row.state = .listening
  stop : ∀ p ∈ k.queue, w.stops p.action → row'.state = .listening → p ∈ k'.queue
  scope : ∀ scope, b.scopes.get? s = some scope →
    ∃ scope', b'.scopes.get? s = some scope' ∧ scope.Grows other scope'

theorem Leads.refl : Leads w s other b b row row k k :=
  ⟨rfl, id, fun _ hp _ _ => hp, fun scope hs => ⟨scope, hs, .refl scope⟩⟩

theorem Leads.trans (h : Leads w s other b b' row row' k k')
    (h' : Leads w s other b' b'' row' row'' k' k'') : Leads w s other b b'' row row'' k k'' where
  outlook := h'.outlook.trans h.outlook
  listening hl := h.listening (h'.listening hl)
  stop p hp hs hl := h'.stop p (h.stop p hp hs (h'.listening hl)) hs hl
  scope scope hs := by
    obtain ⟨scope', hs', hg⟩ := h.scope scope hs
    obtain ⟨scope'', hs'', hg'⟩ := h'.scope scope' hs'
    exact ⟨scope'', hs'', hg.trans hg'⟩

theorem arrivals_cons_of_not_concerns {p : Pending (Action α σ)} {ps : List (Pending (Action α σ))}
    (h : w.concerns p.action = false) : w.arrivals (p :: ps) = w.arrivals ps := by
  obtain ⟨hstop, hfeed⟩ := by simpa [concerns] using h
  simp [arrivals, hstop, arrival?_of_not_feeds hfeed]

theorem arrivals_enqueue_of_not_concerns {p : Pending (Action α σ)}
    {ps : List (Pending (Action α σ))} (hps : ps.Pairwise fun p q => p.due ≤ q.due)
    (h : w.concerns p.action = false) : w.arrivals (Clock.enqueue p ps) = w.arrivals ps := by
  obtain ⟨hstop, hfeed⟩ := by simpa [concerns] using h
  simp [arrivals_enqueue hps hstop, arrival?_of_not_feeds hfeed]

/-- A turn leads a watch in company from one bench to the next. -/
theorem Turn.leads (h : Turn E w s other b b') (hk : w.InCompany other b row k) :
    ∃ row' k', w.InCompany other b' row' k' ∧ Leads w s other b b' row row' k k' := by
  cases h with
  | aside h =>
    exact ⟨row, k, ⟨⟨hk.toIntact.congr h.recorder h.sub, h.clock.trans hk.queue, hk.ordered⟩,
      hk.company⟩, ⟨rfl, id, fun _ hp _ _ => hp, h.scope⟩⟩
  | schedule due ha hc =>
    rename_i a
    refine ⟨row, k.schedule due a, ⟨⟨hk.toIntact.congr rfl rfl, ?_, hk.ordered.schedule due a⟩, ?_⟩,
      ⟨?_, id, fun p hp _ _ => Clock.mem_enqueue.mpr (Or.inr hp), fun scope hs =>
        ⟨scope, hs, .refl scope⟩⟩⟩
    · simp [Bench.schedule, Table.get?_modify, hk.queue]
    · intro p hp
      rcases Clock.mem_enqueue.mp hp with rfl | hp
      · exact Or.inr ha
      · exact hk.company p hp
    · rw [Clock.schedule, arrivals_enqueue_of_not_concerns hk.ordered.pairwise_due hc]
  | own hn ha =>
    obtain ⟨p, b₂, row₂, k₂, hq, -, rfl, hrun, hkept, hscopes, -, hlisten, hout⟩ :=
      turn_own (E := E) hk.toKept hn ha
    rw [hrun]
    refine ⟨row₂, k₂, ⟨hkept, fun q hq' => hk.company q (by simp [hq, hq'])⟩,
      ⟨by rw [hout, hq], fun hl => (hlisten hl).1, ?_, ?_⟩⟩
    · intro q hq' hs hl
      rcases List.mem_cons.mp (hq ▸ hq') with rfl | hq'
      · simp [(hlisten hl).2] at hs
      · exact hq'
    · rw [hscopes]
      exact fun scope hs => ⟨scope, hs, .refl scope⟩
  | start hn hc =>
    obtain ⟨p, k', hnext, rfl, rfl⟩ := Bench.next?_eq_some hk.queue hn
    have hord := hk.ordered.next? hnext
    obtain ⟨rest, hq, -, rfl⟩ := Clock.next?_eq_some hnext
    refine ⟨row, _, ⟨⟨hk.toIntact.congr rfl rfl, ?_, hord⟩,
      fun q hq' => hk.company q (by simp_all)⟩,
      ⟨?_, id, ?_, fun scope hs => ⟨scope, hs, .refl scope⟩⟩⟩
    · simp [Bench.note, Table.get?_modify, hk.queue]
    · rw [hq, arrivals_cons_of_not_concerns hc]
    · intro q hq' hs _
      rcases List.mem_cons.mp (hq ▸ hq') with rfl | hq'
      · simp [concerns, hs] at hc
      · exact hq'
  | park hn =>
    refine ⟨row, k.park _, ⟨⟨hk.toIntact.congr rfl rfl, ?_,
      hk.ordered.park (Bench.next?_eq_none hk.queue hn)⟩, hk.company⟩,
      ⟨rfl, id, fun _ hp _ _ => hp, fun scope hs => ⟨scope, hs, .refl scope⟩⟩⟩
    simp [Bench.park, Table.get?_modify, hk.queue]

theorem Turns.leads (h : Turns E w s other b b') (hk : w.InCompany other b row k) :
    ∃ row' k', w.InCompany other b' row' k' ∧ Leads w s other b b' row row' k k' := by
  induction h with
  | refl => exact ⟨row, k, hk, .refl⟩
  | tail _ hturn ih =>
    obtain ⟨row', k', hk', hleads⟩ := ih
    obtain ⟨row'', k'', hk'', hleads'⟩ := hturn.leads hk'
    exact ⟨row'', k'', hk'', hleads.trans hleads'⟩

/-- A watch in company comes by turns from one bench to the other. -/
def Spared (E : Engine α σ) (w : Watch) (s : ScopeRef) (other : Action α σ → Prop)
    (b b' : Bench α σ) : Prop :=
  ∀ row k, w.InCompany other b row k → Turns E w s other b b'

instance : IsPreorder (Bench α σ) (Spared E w s other) where
  refl _ _ _ _ := .refl
  trans _ _ _ h h' row k hk := by
    obtain ⟨row', k', hk', -⟩ := Turns.leads (h row k hk) hk
    exact (h row k hk).trans (h' row' k' hk')

theorem Turn.spared (h : Turn E w s other b b') : Spared E w s other b b' := fun _ _ _ => .single h

theorem Aside.spared (h : w.Aside s other b b') : Spared E w s other b b' := (Turn.aside h).spared

/-- The other actions have nothing to do with the recording, neither themselves nor by what they do
when their time comes. -/
def Considerate (E : Engine α σ) (w : Watch) (s : ScopeRef) (other : Action α σ → Prop) : Prop :=
  ∀ a, other a → w.concerns a = false ∧ Run.Keeps (Spared E w s other) (E.perform a)

/-- However the clock is driven, the recording is left alone. -/
theorem spared_drive (hother : Considerate E w s other) (d : Drive) :
    Run.Keeps (Spared E w s other) (E.drive w.clock d) := by
  refine Engine.keeps_drive (fun b limit a b' hn row k hk => ?_)
    (fun _ _ hn => (Turn.park hn).spared) d
  obtain ⟨p, k', hnext, rfl, -⟩ := Bench.next?_eq_some hk.queue hn
  obtain ⟨rest, hq, -⟩ := Clock.next?_eq_some hnext
  rcases hk.company p (by simp [hq]) with hown | ha
  · exact .single (.own hn hown)
  · obtain ⟨hc, hperform⟩ := hother p.action ha
    have hstart : Turn E w s other b b' := .start hn hc
    obtain ⟨row', k', hk', -⟩ := hstart.leads hk
    exact .head hstart (hperform b' row' k' hk')

end Watch

end Marble
