import Marble.Proofs.Invocations
import Marble.Proofs.Judgement
import Marble.Proofs.Picking

/-! A probe that is rung by actions of its own clock. As long as nothing else rings it, what it has
noted and what is still queued for it make up one list, and that list stays what it was. -/
namespace Marble

open Bench

variable {α σ ρ : Type} {E : Engine α σ} {s : ScopeRef} {other : Action α σ → Prop}
  {b b' b'' : Bench α σ} {a : Action α σ} {limit target : VirtualTime} {p : Pending (Action α σ)}
  {ps : List (Pending (Action α σ))} {row row' row'' : Probe} {k k' k'' : Clock (Action α σ)}
  {ts : List VirtualTime}

/-- A probe and the clock it reads. -/
structure Tally where
  probe : ProbeRef
  clock : ClockRef

namespace Tally

variable {y : Tally}

/-- The actions that ring the probe. -/
def rings (y : Tally) : Action α σ → Bool
  | .invoke (.stamp p) => p == y.probe
  | _ => false

def ring? (y : Tally) (a : Action α σ) : Option Unit := if y.rings a then some () else none

/-- The times at which the probe is to be rung. -/
def coming (y : Tally) (ps : List (Pending (Action α σ))) : List VirtualTime :=
  (picked y.ring? ps).map (·.time)

@[simp] theorem coming_nil : y.coming ([] : List (Pending (Action α σ))) = [] := rfl

theorem coming_cons : y.coming (p :: ps) =
    if y.rings p.action then p.due :: y.coming ps else y.coming ps := by
  cases h : y.rings p.action with
  | true =>
    have hsome : y.ring? p.action = some () := by simp [ring?, h]
    simp [coming, picked_cons_some hsome]
  | false =>
    have hnone : y.ring? p.action = none := by simp [ring?, h]
    simp [coming, picked_cons_none hnone]

theorem coming_enqueue (h : y.rings p.action = false) :
    y.coming (Clock.enqueue p ps) = y.coming ps := by
  rw [coming, picked_enqueue_none (by simp [ring?, h]), coming]

theorem lt_of_mem_coming (h : ∀ q ∈ ps, limit < q.due) : ∀ t ∈ y.coming ps, limit < t := by
  intro t ht
  obtain ⟨e, he, rfl⟩ := List.mem_map.mp ht
  exact lt_of_mem_picked h e he

theorem coming_eq_nil (h : ∀ q ∈ ps, y.rings q.action = false) : y.coming ps = [] := by
  rw [coming, picked_eq_nil fun q hq => by simp [ring?, h q hq], List.map_nil]

theorem eq_stamp (h : y.rings a) : a = .invoke (.stamp y.probe) := by
  cases a with
  | invoke e =>
    cases e with
    | call f => cases h
    | stamp p =>
      obtain rfl : p = y.probe := by simpa [rings] using h
      rfl
  | _ => cases h

/-! ### The probe among other work -/

/-- The probe and its clock are as they were, and a scope at most grows. -/
structure Aside (y : Tally) (s : ScopeRef) (other : Action α σ → Prop)
    (b b' : Bench α σ) : Prop where
  clock : b'.clocks.get? y.clock = b.clocks.get? y.clock
  probe : b'.probes.get? y.probe = b.probes.get? y.probe
  scope : ∀ scope, b.scopes.get? s = some scope →
    ∃ scope', b'.scopes.get? s = some scope' ∧ scope.Grows other scope'

/-- One step in which nobody but the actions of its clock rings the probe: something aside, a call
on the clock, or the start of an action. An action that rings does so at once; another one has only
started. -/
inductive Turn (E : Engine α σ) (y : Tally) (s : ScopeRef) (other : Action α σ → Prop) :
    Bench α σ → Bench α σ → Prop
  | aside {b b' : Bench α σ} (h : y.Aside s other b b') : Turn E y s other b b'
  | schedule (b : Bench α σ) (due : VirtualTime) {a : Action α σ} (ha : other a)
    (hring : y.rings a = false) : Turn E y s other b (b.schedule y.clock due a)
  | ring {b b' : Bench α σ} {a : Action α σ} {limit : VirtualTime}
    (hn : b.next? y.clock limit = some (a, b')) (hring : y.rings a) :
    Turn E y s other b (E.perform a b').2
  | start {b b' : Bench α σ} {a : Action α σ} {limit : VirtualTime}
    (hn : b.next? y.clock limit = some (a, b')) (hring : y.rings a = false) : Turn E y s other b b'
  | park {b : Bench α σ} {target : VirtualTime} (hn : b.next? y.clock target = none) :
    Turn E y s other b (b.park y.clock target)

/-- Any number of turns. -/
abbrev Turns (E : Engine α σ) (y : Tally) (s : ScopeRef) (other : Action α σ → Prop) :
    Bench α σ → Bench α σ → Prop := Relation.ReflTransGen (Turn E y s other)

/-- The probe and its clock, with nothing but other actions beside those that ring. -/
structure InCompany (y : Tally) (other : Action α σ → Prop) (b : Bench α σ) (row : Probe)
    (k : Clock (Action α σ)) : Prop where
  probe : b.probes.get? y.probe = some row
  reads : row.clock = y.clock
  queue : b.clocks.get? y.clock = some k
  ordered : k.Ordered
  company : ∀ p ∈ k.queue, y.rings p.action ∨ other p.action

theorem InCompany.congr (h : y.InCompany other b row k) (hprobe : b'.probes = b.probes)
    (hclock : b'.clocks = b.clocks) : y.InCompany other b' row k :=
  ⟨by rw [hprobe, h.probe], h.reads, by rw [hclock, h.queue], h.ordered, h.company⟩

theorem InCompany.invocations (h : y.InCompany other b row k) :
    b.invocations y.probe = row.invocations.toList := by
  simp [Bench.invocations, h.probe]

/-- From one bench to a later one: what has been noted and what is still to come are one list, of
which ever more has been noted. -/
structure Leads (y : Tally) (s : ScopeRef) (other : Action α σ → Prop) (b b' : Bench α σ)
    (row row' : Probe) (k k' : Clock (Action α σ)) : Prop where
  whole : row'.invocations.toList ++ y.coming k'.queue = row.invocations.toList ++ y.coming k.queue
  noted : row.invocations.toList <+: row'.invocations.toList
  scope : ∀ scope, b.scopes.get? s = some scope →
    ∃ scope', b'.scopes.get? s = some scope' ∧ scope.Grows other scope'

theorem Leads.refl : Leads y s other b b row row k k :=
  ⟨rfl, List.prefix_refl _, fun scope hs => ⟨scope, hs, .refl scope⟩⟩

theorem Leads.trans (h : Leads y s other b b' row row' k k')
    (h' : Leads y s other b' b'' row' row'' k' k'') : Leads y s other b b'' row row'' k k'' where
  whole := h'.whole.trans h.whole
  noted := h.noted.trans h'.noted
  scope scope hs := by
    obtain ⟨scope', hs', hg⟩ := h.scope scope hs
    obtain ⟨scope'', hs'', hg'⟩ := h'.scope scope' hs'
    exact ⟨scope'', hs'', hg.trans hg'⟩

/-- What is still to come has been to come before. -/
theorem Leads.suffix (h : Leads y s other b b' row row' k k') :
    y.coming k'.queue <:+ y.coming k.queue := by
  obtain ⟨more, hmore⟩ := h.noted
  have hwhole := h.whole
  rw [← hmore, List.append_assoc] at hwhole
  exact ⟨more, List.append_cancel_left hwhole⟩

theorem InCompany.park (hk : y.InCompany other b row k) (hn : b.next? y.clock target = none) :
    y.InCompany other (b.park y.clock target) row (k.park target) := by
  refine ⟨hk.probe, hk.reads, ?_, hk.ordered.park (Bench.next?_eq_none hk.queue hn), hk.company⟩
  simp [Bench.park, Table.get?_modify, hk.queue]

/-- An action that rings gets done: the probe notes the time it was due. -/
theorem InCompany.ring (hk : y.InCompany other b row k) (hn : b.next? y.clock limit = some (a, b'))
    (hring : y.rings a) :
    ∃ p rest k', k.queue = p :: rest ∧ a = p.action ∧ k'.queue = rest ∧
      E.perform a b' = (.done (), b'.stamp y.probe) ∧
      y.InCompany other (b'.stamp y.probe)
        { row with invocations := row.invocations.push p.due } k' ∧
      b'.scopes = b.scopes ∧ b'.stack = b.stack := by
  obtain ⟨p, k', hnext, rfl, rfl⟩ := Bench.next?_eq_some hk.queue hn
  have hnow := hk.ordered.now_next? hnext
  have hord := hk.ordered.next? hnext
  obtain ⟨rest, hq, -, hk'⟩ := Clock.next?_eq_some hnext
  have hqueue : k'.queue = rest := by rw [hk']
  have hclocks : (b.clocks.modify y.clock fun _ => k').get? y.clock = some k' := by
    simp [Table.get?_modify, hk.queue]
  refine ⟨p, rest, k', hq, rfl, hqueue, by rw [eq_stamp hring]; rfl, ⟨?_, hk.reads, hclocks, hord,
    fun q hq' => hk.company q (by simp [hq, ← hqueue, hq'])⟩, rfl, rfl⟩
  -- the probe reads the clock on which the action has just started
  have hreads : (((b.clocks.modify y.clock fun _ => k').get? row.clock).getD {}).now = p.due := by
    rw [hk.reads, hclocks, Option.getD_some, hnow]
  change (b.probes.modify y.probe _).get? y.probe = _
  rw [Table.get?_modify, hk.probe, if_pos rfl, Option.map_some, ← hreads]
  rfl

/-- A turn leads from one bench to the next. -/
theorem Turn.leads (h : Turn E y s other b b') (hk : y.InCompany other b row k) :
    ∃ row' k', y.InCompany other b' row' k' ∧ Leads y s other b b' row row' k k' := by
  cases h with
  | aside h =>
    exact ⟨row, k, ⟨h.probe.trans hk.probe, hk.reads, h.clock.trans hk.queue, hk.ordered,
      hk.company⟩, ⟨rfl, List.prefix_refl _, h.scope⟩⟩
  | @schedule due a ha hring =>
    refine ⟨row, k.schedule due a, ⟨hk.probe, hk.reads, ?_, hk.ordered.schedule due a, ?_⟩,
      ⟨?_, List.prefix_refl _, fun scope hs => ⟨scope, hs, .refl scope⟩⟩⟩
    · simp [Bench.schedule, Table.get?_modify, hk.queue]
    · intro p hp
      rcases Clock.mem_enqueue.mp hp with rfl | hp
      · exact Or.inr ha
      · exact hk.company p hp
    · rw [Clock.schedule, coming_enqueue hring]
  | ring hn hring =>
    obtain ⟨p, rest, k', hq, rfl, hqueue, hrun, hk', hscopes, -⟩ := hk.ring (E := E) hn hring
    rw [hrun]
    refine ⟨_, k', hk', ⟨?_, ?_, ?_⟩⟩
    · rw [hqueue, hq, coming_cons, if_pos hring, Array.toList_push, List.append_assoc]
      rfl
    · rw [Array.toList_push]
      exact List.prefix_append _ _
    · intro scope hs
      exact ⟨scope, by rw [← hs, ← hscopes]; rfl, .refl scope⟩
  | start hn hring =>
    obtain ⟨p, k', hnext, rfl, rfl⟩ := Bench.next?_eq_some hk.queue hn
    have hord := hk.ordered.next? hnext
    obtain ⟨rest, hq, -, rfl⟩ := Clock.next?_eq_some hnext
    refine ⟨row, _, ⟨hk.probe, hk.reads, ?_, hord, fun q hq' => hk.company q (by simp_all)⟩,
      ⟨?_, List.prefix_refl _, fun scope hs => ⟨scope, hs, .refl scope⟩⟩⟩
    · simp [Bench.note, Table.get?_modify, hk.queue]
    · simp [hq, coming_cons, hring]
  | park hn =>
    exact ⟨row, k.park _, hk.park hn,
      ⟨rfl, List.prefix_refl _, fun scope hs => ⟨scope, hs, .refl scope⟩⟩⟩

theorem Turns.leads (h : Turns E y s other b b') (hk : y.InCompany other b row k) :
    ∃ row' k', y.InCompany other b' row' k' ∧ Leads y s other b b' row row' k k' := by
  induction h with
  | refl => exact ⟨row, k, hk, .refl⟩
  | tail _ hturn ih =>
    obtain ⟨row', k', hk', hleads⟩ := ih
    obtain ⟨row'', k'', hk'', hleads'⟩ := hturn.leads hk'
    exact ⟨row'', k'', hk'', hleads.trans hleads'⟩

/-- From one bench to the other, nobody but the actions of its clock rings the probe. -/
def Spared (E : Engine α σ) (y : Tally) (s : ScopeRef) (other : Action α σ → Prop)
    (b b' : Bench α σ) : Prop :=
  ∀ row k, y.InCompany other b row k → Turns E y s other b b'

instance : IsPreorder (Bench α σ) (Spared E y s other) where
  refl _ _ _ _ := .refl
  trans _ _ _ h h' row k hk := by
    obtain ⟨row', k', hk', -⟩ := Turns.leads (h row k hk) hk
    exact (h row k hk).trans (h' row' k' hk')

theorem Turn.spared (h : Turn E y s other b b') : Spared E y s other b b' := fun _ _ _ => .single h

/-- The other actions do not ring the probe, neither themselves nor by what they do when their time
comes. -/
def Considerate (E : Engine α σ) (y : Tally) (s : ScopeRef) (other : Action α σ → Prop) : Prop :=
  ∀ a, other a → y.rings a = false ∧ Run.Keeps (Spared E y s other) (E.perform a)

theorem spared_note (b : Bench α σ) (e : Entry α) : Spared E y s other b (b.note e) :=
  Turn.spared (.aside ⟨rfl, rfl, fun scope hs => ⟨scope, hs, .refl scope⟩⟩)

/-- However the clock is driven, nobody else rings the probe. -/
theorem spared_drive (hother : Considerate E y s other) (d : Drive) :
    Run.Keeps (Spared E y s other) (E.drive y.clock d) := by
  refine Engine.keeps_drive (fun b limit a b' hn row k hk => ?_)
    (fun _ _ hn => (Turn.park hn).spared) d
  obtain ⟨p, k', hnext, rfl, -⟩ := Bench.next?_eq_some hk.queue hn
  obtain ⟨rest, hq, -⟩ := Clock.next?_eq_some hnext
  cases hring : y.rings p.action with
  | true => exact .single (.ring hn hring)
  | false =>
    have hother' : other p.action := (hk.company p (by simp [hq])).resolve_left (by simp [hring])
    have hstart : Turn E y s other b b' := .start hn hring
    obtain ⟨row', k', hk', -⟩ := hstart.leads hk
    exact .head hstart ((hother p.action hother').2 b' row' k' hk')

/-! ### When everything has come -/

/-- The probe has noted all that was to come. -/
def Over (y : Tally) (other : Action α σ → Prop) (ts : List VirtualTime) (b : Bench α σ) : Prop :=
  ∃ row k, y.InCompany other b row k ∧ row.invocations.toList = ts ∧ y.coming k.queue = []

theorem Over.invocations (h : y.Over other ts b) : b.invocations y.probe = ts := by
  obtain ⟨row, k, hk, hnoted, -⟩ := h
  rw [hk.invocations, hnoted]

theorem Over.spared (h : y.Over other ts b) (hb : Spared E y s other b b') :
    y.Over other ts b' := by
  obtain ⟨row, k, hk, hnoted, hcoming⟩ := h
  obtain ⟨row', k', hk', hleads⟩ := Turns.leads (hb row k hk) hk
  have hcoming' : y.coming k'.queue = [] := List.suffix_nil.mp (hcoming ▸ hleads.suffix)
  have hwhole := hleads.whole
  rw [hcoming, hcoming', List.append_nil, List.append_nil, hnoted] at hwhole
  exact ⟨row', k', hk', hwhole, hcoming'⟩

variable {pending : List (Assertion α σ)} {scope : Scope α σ} {os : List (Except Error Unit)}

theorem Over.congr (h : y.Over other ts b) (hprobes : b'.probes = b.probes)
    (hclocks : b'.clocks = b.clocks) : y.Over other ts b' := by
  obtain ⟨row, k, hk, hover⟩ := h
  exact ⟨row, k, hk.congr hprobes hclocks, hover⟩

/-- When the clock has been driven past all that is to come, the probe has noted it all. -/
theorem over_of_advance (hother : Considerate E y s other) (hk : y.InCompany other b row k)
    (hs : b.scopes.get? s = some scope)
    (hwhole : row.invocations.toList ++ y.coming k.queue = ts)
    (hdue : ∀ t ∈ y.coming k.queue, t ≤ target)
    (hrun : E.advanceTo y.clock target b = (.done (), b')) :
    y.Over other ts b' ∧ ∃ scope', b'.scopes.get? s = some scope' ∧ scope.Grows other scope' := by
  have hspared := spared_drive hother (.advanceTo target) b
  change Spared E y s other b (E.advanceTo y.clock target b).2 at hspared
  rw [hrun] at hspared
  obtain ⟨row', k', hk', hleads⟩ := Turns.leads (hspared row k hk) hk
  have hlate := Engine.lt_of_advanceTo hrun hk'.queue hk'.ordered
  have hcoming : y.coming k'.queue = [] := by
    refine List.eq_nil_iff_forall_not_mem.mpr fun t ht => ?_
    exact not_lt.mpr (hdue t (hleads.suffix.subset ht)) (lt_of_mem_coming hlate t ht)
  have hnoted := hleads.whole
  rw [hcoming, List.append_nil, hwhole] at hnoted
  exact ⟨⟨row', k', hk', hnoted, hcoming⟩, hleads.scope scope hs⟩

variable [Shown α]

theorem spared_outcomes (hother : Considerate E y s other) (hmeets : ∀ a ∈ pending, a.Meets other)
    (grid : TimeGrid) (index : Nat) :
    Run.Keeps (Spared E y s other) (E.outcomes s grid index pending) := by
  refine Engine.keeps_outcomes E spared_note grid index fun f hf b => ?_
  change Spared E y s other b (E.call f b).2
  rw [← Engine.fire_snd]
  exact (hother _ (hmeets _ hf)).2 b

/-- An instant is always in its own cell. -/
theorem checkInstants_self (grid : TimeGrid) (index : Nat) (ts : List VirtualTime) :
    checkInstants grid index ts ts = .ok () := by
  induction ts generalizing index with
  | nil => rfl
  | cons t rest ih => simp [checkInstants, ih]

theorem checkEffects_self {φ : Type} (grid : TimeGrid) (expected : List (Timed φ)) :
    checkEffects grid (expected.map (·.time)) expected = .ok () := by
  simp [checkEffects, checkInstants_self]

/-- When a scope is judged whose horizon does not lie before anything that is to come, the probe
notes it all before the first check; and who expects just that is not disappointed. -/
theorem judge_over (hother : Considerate E y s other) (hk : y.InCompany other b row k)
    (hs : b.scopes.get? s = some scope) (hclock : scope.clock = y.clock)
    (hmeets : ∀ a ∈ scope.pending, a.Meets other)
    (hwhole : row.invocations.toList ++ y.coming k.queue = ts)
    (hdue : ∀ t ∈ y.coming k.queue, t ≤ scope.horizon) (hrun : E.judge s b = (.done os, b')) :
    y.Over other ts b' ∧ ∀ (i : Nat) (expected : List (Timed (Effect σ))),
      scope.pending[i]? = some (.effects y.probe expected) → expected.map (·.time) = ts →
        os[i]? = some (.ok ()) := by
  obtain ⟨b₁, hadvance, hrun⟩ := (Engine.judge_eq_done hs).mp hrun
  change E.advanceTo scope.clock scope.horizon (closing s scope.horizon b) = (.done (), b₁)
    at hadvance
  rw [hclock] at hadvance
  have hk₁ : y.InCompany other (closing s scope.horizon b) row k := hk.congr rfl rfl
  have hrow : (closing s scope.horizon b).scopes.get? s = some { scope with phase := .ending } := by
    simp [closing, Bench.note, Bench.get?_modifyScope, hs]
  obtain ⟨hover₁, scope₁, hs₁, hgrows⟩ := over_of_advance hother hk₁ hrow hwhole hdue hadvance
  have hmeets₁ := hgrows.meets hmeets
  have hover₂ : y.Over other ts (b₁.modifyScope s fun scope => { scope with pending := [] }) :=
    hover₁.congr rfl rfl
  rw [hs₁, Option.map_some, Option.getD_some] at hrun
  generalize b₁.modifyScope s (fun scope => { scope with pending := [] }) = b₂ at hover₂ hrun
  have hall := spared_outcomes (s := s) hother hmeets₁ scope.options.grid 0 b₂
  rw [hrun] at hall
  refine ⟨hover₂.spared hall, fun i expected hat hexpected => ?_⟩
  obtain ⟨earlier, b₃, o, b₄, hearlier, hverify, ho⟩ :=
    Engine.outcomes_getElem? (hgrows.getElem? hat) hrun
  have hmeets₂ : ∀ a ∈ scope₁.pending.take i, a.Meets other := fun a ha =>
    hmeets₁ a (List.mem_of_mem_take ha)
  have hbefore := spared_outcomes (s := s) hother hmeets₂ scope.options.grid 0 b₂
  rw [hearlier] at hbefore
  obtain rfl : checkEffects scope.options.grid (b₃.invocations y.probe) expected = o :=
    Outcome.done.inj (congrArg Prod.fst hverify)
  rw [ho, (hover₂.spared hbefore).invocations, ← hexpected, checkEffects_self]

end Tally

end Marble
