import Marble.Proofs.Columns
import Marble.Proofs.Tally

/-! Side effects that ring a probe, and the expectation that it be rung. Both are read off one
diagram at one instant, so the probe notes just what is expected of it. -/
namespace Marble

open Bench Enrolment

section

variable {α ε φ : Type} {legend : Legend α ε φ} {frames : List PositionedFrame}
  {cell : Option (Cell α ε φ)} {cells : List (Nat × Cell α ε φ)} {text : String} {d : Diagram α ε φ}
  {x : PositionedFrame} {f : φ}

/-- A side effect comes from a frame that is marked, and from no other. -/
theorem PositionedFrame.resolve_effect (h : x.resolve legend = .ok cell) :
    (∃ key e, x.frame = .effect key ∧ legend.get? key = some (.effect e) ∧
      cell = some (.effect e)) ∨ x.frame.isEffect = false ∧ ∀ e, cell ≠ some (.effect e) := by
  rw [resolve] at h
  cases hframe : x.frame with
  | effect key =>
    rw [hframe] at h
    left
    rcases hget : legend.get? key with _ | ⟨v | e | e⟩ <;> simp only [hget] at h
    · cases h
    · exact absurd h mismatch_ne_ok
    · exact absurd h mismatch_ne_ok
    · exact ⟨key, e, rfl, hget, (Except.ok.inj h).symm⟩
  | emit key =>
    rw [hframe] at h
    refine Or.inr ⟨rfl, ?_⟩
    rcases hget : legend.get? key with _ | ⟨v | e | e⟩ <;> simp only [hget] at h
    · cases h
    · cases h
      simp
    · cases h
      simp
    · exact absurd h mismatch_ne_ok
  | error =>
    rw [hframe] at h
    refine Or.inr ⟨rfl, ?_⟩
    cases herror : legend.error? with
    | none => simp [herror] at h
    | some e =>
      simp only [herror] at h
      cases h
      simp
  | _ =>
    rw [hframe] at h
    cases h
    exact Or.inr ⟨rfl, by simp⟩

namespace Diagram

/-- The side effects among cells that all have one effect stand at the effect frames. -/
theorem effects_resolveAll (hcells : resolveAll legend frames = .ok cells)
    (hbound : ∀ x ∈ frames, ∀ key e, x.frame = .effect key → legend.get? key = some (.effect e) →
      e = f) (source : String) (unit : UnitOfTime) :
    (⟨source, legend, cells⟩ : Diagram α ε φ).sideEffects unit =
      (frames.filter (·.frame.isEffect)).map fun x => ⟨unit.frameStart x.position, f⟩ := by
  induction frames generalizing cells with
  | nil =>
    obtain rfl : [] = cells := Except.ok.inj hcells
    rfl
  | cons x rest ih =>
    obtain ⟨hx, hrest⟩ := List.forall_mem_cons.mp hbound
    obtain ⟨cell, later, hcell, hlater, rfl⟩ := resolveAll_cons_eq_ok.mp hcells
    have hlater' := ih hlater hrest
    simp only [sideEffects] at hlater' ⊢
    rw [List.filterMap_append, hlater']
    rcases PositionedFrame.resolve_effect hcell with ⟨key, e, hframe, hget, rfl⟩ | ⟨hframe, hcell⟩
    · obtain rfl := hx key e hframe hget
      simp [hframe, Frame.isEffect]
    · rcases cell with _ | n | e
      · simp [hframe]
      · simp [hframe]
      · exact absurd rfl (hcell e)

/-- A diagram whose effect frames all have one effect shows it at the times of these frames. -/
theorem sideEffects_ofText (hd : ofText text legend = .ok d)
    (hframes : Frame.tokenize text.toList = .ok frames)
    (hbound : ∀ x ∈ frames, ∀ key e, x.frame = .effect key → legend.get? key = some (.effect e) →
      e = f) (unit : UnitOfTime) :
    d.sideEffects unit =
      (frames.filter (·.frame.isEffect)).map fun x => ⟨unit.frameStart x.position, f⟩ := by
  obtain ⟨frames', hframes', cells, hcells, rfl⟩ := ofText_eq_ok.mp hd
  obtain rfl := Except.ok.inj (hframes.symm.trans hframes')
  exact effects_resolveAll hcells hbound text unit

/-- The side effects of a diagram come in the order of time. -/
theorem pairwise_sideEffects (hd : ofText text legend = .ok d) (unit : UnitOfTime) :
    (d.sideEffects unit).Pairwise fun x y => x.time ≤ y.time := by
  refine List.Pairwise.filterMap _ ?_ (pairwise_cells hd)
  rintro ⟨p, m | f⟩ ⟨q, n | g⟩ hpq x hx y hy <;> cases hx <;> cases hy
  exact unit.frameStart_mono hpq.le

end Diagram

end

variable {α σ : Type} {E : Engine α σ} {y : Tally} {s : ScopeRef} {other : Action α σ → Prop}
  {b b' b₀ : Bench α σ} {scope : Scope α σ} {row : Probe} {k : Clock (Action α σ)}
  {t limit target : VirtualTime} {options : ScopeOptions} {d : Diagram α SequenceError (Effect σ)}
  {ts : List VirtualTime} {scheduled : Bool} {index : Option Nat}

/-- Effects that are queued touch the clock and the scope only. -/
theorem Bench.extendAll_rest (b : Bench α σ) (s : ScopeRef) (c : ClockRef)
    (effects : List (Timed (Effect σ))) :
    (effects.foldl (fun b e => (b.modifyScope s (·.extend e.time)).schedule c e.time
        (.invoke e.value)) b).clocks = b.clocks.modify c (·.scheduleAll .invoke effects) ∧
      (effects.foldl (fun b e => (b.modifyScope s (·.extend e.time)).schedule c e.time
        (.invoke e.value)) b).probes = b.probes ∧
      (effects.foldl (fun b e => (b.modifyScope s (·.extend e.time)).schedule c e.time
        (.invoke e.value)) b).stack = b.stack := by
  induction effects generalizing b with
  | nil => exact ⟨(Table.modify_id _ _).symm, rfl, rfl⟩
  | cons e rest ih =>
    obtain ⟨hclocks, hprobes, hstack⟩ :=
      ih ((b.modifyScope s (·.extend e.time)).schedule c e.time (.invoke e.value))
    refine ⟨hclocks.trans ?_, hprobes, hstack⟩
    rw [schedule, Table.modify_modify]
    rfl

namespace Engine

/-! ### The two calls -/

/-- To schedule effects is to queue them on the clock of the scope. -/
theorem schedule_accepting (h : b.accepting s = .ok scope)
    (d : Diagram α SequenceError (Effect σ)) :
    ∃ b', E.enroll s (.effects d) b = (.done (.ok ()), b') ∧
      b'.scopes.get? s = some (scope.owing
        ((effectsFrom (b.now scope.clock) scope.options d).map (·.time)) []) ∧
      b'.clocks = b.clocks.modify scope.clock
        (·.scheduleAll .invoke (effectsFrom (b.now scope.clock) scope.options d)) ∧
      b'.probes = b.probes ∧ b'.stack = b.stack := by
  have hcheck : Attempt.check (·.accepting s) b = (.done (.ok scope), b) := by
    simp [Attempt.check, h]
  obtain ⟨hrow, -⟩ := accepting_eq_ok.mp h
  have hrun : E.enroll s (.effects d) b = (.done (.ok ()),
      (effectsFrom (b.now scope.clock) scope.options d).foldl
        (fun b e =>
          (b.modifyScope s (·.extend e.time)).schedule scope.clock e.time (.invoke e.value))
        (b.note (.report (.effectsScheduled s.scopeId
          (effectsFrom (b.now scope.clock) scope.options d).length)))) := by
    rw [enroll, scheduleEffects, Attempt.bind_ok hcheck, Attempt.read_bind, Attempt.note_bind]
    rfl
  obtain ⟨hclocks, hprobes, hstack⟩ := extendAll_rest (b.note (.report (.effectsScheduled s.scopeId
    (effectsFrom (b.now scope.clock) scope.options d).length))) s scope.clock
    (effectsFrom (b.now scope.clock) scope.options d)
  exact ⟨_, hrun, row_extendAll scope.clock _ hrow, hclocks, hprobes, hstack⟩

/-- To expect invocations leaves the clock and the probes alone. -/
theorem expect_accepting (h : b.accepting s = .ok scope) (p : ProbeRef)
    (d : Diagram α SequenceError (Effect σ)) :
    ∃ b', E.enroll s (.invocations p d) b = (.done (.ok ()), b') ∧
      b'.scopes.get? s = some (scope.owing
        [observedUntil (b.now scope.clock) scope.options d]
        [.effects p (effectsFrom (b.now scope.clock) scope.options d)]) ∧
      b'.clocks = b.clocks ∧ b'.probes = b.probes ∧ b'.stack = b.stack := by
  have hcheck : Attempt.check (·.accepting s) b = (.done (.ok scope), b) := by
    simp [Attempt.check, h]
  refine ⟨_, ?_, row_register h _ _, rfl, rfl, rfl⟩
  rw [enroll, expectEffects, Attempt.bind_ok hcheck, Attempt.read_bind]
  exact step_register h _ _

/-- Only a scope that accepts takes what is put down for its end. -/
theorem accepting_of_enroll {e : Enrolment α σ} (hs : b.scopes.get? s = some scope)
    (h : E.enroll s e b = (.done (.ok ()), b')) : b.accepting s = .ok scope := by
  refine accepting_eq_ok.mpr ⟨hs, ?_⟩
  by_contra hclosed
  have hrefused := refuses_of_row hs (by simpa using hclosed) E e
  cases h.symm.trans hrefused

end Engine

namespace Tally

/-! ### The story of a scope -/

/-- A scope on whose clock a probe reads that has never been rung. Whatever is queued there is other
work. -/
structure Poised (y : Tally) (s : ScopeRef) (other : Action α σ → Prop) (b : Bench α σ)
    (scope : Scope α σ) (k : Clock (Action α σ)) : Prop where
  fresh : b.probes.get? y.probe = some { clock := y.clock }
  queue : b.clocks.get? y.clock = some k
  ordered : k.Ordered
  company : ∀ p ∈ k.queue, other p.action
  row : b.scopes.get? s = some scope
  home : scope.clock = y.clock
  meets : ∀ a ∈ scope.pending, a.Meets other

/-- What happens to a scope from a bench on. Its clock is driven, and other things go on. When the
clock reads an instant, the effects of a diagram are scheduled and the invocations of the probe are
expected, each once and in either order. The story tells whether the effects have been scheduled,
and under which index the expectation stands. -/
inductive Story (E : Engine α σ) (y : Tally) (s : ScopeRef) (other : Action α σ → Prop)
    (t : VirtualTime) (d : Diagram α SequenceError (Effect σ)) (b₀ : Bench α σ) :
    Bool → Option Nat → Bench α σ → Prop
  | start : Story E y s other t d b₀ false none b₀
  | drive {scheduled : Bool} {index : Option Nat} {b : Bench α σ}
    (h : Story E y s other t d b₀ scheduled index b) (m : Drive) :
    Story E y s other t d b₀ scheduled index (E.drive y.clock m b).2
  | aside {scheduled : Bool} {index : Option Nat} {b b' : Bench α σ}
    (h : Story E y s other t d b₀ scheduled index b) (hb : Spared E y s other b b') :
    Story E y s other t d b₀ scheduled index b'
  | schedule {index : Option Nat} {b b' : Bench α σ} (h : Story E y s other t d b₀ false index b)
    (ht : b.now y.clock = t) (hrun : E.enroll s (.effects d) b = (.done (.ok ()), b')) :
    Story E y s other t d b₀ true index b'
  | expect {scheduled : Bool} {b b' : Bench α σ} {scope : Scope α σ}
    (h : Story E y s other t d b₀ scheduled none b) (ht : b.now y.clock = t)
    (hs : b.scopes.get? s = some scope)
    (hrun : E.enroll s (.invocations y.probe d) b = (.done (.ok ()), b')) :
    Story E y s other t d b₀ scheduled (some scope.pending.length) b'

/-- How things stand in a story: once the effects have been scheduled, what the probe has noted and
what is to come are the times of the effects; the clock of the scope is going to get there. -/
structure Stands (y : Tally) (s : ScopeRef) (other : Action α σ → Prop) (options : ScopeOptions)
    (expected : List (Timed (Effect σ))) (scheduled : Bool) (index : Option Nat) (b : Bench α σ)
    (row : Probe) (k : Clock (Action α σ)) (scope : Scope α σ) : Prop where
  company : y.InCompany other b row k
  scopeRow : b.scopes.get? s = some scope
  read : scope.options = options
  home : scope.clock = y.clock
  meets : ∀ a ∈ scope.pending, a.Meets other
  whole : row.invocations.toList ++ y.coming k.queue =
    if scheduled then expected.map (·.time) else []
  due : ∀ u ∈ y.coming k.queue, u ≤ scope.horizon
  expectation : ∀ i, index = some i → scope.pending[i]? = some (.effects y.probe expected)

variable {expected : List (Timed (Effect σ))}

theorem Poised.stands (hother : Considerate E y s other) (h : y.Poised s other b scope k)
    (expected : List (Timed (Effect σ))) :
    Stands y s other scope.options expected false none b { clock := y.clock } k scope where
  company := ⟨h.fresh, rfl, h.queue, h.ordered, fun p hp => Or.inr (h.company p hp)⟩
  scopeRow := h.row
  read := rfl
  home := h.home
  meets := h.meets
  whole := by
    simpa using coming_eq_nil fun p hp => (hother p.action (h.company p hp)).1
  due := by
    rw [coming_eq_nil fun p hp => (hother p.action (h.company p hp)).1]
    simp
  expectation := by simp

/-- What spares the probe leaves things as they stand. -/
theorem Stands.spared (h : Stands y s other options expected scheduled index b row k scope)
    (hb : Spared E y s other b b') :
    ∃ row' k' scope', Stands y s other options expected scheduled index b' row' k' scope' := by
  obtain ⟨row', k', hk', hleads⟩ := Turns.leads (hb row k h.company) h.company
  obtain ⟨scope', hs', hgrows⟩ := hleads.scope scope h.scopeRow
  exact ⟨row', k', scope', hk', hs', hgrows.options.trans h.read, hgrows.clock.trans h.home,
    hgrows.meets h.meets, hleads.whole.trans h.whole,
    fun u hu => (h.due u (hleads.suffix.subset hu)).trans hgrows.horizon,
    fun i hi => hgrows.getElem? (h.expectation i hi)⟩

/-- Effects that all ring the probe are to come at their times. -/
theorem coming_scheduleAll {tl : List (Timed (Effect σ))} (hk : k.Ordered)
    (hfree : y.coming k.queue = []) (hrings : ∀ e ∈ tl, e.value = .stamp y.probe)
    (hsorted : tl.Pairwise fun x y => x.time ≤ y.time) (hnow : ∀ e ∈ tl, k.now ≤ e.time) :
    y.coming (k.scheduleAll .invoke tl).queue = tl.map (·.time) := by
  have hring : ∀ x : Unit, y.ring? (.invoke (.stamp y.probe) : Action α σ) = some x := by
    simp [ring?, rings]
  -- the effects differ in their times only
  have hall : k.scheduleAll .invoke tl = k.scheduleAll
      (fun _ : Unit => (.invoke (.stamp y.probe) : Action α σ)) (tl.map fun e => ⟨e.time, ()⟩) := by
    rw [Clock.scheduleAll, Clock.scheduleAll, List.foldl_map]
    exact List.foldl_ext _ _ _ fun k e he => by rw [hrings e he]
  have hfree' : picked y.ring? k.queue = [] := List.map_eq_nil_iff.mp hfree
  have hsorted' : (tl.map fun e => (⟨e.time, ()⟩ : Timed Unit)).Pairwise
      fun x y => x.time ≤ y.time :=
    List.pairwise_map.mpr hsorted
  rw [hall, coming, Clock.picked_scheduleAll hk hring hfree' (by simpa using hnow),
    Timeline.sorted_of_pairwise hsorted', List.map_map]
  rfl

/-- Once the effects are scheduled, they are what is to come. -/
theorem Stands.schedule
    (h : Stands y s other options (effectsFrom t options d) false index b row k scope)
    (hrings : ∀ e ∈ d.sideEffects options.unit, e.value = .stamp y.probe)
    (hsorted : (d.sideEffects options.unit).Pairwise fun x y => x.time ≤ y.time)
    (ht : b.now y.clock = t) (hrun : E.enroll s (.effects d) b = (.done (.ok ()), b')) :
    ∃ k' scope',
      Stands y s other options (effectsFrom t options d) true index b' row k' scope' := by
  obtain ⟨b₁, hrun₁, hrow, hclocks, hprobes, -⟩ :=
    Engine.schedule_accepting (E := E) (Engine.accepting_of_enroll h.scopeRow hrun) d
  obtain rfl : b₁ = b' := congrArg Prod.snd (hrun₁.symm.trans hrun)
  rw [h.home, ht, h.read] at hrow hclocks
  have hnow : k.now = t := by rw [← ht, now, h.company.queue, Option.getD_some]
  obtain ⟨hnoted, hfree⟩ := List.append_eq_nil_iff.mp h.whole
  have hshifted : ∀ e ∈ effectsFrom t options d, e.value = .stamp y.probe ∧ t ≤ e.time := by
    intro e he
    obtain ⟨x, hx, rfl⟩ := List.mem_map.mp he
    exact ⟨hrings x hx, VirtualTime.le_add t x.time⟩
  have hcoming : y.coming (k.scheduleAll .invoke (effectsFrom t options d)).queue =
      (effectsFrom t options d).map (·.time) :=
    coming_scheduleAll h.company.ordered hfree (fun e he => (hshifted e he).1)
      (Timeline.pairwise_shift t hsorted) fun e he => hnow ▸ (hshifted e he).2
  refine ⟨k.scheduleAll .invoke (effectsFrom t options d), _,
    ⟨⟨hprobes ▸ h.company.probe, h.company.reads, ?_, h.company.ordered.scheduleAll, ?_⟩,
    hrow, h.read, h.home, ?_, ?_, ?_, ?_⟩⟩
  · rw [hclocks, Table.get?_modify, if_pos rfl, h.company.queue, Option.map_some]
  · intro p hp
    rcases Clock.mem_scheduleAll hp with hp | ⟨⟨e, he, haction⟩, -⟩
    · exact h.company.company p hp
    · left
      rw [haction, (hshifted e he).1]
      simp [rings]
  · simpa [Scope.owing] using h.meets
  · simp [hcoming, hnoted]
  · rw [hcoming]
    exact (VirtualTime.le_foldl_max _ _).2
  · simpa [Scope.owing] using h.expectation

/-- Once the invocations are expected, the expectation stands behind all others. -/
theorem Stands.expect
    (h : Stands y s other options (effectsFrom t options d) scheduled none b row k scope)
    (ht : b.now y.clock = t) (hrun : E.enroll s (.invocations y.probe d) b = (.done (.ok ()), b')) :
    ∃ scope', Stands y s other options (effectsFrom t options d) scheduled
      (some scope.pending.length) b' row k scope' := by
  obtain ⟨b₁, hrun₁, hrow, hclocks, hprobes, -⟩ :=
    Engine.expect_accepting (E := E) (Engine.accepting_of_enroll h.scopeRow hrun) y.probe d
  obtain rfl : b₁ = b' := congrArg Prod.snd (hrun₁.symm.trans hrun)
  rw [h.home, ht, h.read] at hrow
  refine ⟨_, h.company.congr hprobes hclocks, hrow, h.read, h.home, ?_, h.whole, ?_, ?_⟩
  · intro a ha
    rcases List.mem_append.mp ha with ha | ha
    · exact h.meets a ha
    · rw [List.mem_singleton.mp ha]
      trivial
  · exact fun u hu => (h.due u hu).trans (VirtualTime.le_foldl_max _ _).1
  · rintro i hi
    obtain rfl := Option.some.inj hi
    simp [Scope.owing]

theorem Story.stands (hother : Considerate E y s other) (hstart : y.Poised s other b₀ scope k)
    (hrings : ∀ e ∈ d.sideEffects scope.options.unit, e.value = .stamp y.probe)
    (hsorted : (d.sideEffects scope.options.unit).Pairwise fun x y => x.time ≤ y.time)
    (h : Story E y s other t d b₀ scheduled index b) :
    ∃ row' k' scope', Stands y s other scope.options (effectsFrom t scope.options d) scheduled
      index b row' k' scope' := by
  induction h with
  | start => exact ⟨_, _, _, hstart.stands hother _⟩
  | drive _ m ih =>
    obtain ⟨row', k', scope', hstands⟩ := ih
    exact hstands.spared (spared_drive hother m _)
  | aside _ hb ih =>
    obtain ⟨row', k', scope', hstands⟩ := ih
    exact hstands.spared hb
  | schedule _ ht hrun ih =>
    obtain ⟨row', k', scope', hstands⟩ := ih
    exact ⟨row', hstands.schedule hrings hsorted ht hrun⟩
  | expect _ ht hs hrun ih =>
    obtain ⟨row', k', scope', hstands⟩ := ih
    obtain rfl := Option.some.inj (hstands.scopeRow.symm.trans hs)
    exact ⟨row', k', hstands.expect ht hrun⟩

/-! ### The end of the scope -/

variable {rest : List ScopeRef} {answer : Except Error Unit} {i n : Nat} {b₁ : Bench α σ}
  {ran : List (Pending (Action α σ))}

theorem probes_relinquish (s : ScopeRef) (outcome : Outcome (Except Error Unit)) (b : Bench α σ) :
    (Engine.relinquish s outcome b).probes = b.probes := by
  rcases Engine.relinquish_cases s outcome b with he | he <;> rw [he]
  rfl

/-- A scope that ends after the whole story has not been disappointed by the probe, which has been
rung at the times of the effects. -/
theorem Stands.endScope [Shown α] (hother : Considerate E y s other)
    (h : Stands y s other options expected true (some i) b row k scope)
    (hstack : b.stack = s :: rest) (hrun : E.endScope s b = (.done answer, b')) :
    b'.invocations y.probe = expected.map (·.time) ∧
      ∃ os b₁, E.judge s b = (.done os, b₁) ∧ answer = verdict os ∧ os[i]? = some (.ok ()) := by
  obtain ⟨os, b₁, hjudge, rfl⟩ := (Engine.settle_eq_done h.scopeRow).mp
    ((Engine.endScope_eq_done hstack).mp (congrArg Prod.fst hrun))
  have hwhole : row.invocations.toList ++ y.coming k.queue = expected.map (·.time) := by
    rw [h.whole, if_pos rfl]
  obtain ⟨hover, hall⟩ :=
    judge_over hother h.company h.scopeRow h.home h.meets hwhole h.due hjudge
  have hend := Engine.endScope_of_settle hstack (Engine.settle_of_judge h.scopeRow hjudge)
  obtain rfl := congrArg Prod.snd (hend.symm.trans hrun)
  have hprobes := probes_relinquish s (.done (verdict os))
    ((Engine.concluded s os b₁).removeScope s)
  refine ⟨?_, os, b₁, hjudge, rfl, hall i expected (h.expectation i rfl) rfl⟩
  exact (hover.congr hprobes (Engine.clocks_ended os _)).invocations

/-! ### With nothing else going on -/

/-- A probe is rung by all that is queued on its clock, which is not more than a number of actions.
The scopes are what they were. -/
def Alone (y : Tally) (n : Nat) (b b' : Bench α σ) : Prop :=
  ∃ row k, y.InCompany (fun _ => False) b' row k ∧ k.queue.length ≤ n ∧ b'.scopes = b.scopes ∧
    b'.stack = b.stack

/-- Nothing else is rather considerate. -/
theorem considerate_nothing : Considerate E y s fun _ => False := fun _ ha => ha.elim

theorem Alone.turn (h : y.Alone n b b₁) {a : Action α σ} {b₂ : Bench α σ}
    (hn : b₁.next? y.clock limit = some (a, b₂)) :
    ∃ m, n = m + 1 ∧ E.perform a b₂ = (.done (), b₂.stamp y.probe) ∧
      y.Alone m b (b₂.stamp y.probe) := by
  obtain ⟨row, k, hk, hlength, hscopes, hstack⟩ := h
  obtain ⟨p, k', hnext, ha, -⟩ := Bench.next?_eq_some hk.queue hn
  obtain ⟨rest, hq, -⟩ := Clock.next?_eq_some hnext
  have hring : y.rings a := by
    rw [ha]
    exact (hk.company p (by simp [hq])).resolve_right id
  obtain ⟨p', rest', k'', hq', -, hqueue, hrun, hk'', hscopes', hstack'⟩ :=
    hk.ring (E := E) hn hring
  rw [hq', List.length_cons] at hlength
  refine ⟨n - 1, by omega, hrun, _, k'', hk'', by rw [hqueue]; omega, ?_, ?_⟩
  · exact hscopes'.trans hscopes
  · exact hstack'.trans hstack

theorem Alone.runs {b₂ : Bench α σ} (h : y.Alone n b b₁) (hruns : E.Runs y.clock limit b₁ ran b₂) :
    ∃ m, n = m + ran.length ∧ y.Alone m b b₂ := by
  induction hruns with
  | rest => exact ⟨n, rfl, h⟩
  | turn _ _ hnext hrun ih =>
    obtain ⟨m, rfl, hb₁⟩ := ih
    obtain ⟨m, rfl, hrun', hb₂⟩ := hb₁.turn (E := E) hnext
    obtain rfl := congrArg Prod.snd (hrun'.symm.trans hrun)
    exact ⟨m, by simp; omega, hb₂⟩

theorem Alone.eachTurn (h : y.Alone n b b₁) (hfuel : n < E.fuel) (limit : VirtualTime) :
    E.EachTurn (fun _ _ => True) y.clock limit E.fuel b₁ := by
  intro ran b₂ hruns
  obtain ⟨m, rfl, hb₂⟩ := h.runs hruns
  refine ⟨by omega, fun a b₃ hnext => ?_⟩
  obtain ⟨_, -, hrun, -⟩ := hb₂.turn (E := E) hnext
  exact ⟨_, hrun, trivial⟩

theorem Alone.advanceTo (h : y.Alone n b b₁) (hfuel : n < E.fuel) (target : VirtualTime) :
    ∃ b₂, E.advanceTo y.clock target b₁ = (.done (), b₂) ∧ y.Alone n b b₂ := by
  obtain ⟨ran, b₂, hruns, hnext, hdone⟩ := (h.eachTurn hfuel target).advanceTo
  obtain ⟨m, rfl, row, k, hk, hlength, hscopes, hstack⟩ := h.runs hruns
  exact ⟨_, hdone, row, _, hk.park hnext, hlength.trans (Nat.le_add_right _ _), hscopes, hstack⟩

/-- The clock can be driven in any way. -/
theorem Alone.drive (h : y.Alone n b b₁) (hfuel : n < E.fuel) (m : Drive) :
    ∃ b₂, E.drive y.clock m b₁ = (.done (), b₂) ∧ y.Alone n b b₂ := by
  cases m with
  | advanceTo target => exact h.advanceTo hfuel target
  | advanceBy delay => exact h.advanceTo hfuel (b₁.now y.clock + delay)
  | runUntilIdle =>
    obtain ⟨ran, b₂, hruns, hdone⟩ := (h.eachTurn hfuel .never).drain
    obtain ⟨m, rfl, row, k, hk, hlength, hscopes, hstack⟩ := h.runs hruns
    exact ⟨b₂, hdone, row, k, hk, hlength.trans (Nat.le_add_right _ _), hscopes, hstack⟩

/-- Each action in the queue is one of the times to come. -/
theorem Stands.alone
    (h : Stands y s (fun _ => False) options expected true index b row k scope) :
    y.Alone expected.length b b := by
  refine ⟨row, k, h.company, ?_, rfl, rfl⟩
  have hcoming : ∀ ps : List (Pending (Action α σ)), (∀ p ∈ ps, y.rings p.action ∨ False) →
      (y.coming ps).length = ps.length := by
    intro ps hps
    induction ps with
    | nil => rfl
    | cons p rest ih =>
      rw [coming_cons, if_pos ((hps p (by simp)).resolve_right id), List.length_cons,
        ih fun q hq => hps q (by simp [hq]), List.length_cons]
  have hlength := congrArg List.length h.whole
  rw [if_pos rfl, List.length_append, hcoming k.queue h.company.company, List.length_map] at hlength
  omega

/-- With the one assertion of the story, the scope ends well. -/
theorem Stands.endScope_alone [Shown α]
    (h : Stands y s (fun _ => False) options expected true (some 0) b row k scope)
    (hone : scope.pending.length = 1) (hfuel : expected.length < E.fuel)
    (hstack : b.stack = s :: rest) : ∃ b', E.endScope s b = (.done (.ok ()), b') := by
  obtain ⟨a, ha⟩ := List.length_eq_one_iff.mp hone
  obtain rfl : a = .effects y.probe expected := by simpa [ha] using h.expectation 0 rfl
  have hclosing : y.Alone expected.length (closing s scope.horizon b)
      (closing s scope.horizon b) := by
    obtain ⟨row, k, hk, hlength, -, -⟩ := h.alone
    exact ⟨row, k, hk.congr rfl rfl, hlength, rfl, rfl⟩
  obtain ⟨b₁, hadvance, -, -, -, -, hscopes, -⟩ := hclosing.advanceTo hfuel scope.horizon
  have hpending : ((b₁.scopes.get? s).map (·.pending)).getD [] = [.effects y.probe expected] := by
    simp [hscopes, closing, Bench.note, get?_modifyScope, h.scopeRow, ha]
  have hverify : E.verify s scope.options.grid (.effects y.probe expected)
      (b₁.modifyScope s fun scope => { scope with pending := [] }) =
        (.done (checkEffects scope.options.grid (b₁.invocations y.probe) expected), _) := rfl
  obtain ⟨b₂, houtcomes⟩ := Engine.outcomes_singleton hverify 0
  rw [← hpending] at houtcomes
  have hjudge := (Engine.judge_eq_done h.scopeRow).mpr ⟨b₁, h.home ▸ hadvance, houtcomes⟩
  have hend := Engine.endScope_of_settle hstack (Engine.settle_of_judge h.scopeRow hjudge)
  obtain ⟨-, os, b₃, hjudge', -, hok⟩ := h.endScope considerate_nothing hstack hend
  obtain rfl := Outcome.done.inj (congrArg Prod.fst (hjudge.symm.trans hjudge'))
  rw [Option.some.inj hok, verdict_singleton] at hend
  exact ⟨_, hend⟩

/-- A story goes on while the clock of a lonely probe is driven. -/
theorem Alone.drives (h : y.Alone n b b₁)
    (hstory : Story E y s other t d b₀ scheduled index b₁) (hfuel : n < E.fuel)
    (drives : List Drive) :
    ∃ b₂, Run.each (E.drive y.clock) drives b₁ = (.done (), b₂) ∧ y.Alone n b b₂ ∧
      Story E y s other t d b₀ scheduled index b₂ := by
  refine Run.each_done_of (P := fun b₂ => y.Alone n b b₂ ∧
    Story E y s other t d b₀ scheduled index b₂) ?_ ⟨h, hstory⟩
  rintro m - b₂ ⟨halone, hstory⟩
  obtain ⟨b₃, hdrive, halone₃⟩ := halone.drive (E := E) hfuel m
  have hstory₃ := hstory.drive m
  rw [hdrive] at hstory₃
  exact ⟨b₃, hdrive, halone₃, hstory₃⟩

/-- The two calls at one instant, in either order, make up a story. -/
theorem Poised.calls (h : y.Poised s other b scope k) (haccepting : scope.phase.isAccepting)
    (hpending : scope.pending = []) {first second : Enrolment α σ}
    (horder : first = .effects d ∧ second = .invocations y.probe d ∨
      first = .invocations y.probe d ∧ second = .effects d) :
    ∃ b₁ b₂ scope₂, E.enroll s first b = (.done (.ok ()), b₁) ∧
      E.enroll s second b₁ = (.done (.ok ()), b₂) ∧
      Story E y s other k.now d b true (some 0) b₂ ∧ b₂.scopes.get? s = some scope₂ ∧
      scope₂.pending.length = 1 ∧ b₂.stack = b.stack := by
  have hnow : b.now y.clock = k.now := by rw [now, h.queue, Option.getD_some]
  have hready : b.accepting s = .ok scope := accepting_eq_ok.mpr ⟨h.row, haccepting⟩
  have hstart : Story E y s other k.now d b false none b := .start
  rcases horder with ⟨rfl, rfl⟩ | ⟨rfl, rfl⟩
  · obtain ⟨b₁, hrun₁, hrow₁, hclocks₁, -, hstack₁⟩ := Engine.schedule_accepting (E := E) hready d
    have hnow₁ : b₁.now y.clock = k.now := by
      rw [now, hclocks₁, h.home, Table.get?_modify, if_pos rfl, h.queue, Option.map_some,
        Option.getD_some, Clock.now_scheduleAll]
    obtain ⟨b₂, hrun₂, hrow₂, -, -, hstack₂⟩ :=
      Engine.expect_accepting (E := E) (accepting_eq_ok.mpr ⟨hrow₁, haccepting⟩) y.probe d
    have hstory := (hstart.schedule hnow hrun₁).expect hnow₁ hrow₁ hrun₂
    simp only [Scope.owing, hpending, List.append_nil, List.length_nil] at hstory
    exact ⟨b₁, b₂, _, hrun₁, hrun₂, hstory, hrow₂, by simp [Scope.owing, hpending],
      hstack₂.trans hstack₁⟩
  · obtain ⟨b₁, hrun₁, hrow₁, hclocks₁, -, hstack₁⟩ :=
      Engine.expect_accepting (E := E) hready y.probe d
    have hnow₁ : b₁.now y.clock = k.now := by rw [now, hclocks₁, ← hnow, now]
    obtain ⟨b₂, hrun₂, hrow₂, -, -, hstack₂⟩ :=
      Engine.schedule_accepting (E := E) (accepting_eq_ok.mpr ⟨hrow₁, haccepting⟩) d
    have hstory := (hstart.expect hnow h.row hrun₁).schedule hnow₁ hrun₂
    rw [hpending, List.length_nil] at hstory
    exact ⟨b₁, b₂, _, hrun₁, hrun₂, hstory, hrow₂, by simp [Scope.owing, hpending],
      hstack₂.trans hstack₁⟩

end Tally

/-! ### The round trip -/

/-- The times of the effect frames among some frames that are read from an instant on. -/
def effectTimes (frames : List PositionedFrame) (unit : UnitOfTime) (t : VirtualTime) :
    List VirtualTime :=
  (frames.filter (·.frame.isEffect)).map fun x => t + unit.frameStart x.position

namespace Engine

/-- How a probe that was fresh is left by the effects of a diagram, when they are scheduled and
expected at one instant. -/
structure RoundTrip [Shown α] (E : Engine α σ) (y : Tally) (s : ScopeRef)
    (other : Action α σ → Prop)
    (d : Diagram α SequenceError (Effect σ)) (times : VirtualTime → List VirtualTime)
    (b : Bench α σ) (scope : Scope α σ) (k : Clock (Action α σ)) : Prop where
  /-- Whatever else goes on, and however the clock is driven before, between and after the two
  calls: when the scope has ended, the probe has noted each of the times once, and nothing else; and
  the check of the expectation has been passed. -/
  company : ∀ (t : VirtualTime) (i : Nat) b₁ b₂ rest answer,
    y.Story E s other t d b true (some i) b₁ → b₁.stack = s :: rest →
    E.endScope s b₁ = (.done answer, b₂) → b₂.invocations y.probe = times t ∧
      ∃ os b₃, E.judge s b₁ = (.done os, b₃) ∧ answer = verdict os ∧ os[i]? = some (.ok ())
  /-- With nothing else going on and fuel for the effects, both calls get done in either order, then
  the clock can be driven in any way, and the scope ends well. -/
  alone : k.queue = [] → scope.pending = [] → scope.phase.isAccepting →
    (times k.now).length < E.fuel → ∀ rest, b.stack = s :: rest →
    ∀ first second, (first = .effects d ∧ second = .invocations y.probe d ∨
      first = .invocations y.probe d ∧ second = .effects d) → ∀ drives : List Drive,
    ∃ b₁ b₂ b₃ b₄, E.enroll s first b = (.done (.ok ()), b₁) ∧
      E.enroll s second b₁ = (.done (.ok ()), b₂) ∧
      Run.each (E.drive y.clock) drives b₂ = (.done (), b₃) ∧
      E.endScope s b₃ = (.done (.ok ()), b₄) ∧ b₄.invocations y.probe = times k.now

/-- A diagram whose effect frames all ring one probe, whatever their keys, makes a round trip: who
schedules its effects and expects them at one instant is not disappointed, and the probe notes the
times of the effect frames in the order of the text. -/
theorem effects_round_trip [Shown α] {text : String} {legend : Legend α SequenceError (Effect σ)}
    {frames : List PositionedFrame} (hd : Diagram.ofText text legend = .ok d)
    (hframes : Frame.tokenize text.toList = .ok frames)
    (hbound : ∀ x ∈ frames, ∀ key e, x.frame = .effect key → legend.get? key = some (.effect e) →
      e = .stamp y.probe)
    (hother : y.Considerate E s other) (h : y.Poised s other b scope k) :
    E.RoundTrip y s other d (effectTimes frames scope.options.unit) b scope k := by
  have heffects := Diagram.sideEffects_ofText hd hframes hbound scope.options.unit
  have hrings : ∀ e ∈ d.sideEffects scope.options.unit, e.value = .stamp y.probe := by
    intro e he
    rw [heffects] at he
    obtain ⟨x, -, rfl⟩ := List.mem_map.mp he
    rfl
  have hsorted := Diagram.pairwise_sideEffects hd scope.options.unit
  have htimes : ∀ t, (effectsFrom t scope.options d).map (·.time) =
      effectTimes frames scope.options.unit t := by
    intro t
    simp [effectsFrom, effectTimes, Timeline.shift, heffects]
  constructor
  · intro t i b₁ b₂ rest answer hstory hstack hrun
    obtain ⟨row', k', scope', hstands⟩ := hstory.stands hother h hrings hsorted
    rw [← htimes]
    exact hstands.endScope hother hstack hrun
  · intro hqueue hpending haccepting hfuel rest hstack first second horder drives
    have hlonely : y.Poised s (fun _ => False) b scope k :=
      ⟨h.fresh, h.queue, h.ordered, by simp [hqueue], h.row, h.home, by simp [hpending]⟩
    obtain ⟨b₁, b₂, scope₂, hfirst, hsecond, hstory, hrow, hone, hstack₂⟩ :=
      hlonely.calls (E := E) haccepting hpending horder
    obtain ⟨row₂, k₂, scope₂', hstands₂⟩ :=
      hstory.stands Tally.considerate_nothing hlonely hrings hsorted
    have hlength : (effectsFrom k.now scope.options d).length < E.fuel := by
      rwa [← htimes, List.length_map] at hfuel
    obtain ⟨b₃, hdrives, ⟨-, -, -, -, hscopes₃, hstack₃⟩, hstory₃⟩ :=
      hstands₂.alone.drives hstory hlength drives
    obtain ⟨row₃, k₃, scope₃, hstands₃⟩ :=
      hstory₃.stands Tally.considerate_nothing hlonely hrings hsorted
    have hone₃ : scope₃.pending.length = 1 := by
      have hrow₃ := hstands₃.scopeRow
      rw [hscopes₃, hrow] at hrow₃
      obtain rfl := Option.some.inj hrow₃
      exact hone
    have hstack' : b₃.stack = s :: rest := (hstack₃.trans hstack₂).trans hstack
    obtain ⟨b₄, hend⟩ := hstands₃.endScope_alone hone₃ hlength hstack'
    obtain ⟨hnoted, -⟩ := hstands₃.endScope Tally.considerate_nothing hstack' hend
    exact ⟨b₁, b₂, b₃, b₄, hfirst, hsecond, hdrives, hend, hnoted.trans (htimes k.now)⟩

/-- Two keys that ring one probe. -/
def twoKeys : Legend Int64 SequenceError (Effect (Callback Int64)) :=
  ⟨[(⟨'a'⟩, .effect (.stamp ⟨0⟩)), (⟨'b'⟩, .effect (.stamp ⟨0⟩))], none⟩

/-- A scope whose clock reads 3 and a probe that reads this clock. -/
def unrung : Bench Int64 (Callback Int64) :=
  ((Scenario.fresh.beginScope default).2.addProbe ⟨1⟩).2.park ⟨1⟩ (.clamp 3)

theorem effects_round_trip_twoKeys :
    ∃ d frames, Diagram.ofText "-a!b!|A!" twoKeys = .ok d ∧
      Frame.tokenize "-a!b!|A!".toList = .ok frames ∧
      effectTimes frames default (.clamp 3) = [.clamp 13, .clamp 23, .clamp 43] ∧
      (Callback.engine 9).RoundTrip ⟨⟨0⟩, ⟨1⟩⟩ ⟨0⟩ (fun a => ∃ j, a = .invoke (.call (.note j))) d
        (effectTimes frames default) unrung (Scope.begun ⟨1⟩ default) { now := .clamp 3 } := by
  have hother : Tally.Considerate (Callback.engine 9 : Engine Int64 (Callback Int64)) ⟨⟨0⟩, ⟨1⟩⟩ ⟨0⟩
      fun a => ∃ j, a = .invoke (.call (.note j)) := by
    rintro _ ⟨j, rfl⟩
    exact ⟨rfl, fun b => Tally.spared_note b (.effect j)⟩
  have hpoised : Tally.Poised ⟨⟨0⟩, ⟨1⟩⟩ ⟨0⟩ (fun a => ∃ j, a = .invoke (.call (.note j))) unrung
      (Scope.begun ⟨1⟩ default) { now := .clamp 3 } :=
    ⟨rfl, rfl, Clock.ordered_fresh.park rfl, by simp, rfl, rfl, by simp [Scope.begun]⟩
  have hframes : Frame.tokenize "-a!b!|A!".toList = .ok [⟨0, 0, .wait⟩, ⟨1, 1, .effect 'a'⟩,
      ⟨2, 3, .effect 'b'⟩, ⟨3, 5, .complete⟩, ⟨4, 6, .effect 'A'⟩] := rfl
  have hd : Diagram.ofText "-a!b!|A!" twoKeys =
      .ok ⟨"-a!b!|A!", twoKeys, [(1, .effect (.stamp ⟨0⟩)), (2, .effect (.stamp ⟨0⟩)),
        (3, .notify .completed), (4, .effect (.stamp ⟨0⟩))]⟩ := rfl
  refine ⟨_, _, hd, hframes, by decide, effects_round_trip hd hframes ?_ hother hpoised⟩
  intro x hx key e hframe hget
  simp only [List.mem_cons, List.not_mem_nil, or_false] at hx
  rcases hx with rfl | rfl | rfl | rfl | rfl <;> cases hframe <;> cases hget <;> rfl

end Engine

end Marble
