import Marble.Proofs.Clockwork
import Marble.Proofs.Enrolment
import Marble.Proofs.StackDiscipline
import Mathlib.Data.List.Induction

/-! The end of a scope while nobody else drives its clock: first what is due by the horizon runs,
then every assertion is checked, and nothing more is taken in all the while. -/
namespace Marble

variable {α σ : Type} {E : Engine α σ} {b b' b₁ : Bench α σ} {s : ScopeRef} {scope : Scope α σ}
  {c : ClockRef} {limit : VirtualTime} {k : Clock (Action α σ)} {ran : List (Pending (Action α σ))}

namespace Bench

/-- A clock is still there, reads what it did, and has started no action. -/
def Undriven (c : ClockRef) (b b' : Bench α σ) : Prop :=
  (b'.clocks.get? c).map (fun k => (k.now, k.dispatched)) =
    (b.clocks.get? c).map fun k => (k.now, k.dispatched)

instance : IsPreorder (Bench α σ) (Undriven c) where
  refl _ := rfl
  trans _ _ _ h h' := Eq.trans h' h

theorem Undriven.exists_clock (h : Undriven c b b') (hk : b.clocks.get? c = some k) :
    ∃ k', b'.clocks.get? c = some k' ∧ k'.now = k.now ∧ k'.dispatched = k.dispatched := by
  rw [Undriven, hk] at h
  obtain ⟨k', hk', heq⟩ := Option.map_eq_some_iff.mp h
  obtain ⟨hnow, hdispatched⟩ := Prod.mk.inj heq
  exact ⟨k', hk', hnow, hdispatched⟩

/-- On a clock that is not driven, actions are queued at most. -/
theorem Undriven.trace (h : Undriven c b b') (hfollows : Follows b b')
    (hk : b.clocks.get? c = some k) :
    ∃ k' evs, b'.clocks.get? c = some k' ∧ k.Trace evs k' ∧
      evs.filterMap ClockEvent.started? = [] ∧ k'.now = k.now := by
  obtain ⟨k', hk', hnow, hdispatched⟩ := h.exists_clock hk
  obtain ⟨_, _, hclocks⟩ := hfollows
  obtain ⟨evs, htrace, -⟩ := hclocks c
  rw [clock, hk, clock, hk'] at htrace
  refine ⟨k', evs, hk', htrace, ?_, hnow⟩
  have hcount := htrace.dispatched
  simp only [Option.getD_some] at hcount
  exact List.eq_nil_of_length_eq_zero (by omega)

/-- A scope takes no more assertions, and its guard is out of reach. -/
structure Closed (s : ScopeRef) (scope : Scope α σ) (b : Bench α σ) : Prop where
  disciplined : b.Disciplined
  row : b.scopes.get? s = some scope
  closed : scope.phase.isAccepting = false
  unguarded : s ∉ b.guarded

/-- Nothing that client code does touches a closed scope. -/
theorem Closed.upkeep (h : Closed s scope b) (hb : Upkeep b b') : Closed s scope b' := by
  have hkept := hb h.disciplined
  exact ⟨hkept.disciplined, hkept.row s scope h.row h.closed h.unguarded (by simp), h.closed,
    hkept.guarded s (begun_of_row h.row) h.unguarded⟩

theorem closed_modifyScope (h : b.Disciplined) (hrow : b.scopes.get? s = some scope)
    (hg : s ∉ b.guarded) {f : Scope α σ → Scope α σ} (hf : (f scope).phase.isAccepting = false) :
    Closed s (f scope) (b.modifyScope s f) := by
  have hbegun := begun_of_row hrow
  have hsettles := settles_modifyScope b s f h hbegun hg
  refine ⟨hsettles.disciplined, ?_, hf, hsettles.guarded s hbegun hg⟩
  rw [get?_modifyScope, hrow]
  rfl

/-- The bench on which a scope has begun to end. -/
def closing (s : ScopeRef) (horizon : VirtualTime) (b : Bench α σ) : Bench α σ :=
  (b.modifyScope s fun scope => { scope with phase := .ending }).note
    (.report (.advancing s.scopeId horizon))

/-- The bench on which the clock of a scope is at the horizon, and its assertions come next. -/
def checking (s : ScopeRef) (c : ClockRef) (horizon : VirtualTime) (b : Bench α σ) : Bench α σ :=
  (b.park c horizon).modifyScope s fun scope => { scope with pending := [] }

theorem closed_closing (h : b.Disciplined) (hrow : b.scopes.get? s = some scope)
    (hg : s ∉ b.guarded) (horizon : VirtualTime) :
    Closed s { scope with phase := .ending } (closing s horizon b) :=
  (closed_modifyScope h hrow hg (f := fun scope => { scope with phase := .ending }) rfl).upkeep
    (upkeep_of_eq rfl rfl rfl)

theorem Closed.park (h : Closed s scope b) (c : ClockRef) (horizon : VirtualTime) :
    Closed s scope (b.park c horizon) := h.upkeep (upkeep_of_eq rfl rfl rfl)

theorem Closed.checking (h : Closed s scope b) (c : ClockRef) (horizon : VirtualTime) :
    Closed s { scope with pending := [] } (checking s c horizon b) := by
  have hparked := h.park c horizon
  exact closed_modifyScope hparked.disciplined hparked.row hparked.unguarded
    (f := fun scope => { scope with pending := [] }) h.closed

theorem Closed.refuses (h : Closed s scope b) : b.Refuses s := refuses_of_row h.row h.closed

end Bench

namespace Engine

open Bench

/-- Actions due by an instant start one after the other, and each gets done. -/
inductive Runs (E : Engine α σ) (c : ClockRef) (limit : VirtualTime) (b : Bench α σ) :
    List (Pending (Action α σ)) → Bench α σ → Prop
  | rest : Runs E c limit b [] b
  | turn {ran : List (Pending (Action α σ))} {p : Pending (Action α σ)}
    {rest : List (Pending (Action α σ))} {b₁ b₂ b₃ : Bench α σ} (h : Runs E c limit b ran b₁)
    (hqueue : (b₁.clock c).queue = p :: rest) (hnext : b₁.next? c limit = some (p.action, b₂))
    (hrun : E.perform p.action b₂ = (.done (), b₃)) : Runs E c limit b (ran ++ [p]) b₃

/-- Fewer than `n` actions come to start, and none of them panics or drives the clock. -/
def Calm (E : Engine α σ) (c : ClockRef) (limit : VirtualTime) (n : Nat) (b : Bench α σ) : Prop :=
  ∀ ran b₁, E.Runs c limit b ran b₁ → ran.length < n ∧
    ∀ a b₂, b₁.next? c limit = some (a, b₂) →
      ∃ b₃, E.perform a b₂ = (.done (), b₃) ∧ Undriven c b₂ b₃

/-- The first turn is followed by others, if it has been taken. -/
theorem Runs.cases_head {a : Action α σ} {b₂ : Bench α σ} (hn : b.next? c limit = some (a, b₁))
    (hrun : E.perform a b₁ = (.done (), b₂)) (h : E.Runs c limit b ran b') :
    ran = [] ∧ b' = b ∨ ∃ p later, ran = p :: later ∧ E.Runs c limit b₂ later b' := by
  induction h with
  | rest => exact Or.inl ⟨rfl, rfl⟩
  | @turn ran p rest b₃ b₄ b₅ _ hqueue hnext hperform ih =>
    right
    rcases ih with ⟨rfl, rfl⟩ | ⟨q, later, rfl, hlater⟩
    · rw [hn] at hnext
      obtain ⟨rfl, rfl⟩ := Prod.mk.inj (Option.some.inj hnext)
      obtain rfl : b₂ = b₅ := congrArg Prod.snd (hrun.symm.trans hperform)
      exact ⟨p, [], rfl, .rest⟩
    · exact ⟨q, later ++ [p], rfl, hlater.turn hqueue hnext hperform⟩

theorem Runs.respects {R : Bench α σ → Bench α σ → Prop} [Admits R] (hE : E.Respects R)
    (h : E.Runs c limit b ran b₁) : R b b₁ := by
  induction h with
  | rest => exact refl_of R b
  | @turn _ p _ b₁ b₂ b₃ _ _ hnext hrun ih =>
    have hperform := respects_perform hE p.action b₂
    rw [hrun] at hperform
    exact trans_of R ih (trans_of R (Admits.basic (.start hnext)) hperform)

/-- No action takes anything in for a closed scope, -/
theorem Runs.closed (hE : E.Respects Upkeep) (h : E.Runs c limit b ran b₁) (hs : Closed s scope b) :
    Closed s scope b₁ := hs.upkeep (h.respects hE)

/-- Fewer than `n` actions come to start, and each gets done and changes the bench in one way
only. -/
def EachTurn (E : Engine α σ) (R : Bench α σ → Bench α σ → Prop) (c : ClockRef)
    (limit : VirtualTime) (n : Nat) (b : Bench α σ) : Prop :=
  ∀ ran b₁, E.Runs c limit b ran b₁ → ran.length < n ∧
    ∀ a b₂, b₁.next? c limit = some (a, b₂) → ∃ b₃, E.perform a b₂ = (.done (), b₃) ∧ R b₂ b₃

section

variable {R : Bench α σ → Bench α σ → Prop}

/-- With nothing due, nothing starts. -/
theorem eachTurn_of_none {n : Nat} (hn : b.next? c limit = none) :
    E.EachTurn R c limit (n + 1) b := by
  intro ran b₁ h
  have hrest : ran = [] ∧ b₁ = b := by
    induction h with
    | rest => exact ⟨rfl, rfl⟩
    | turn _ _ hnext _ ih =>
      obtain ⟨rfl, rfl⟩ := ih
      simp [hn] at hnext
  obtain ⟨rfl, rfl⟩ := hrest
  refine ⟨Nat.succ_pos n, fun a b₂ hnext => ?_⟩
  simp [hn] at hnext

theorem eachTurn_of_turn {n : Nat} {a : Action α σ} {b₂ : Bench α σ}
    (hn : b.next? c limit = some (a, b₁)) (hrun : E.perform a b₁ = (.done (), b₂)) (hR : R b₁ b₂)
    (h : E.EachTurn R c limit n b₂) : E.EachTurn R c limit (n + 1) b := by
  intro ran b' hruns
  rcases hruns.cases_head hn hrun with ⟨rfl, rfl⟩ | ⟨p, later, rfl, hlater⟩
  · refine ⟨Nat.succ_pos n, fun a' b₁' hnext => ?_⟩
    rw [hn] at hnext
    obtain ⟨rfl, rfl⟩ := Prod.mk.inj (Option.some.inj hnext)
    exact ⟨b₂, hrun, hR⟩
  · exact ⟨Nat.succ_lt_succ (h later b' hlater).1, (h later b' hlater).2⟩

theorem EachTurn.runs [IsPreorder (Bench α σ) R] {n : Nat} (h : E.EachTurn R c limit n b)
    (hstart : ∀ {b b' : Bench α σ} {a : Action α σ}, b.next? c limit = some (a, b') → R b b')
    (hruns : E.Runs c limit b ran b₁) : R b b₁ := by
  induction hruns with
  | rest => exact refl_of R b
  | @turn ran p _ b₁ b₂ b₃ hruns _ hnext hrun ih =>
    obtain ⟨b₃', hrun', hR⟩ := (h ran b₁ hruns).2 p.action b₂ hnext
    obtain rfl : b₃ = b₃' := congrArg Prod.snd (hrun.symm.trans hrun')
    exact trans_of R ih (trans_of R (hstart hnext) hR)

/-- Actions that all get done are run to the last. -/
theorem EachTurn.drain (h : E.EachTurn R c limit E.fuel b) :
    ∃ ran b₁, E.Runs c limit b ran b₁ ∧ E.drain c limit b = (.done (), b₁) := by
  have hdrains : ∀ fuel ran b₁, E.Runs c limit b ran b₁ → ran.length + fuel = E.fuel →
      ∃ ran' b', E.Runs c limit b ran' b' ∧ E.drainWith c limit fuel b₁ = (.done (), b') := by
    intro fuel
    induction fuel with
    | zero =>
      intro ran b₁ hruns hfuel
      have hlt := (h ran b₁ hruns).1
      omega
    | succ fuel ih =>
      intro ran b₁ hruns hfuel
      cases hn : b₁.next? c limit with
      | none => exact ⟨ran, b₁, hruns, drainWith_idle hn⟩
      | some next =>
        obtain ⟨a, b₂⟩ := next
        obtain ⟨b₃, hrun, -⟩ := (h ran b₁ hruns).2 a b₂ hn
        obtain ⟨k, hk⟩ := exists_clock hn
        obtain ⟨p, k', hnext, rfl, -⟩ := next?_eq_some hk hn
        obtain ⟨rest, hqueue, -⟩ := Clock.next?_eq_some hnext
        have hturn : E.Runs c limit b (ran ++ [p]) b₃ :=
          hruns.turn (by rw [clock, hk, Option.getD_some, hqueue]) hn hrun
        obtain ⟨ran', b', hruns', hdrain⟩ := ih (ran ++ [p]) b₃ hturn (by simp; omega)
        refine ⟨ran', b', hruns', ?_⟩
        rw [drainWith_turn hn, Run.bind_done hrun]
        exact hdrain
  exact hdrains E.fuel [] b .rest (by simp)

theorem EachTurn.advanceTo (h : E.EachTurn R c limit E.fuel b) :
    ∃ ran b₁, E.Runs c limit b ran b₁ ∧ b₁.next? c limit = none ∧
      E.advanceTo c limit b = (.done (), b₁.park c limit) := by
  obtain ⟨ran, b₁, hruns, hdrain⟩ := h.drain
  refine ⟨ran, b₁, hruns, next?_of_drainWith hdrain, ?_⟩
  rw [Engine.advanceTo, Run.bind_done hdrain]
  rfl

end

theorem calm_of_none {n : Nat} (hn : b.next? c limit = none) : E.Calm c limit (n + 1) b :=
  eachTurn_of_none hn

theorem calm_of_turn {n : Nat} {a : Action α σ} {b₂ : Bench α σ}
    (hn : b.next? c limit = some (a, b₁)) (hrun : E.perform a b₁ = (.done (), b₂))
    (hundriven : Undriven c b₁ b₂) (h : E.Calm c limit n b₂) : E.Calm c limit (n + 1) b :=
  eachTurn_of_turn hn hrun hundriven h

theorem Calm.advanceTo (h : E.Calm c limit E.fuel b) :
    ∃ ran b₁, E.Runs c limit b ran b₁ ∧ b₁.next? c limit = none ∧
      E.advanceTo c limit b = (.done (), b₁.park c limit) := EachTurn.advanceTo (R := Undriven c) h

/-- The history of a clock that only the drain drives: what it starts is what runs. -/
theorem Runs.trace {n : Nat} (hF : E.Respects Follows) (hcalm : E.Calm c limit n b)
    (h : E.Runs c limit b ran b₁) (hk : b.clocks.get? c = some k) :
    ∃ k₁ evs, b₁.clocks.get? c = some k₁ ∧ k.Trace evs k₁ ∧
      evs.filterMap ClockEvent.started? = ran ∧ (∀ p ∈ ran, p.due ≤ limit) ∧
      k₁.now ≤ max k.now limit := by
  induction h with
  | rest => exact ⟨k, [], hk, .refl, rfl, by simp, le_max_left _ _⟩
  | @turn ran p rest b₁ b₂ b₃ hruns hqueue hnext hrun ih =>
    obtain ⟨k₁, evs, hk₁, htrace, hstarted, hdue, hnow⟩ := ih
    obtain ⟨p', k₂, hstart, -, hb₂⟩ := next?_eq_some hk₁ hnext
    obtain ⟨rest', hqueue₁, hle, hk₂⟩ := Clock.next?_eq_some hstart
    obtain rfl : p' = p := by
      rw [clock, hk₁, Option.getD_some, hqueue₁] at hqueue
      exact (List.cons.inj hqueue).1
    have hrow₂ : b₂.clocks.get? c = some k₂ := by
      rw [hb₂]
      simp [note, Table.get?_modify, hk₁]
    obtain ⟨b₃', hrun', hundriven⟩ := (hcalm ran b₁ hruns).2 _ b₂ hnext
    obtain rfl : b₃ = b₃' := congrArg Prod.snd (hrun.symm.trans hrun')
    have hfollows := respects_perform hF p'.action b₂
    rw [hrun] at hfollows
    obtain ⟨k₃, evs₃, hrow₃, htrace₃, hnone, hnow₃⟩ := hundriven.trace hfollows hrow₂
    refine ⟨k₃, _, hrow₃, (htrace.start hstart).trans htrace₃, ?_, ?_, ?_⟩
    · simp [hstarted, hnone, ClockEvent.started?]
    · intro q hq
      rcases List.mem_append.mp hq with hq | hq
      · exact hdue q hq
      · rwa [List.mem_singleton.mp hq]
    · rw [hnow₃, hk₂]
      exact max_le hnow (le_trans hle (le_max_right _ _))

/-- With nothing left that is due, exactly what was due has run. -/
theorem Runs.exactly {n : Nat} (hF : E.Respects Follows) (hcalm : E.Calm c limit n b)
    (h : E.Runs c limit b ran b₁) (hk : b.clocks.get? c = some k) (hord : k.Ordered)
    (hnone : b₁.next? c limit = none) :
    ∃ k₁ evs, (b₁.park c limit).clocks.get? c = some k₁ ∧ k.Trace evs k₁ ∧
      evs.filterMap ClockEvent.started? = ran ∧
      ran.Perm ((k.queue ++ Clock.numbered k.scheduled (evs.filterMap ClockEvent.given?)).filter
        fun p => decide (p.due ≤ limit)) ∧
      k₁.now = max k.now limit := by
  obtain ⟨k₁, evs, hk₁, htrace, hstarted, hdue, hnow⟩ := h.trace hF hcalm hk
  have hidle := next?_eq_none hk₁ hnone
  have hlate : ∀ p ∈ k₁.queue, limit < p.due := (htrace.ordered hord).lt_of_next?_eq_none hidle
  have hran : (ran ++ k₁.queue).filter (fun p => decide (p.due ≤ limit)) = ran := by
    rw [List.filter_append, List.filter_eq_self.mpr (by simpa using hdue),
      List.filter_eq_nil_iff.mpr (by simpa using hlate), List.append_nil]
  refine ⟨k₁.park limit, evs, ?_, htrace.park hidle, hstarted, ?_, ?_⟩
  · simp [park, Table.get?_modify, hk₁]
  · have hperm := htrace.perm.filter fun p => decide (p.due ≤ limit)
    rwa [hstarted, hran] at hperm
  · exact le_antisymm (max_le hnow (le_max_right _ _))
      (max_le (le_trans htrace.now_le (le_max_left _ _)) (le_max_right _ _))

/-- What a scope is left with when it has ended. -/
theorem row_ended (h : b.scopes.get? s = some scope) (hpending : scope.pending = [])
    (os : List (Except Error Unit)) (outcome : Outcome (Except Error Unit)) :
    (relinquish s outcome ((concluded s os b).removeScope s)).scopes.get? s =
      some { scope with phase := .disposed } := by
  have hrow : ((concluded s os b).removeScope s).scopes.get? s =
      some { scope with phase := .disposed } := by
    change (b.modifyScope s _).scopes.get? s = _
    rw [get?_modifyScope, h]
    rfl
  rcases relinquish_cases s outcome ((concluded s os b).removeScope s) with he | he
  · rw [he, hrow]
  · rw [he, (givenUp_abandon _ s _).scope, hrow]
    simp [hpending]

/-- The scope leaves the stack, and the others keep their order. -/
theorem stack_ended (h : b.Disciplined) (os : List (Except Error Unit))
    (outcome : Outcome (Except Error Unit)) :
    (relinquish s outcome ((concluded s os b).removeScope s)).stack = b.stack.erase s := by
  rcases relinquish_cases s outcome ((concluded s os b).removeScope s) with he | he
  · rw [he]
    rfl
  · rw [he, (givenUp_abandon _ s _).stack]
    exact List.erase_of_not_mem h.nodup.not_mem_erase

theorem clocks_ended (os : List (Except Error Unit)) (outcome : Outcome (Except Error Unit)) :
    (relinquish s outcome ((concluded s os b).removeScope s)).clocks = b.clocks := by
  rcases relinquish_cases s outcome ((concluded s os b).removeScope s) with he | he
  · rw [he]
    rfl
  · rw [he, (givenUp_abandon _ s _).clocks]
    rfl

variable [Shown α] {grid : TimeGrid} {asserted : List (Assertion α σ)}
  {os : List (Except Error Unit)}

/-- No assertion panics or drives the clock, whatever has become of those before it. -/
def Sound (E : Engine α σ) (s : ScopeRef) (grid : TimeGrid) (c : ClockRef)
    (asserted : List (Assertion α σ)) (b : Bench α σ) : Prop :=
  ∀ before a after os b₁, asserted = before ++ a :: after →
    E.outcomes s grid 0 before b = (.done os, b₁) →
    ∃ o b₂, E.verify s grid a b₁ = (.done o, b₂) ∧ Undriven c b₁ b₂

theorem outcomes_concat (s : ScopeRef) (grid : TimeGrid) (index : Nat)
    (before : List (Assertion α σ)) (a : Assertion α σ) {b₂ : Bench α σ} {o : Except Error Unit}
    (h : E.outcomes s grid index before b = (.done os, b₁))
    (ha : E.verify s grid a b₁ = (.done o, b₂)) :
    ∃ b₃, reportFailure s (index + before.length) o b₂ = (.done (), b₃) ∧
      E.outcomes s grid index (before ++ [a]) b = (.done (os ++ [o]), b₃) := by
  induction before generalizing index b os with
  | nil =>
    obtain ⟨rfl, rfl⟩ := Run.pure_eq_done h
    obtain ⟨b₃, hreport⟩ := reportFailure_done s index o b₂
    refine ⟨b₃, hreport, ?_⟩
    rw [List.nil_append, outcomes, Run.bind_done (m := (E.verify s grid a).result) ha,
      Run.bind_done hreport]
    rfl
  | cons x rest ih =>
    obtain ⟨o', b₄, hverify, h⟩ := Run.bind_eq_done h
    obtain ⟨_, b₅, hreport, h⟩ := Run.bind_eq_done h
    obtain ⟨later, b₆, hlater, h⟩ := Run.bind_eq_done h
    obtain ⟨rfl, rfl⟩ := Run.pure_eq_done h
    obtain ⟨b₃, hreport₃, hall⟩ := ih (index + 1) hlater
    refine ⟨b₃, ?_, ?_⟩
    · rwa [List.length_cons, ← Nat.add_assoc, Nat.add_right_comm]
    · rw [List.cons_append, outcomes, Run.bind_done hverify, Run.bind_done hreport,
        Run.bind_done hall]
      rfl

/-- Each assertion comes to an outcome and changes the bench in one way only, whatever has become of
those before it. -/
def EachCheck (E : Engine α σ) (R : Bench α σ → Bench α σ → Prop) (s : ScopeRef) (grid : TimeGrid)
    (asserted : List (Assertion α σ)) (b : Bench α σ) : Prop :=
  ∀ before a after os b₁, asserted = before ++ a :: after →
    E.outcomes s grid 0 before b = (.done os, b₁) →
    ∃ o b₂, E.verify s grid a b₁ = (.done o, b₂) ∧ R b₁ b₂

/-- Assertions that all get done are checked to the last. -/
theorem EachCheck.outcomes {R : Bench α σ → Bench α σ → Prop} [IsPreorder (Bench α σ) R]
    (hnote : ∀ (b : Bench α σ) (e : Entry α), R b (b.note e))
    (h : E.EachCheck R s grid asserted b) :
    ∃ os b', E.outcomes s grid 0 asserted b = (.done os, b') ∧ R b b' := by
  have hprefix : ∀ before after, asserted = before ++ after →
      ∃ os b', E.outcomes s grid 0 before b = (.done os, b') ∧ R b b' := by
    intro before
    induction before using List.reverseRecOn with
    | nil => exact fun _ _ => ⟨[], b, rfl, refl_of R b⟩
    | append_singleton before a ih =>
      intro after heq
      rw [List.append_assoc] at heq
      obtain ⟨os, b₁, hrun, hR⟩ := ih ([a] ++ after) heq
      obtain ⟨o, b₂, hverify, hR₂⟩ := h before a after os b₁ heq hrun
      obtain ⟨b₃, hreport, hall⟩ := outcomes_concat s grid 0 before a hrun hverify
      have hR₃ := keeps_reportFailure hnote s (0 + before.length) o b₂
      rw [hreport] at hR₃
      exact ⟨os ++ [o], b₃, hall, trans_of R hR (trans_of R hR₂ hR₃)⟩
  exact hprefix asserted [] (by simp)

theorem Sound.outcomes (h : E.Sound s grid c asserted b) :
    ∃ os b', E.outcomes s grid 0 asserted b = (.done os, b') ∧ Undriven c b b' :=
  EachCheck.outcomes (R := Undriven c) (fun _ _ => rfl) h

theorem respects_outcomes {R : Bench α σ → Bench α σ → Prop} [Admits R] (hE : E.Respects R)
    (s : ScopeRef) (grid : TimeGrid) (index : Nat) (asserted : List (Assertion α σ)) :
    Run.Keeps R (E.outcomes s grid index asserted) := by
  intro b
  have hall := respects_verifyAll hE s grid index asserted b
  rwa [verifyAll_eq, Run.bind_pure_snd] at hall

/-- nor does an assertion. -/
theorem closed_of_outcomes (hE : E.Respects Upkeep) {t : ScopeRef} {index : Nat}
    (h : E.outcomes t grid index asserted b = (.done os, b')) (hs : Closed s scope b) :
    Closed s scope b' := by
  have hall := respects_outcomes hE t grid index asserted b
  rw [h] at hall
  exact hs.upkeep hall

theorem endScope_of_settle {rest : List ScopeRef} {answer : Except Error Unit}
    (hstack : b.stack = s :: rest) (h : E.settle s b = (.done answer, b')) :
    E.endScope s b = (.done answer, relinquish s (.done answer) (b'.removeScope s)) := by
  have hanswer : (E.settle s b).1 = .done answer := congrArg Prod.fst h
  have hbench := endScope_snd (E := E) s b
  rw [endInnermost_top hstack, h] at hbench
  exact Prod.ext ((endScope_eq_done hstack).mpr hanswer) hbench

/-- How a scope ends for whose end these instants and assertions have been put down. -/
structure Ending (E : Engine α σ) (s : ScopeRef) (options : ScopeOptions) (c : ClockRef)
    (ts : List VirtualTime) (asserted : List (Assertion α σ)) (k : Clock (Action α σ))
    (b : Bench α σ) (ran : List (Pending (Action α σ))) (os : List (Except Error Unit))
    (b₁ b₂ b₃ : Bench α σ) : Prop where
  /-- First come actions of the clock, one after the other: -/
  runs : E.Runs c (latest ts) (closing s (latest ts) b) ran b₁
  /-- exactly those that are due by the latest of the instants, the ones queued meanwhile included.
  The clock is left there. -/
  exactly : ∃ k₁ evs, (b₁.park c (latest ts)).clocks.get? c = some k₁ ∧ k.Trace evs k₁ ∧
    evs.filterMap ClockEvent.started? = ran ∧
    ran.Perm ((k.queue ++ Clock.numbered k.scheduled (evs.filterMap ClockEvent.given?)).filter
      fun p => decide (p.due ≤ latest ts)) ∧
    k₁.now = max k.now (latest ts)
  /-- Then every assertion is checked, in the order they came, whatever becomes of those before
  it. -/
  checks : E.outcomes s options.grid 0 asserted (checking s c (latest ts) b₁) = (.done os, b₂)
  /-- Whatever is to be put down while the actions run is refused, -/
  running : ∀ ran b₄ b₅, E.Runs c (latest ts) (closing s (latest ts) b) ran b₄ → Upkeep b₄ b₅ →
    b₅.Refuses s
  /-- and so it is while the assertions are checked, -/
  checked : ∀ before os b₄ b₅, before <+: asserted →
    E.outcomes s options.grid 0 before (checking s c (latest ts) b₁) = (.done os, b₄) →
    Upkeep b₄ b₅ → b₅.Refuses s
  /-- and afterwards. -/
  afterwards : b₃.Refuses s
  /-- The answer is the first failure, if there is any. -/
  answers : E.endScope s b = (.done (verdict os), b₃)
  ended : b₃ = relinquish s (.done (verdict os)) ((concluded s os b₂).removeScope s)
  disposed : b₃.scopes.get? s =
    some { options, clock := c, phase := .disposed, horizon := latest ts, pending := [] }
  reading : b₃.now c = max k.now (latest ts)

/-- The innermost scope ends once its clock has reached the latest instant that anything put down
for its end asks for: all that is due by then runs, all assertions are checked, and the first
failure is the answer. This takes that nothing panics or drives the clock meanwhile. -/
theorem endScope_enrolled (hE : E.Respects Upkeep) (hF : E.Respects Follows) {rest : List ScopeRef}
    {options : ScopeOptions} {ts : List VirtualTime} (h : b.Disciplined)
    (hstack : b.stack = s :: rest) (hg : s ∉ b.guarded)
    (henrolled : Enrolled s options c ts asserted b) (hk : b.clocks.get? c = some k)
    (hord : k.Ordered) (hcalm : E.Calm c (latest ts) E.fuel (closing s (latest ts) b))
    (hsound : ∀ ran b₁, E.Runs c (latest ts) (closing s (latest ts) b) ran b₁ →
      b₁.next? c (latest ts) = none →
      E.Sound s options.grid c asserted (checking s c (latest ts) b₁)) :
    ∃ ran os b₁ b₂ b₃, E.Ending s options c ts asserted k b ran os b₁ b₂ b₃ := by
  have hrow := henrolled.row
  rw [Scope.begun_owing] at hrow
  obtain ⟨ran, b₁, hruns, hnone, hadvance⟩ := hcalm.advanceTo
  obtain ⟨os, b₂, houtcomes, hundriven⟩ := (hsound ran b₁ hruns hnone).outcomes
  -- From here on nothing is taken in, whatever client code does.
  have hclosing := closed_closing h hrow hg (latest ts)
  have hran := hclosing.upkeep (hruns.respects hE)
  have hchecking := hran.checking c (latest ts)
  have hchecked := respects_outcomes hE s options.grid 0 asserted (checking s c (latest ts) b₁)
  rw [houtcomes] at hchecked
  have hdisposed := row_ended (hchecking.upkeep hchecked).row rfl os (.done (verdict os))
  have hjudge : E.judge s b = (.done os, b₂) := by
    refine (judge_eq_done hrow).mpr ⟨b₁.park c (latest ts), hadvance, ?_⟩
    rw [(hran.park c (latest ts)).row]
    exact houtcomes
  have hend := endScope_of_settle hstack (settle_of_judge hrow hjudge)
  obtain ⟨k₁, evs, hk₁, htrace, hstarted, hperm, hnow⟩ := hruns.exactly hF hcalm hk hord hnone
  obtain ⟨k₂, hk₂, hnow₂, -⟩ := hundriven.exists_clock hk₁
  refine ⟨ran, os, b₁, b₂, _, hruns, ⟨k₁, evs, hk₁, htrace, hstarted, hperm, hnow⟩,
    houtcomes, ?_, ?_, refuses_of_row hdisposed rfl, hend, rfl, hdisposed, ?_⟩
  · intro ran b₄ b₅ hruns hupkeep
    exact ((hclosing.upkeep (hruns.respects hE)).upkeep hupkeep).refuses
  · intro before os b₄ b₅ _ hbefore hupkeep
    have hpart := respects_outcomes hE s options.grid 0 before (checking s c (latest ts) b₁)
    rw [hbefore] at hpart
    exact ((hchecking.upkeep hpart).upkeep hupkeep).refuses
  · rw [now, clocks_ended, hk₂, Option.getD_some, hnow₂, hnow]

/-- A scope on whose clock there is an action that queues another one. -/
def spawning : Bench Int64 (Callback Int64) :=
  { (Scenario.fresh.beginScope default).2.schedule ⟨1⟩ (.clamp 5)
      (.invoke (.call (.script [.scheduleAt "c" (.clamp 7) .null []]))) with
    names := { clocks := [("c", ⟨1⟩)] } }

/-- Two assertions, each of which fails in its own way. -/
def failing : List (Assertion Int64 (Callback Int64)) :=
  [.check (.script [.fail .noActiveScope]), .check (.script [.fail (.scopeClosed ⟨7⟩)])]

/-- The same scope when both have been put down. -/
def doomed : Bench Int64 (Callback Int64) :=
  ((Callback.engine 6).enroll ⟨0⟩ (.assertion (.clamp 8) (.script [.fail (.scopeClosed ⟨7⟩)]))
    ((Callback.engine 6).enroll ⟨0⟩ (.assertion (.clamp 9) (.script [.fail .noActiveScope]))
      spawning).2).2

theorem disciplined_doomed : doomed.Disciplined := by
  have hE := Scenario.upkeep_engine (α := Int64) 6
  have hbegun := upkeep_beginScope (Scenario.fresh : Bench Int64 (Callback Int64)) default
    Scenario.disciplined_fresh
  have hready : Upkeep (Scenario.fresh.beginScope default).2 spawning := upkeep_of_eq rfl rfl rfl
  have hfirst := respects_enroll hE ⟨0⟩ (.assertion (.clamp 9) (.script [.fail .noActiveScope]))
    spawning (hready hbegun.disciplined).disciplined
  exact (respects_enroll hE ⟨0⟩ (.assertion (.clamp 8) (.script [.fail (.scopeClosed ⟨7⟩)])) _
    hfirst.disciplined).disciplined

theorem sound_failing (b : Bench Int64 (Callback Int64)) :
    (Callback.engine 6).Sound ⟨0⟩ default ⟨1⟩ failing b := by
  intro before a after os b₁ heq _
  have ha : a ∈ failing := by
    rw [heq]
    simp
  rcases List.mem_pair.mp ha with rfl | rfl
  · exact ⟨_, _, rfl, rfl⟩
  · exact ⟨_, _, rfl, rfl⟩

/-- Both are checked, though the first fails, and the first failure is the answer. -/
theorem endScope_spawning :
    ∃ ran os b₁ b₂ b₃, (Callback.engine 6).Ending ⟨0⟩ default ⟨1⟩ [.clamp 9, .clamp 8] failing
        (({} : Clock _).schedule (.clamp 5)
          (.invoke (.call (.script [.scheduleAt "c" (.clamp 7) .null []]))))
        doomed ran os b₁ b₂ b₃ ∧
      os = [.error .noActiveScope, .error (.scopeClosed ⟨7⟩)] ∧
      (Callback.engine 6).endScope ⟨0⟩ doomed = (.done (.error .noActiveScope), b₃) := by
  have hF : (Callback.engine 6 : Engine Int64 (Callback Int64)).Respects Follows :=
    fun f b => (Callback.lawful_engine 6 f b).follows
  have henrolled : Enrolled ⟨0⟩ default ⟨1⟩ [.clamp 9, .clamp 8] failing doomed :=
    ((Enrolled.aside (.begun rfl) rfl).enroll _ (.assertion _ _)).enroll _ (.assertion _ _)
  have hcalm : (Callback.engine 6).Calm ⟨1⟩ (.clamp 9) 6 (closing ⟨0⟩ (.clamp 9) doomed) :=
    calm_of_turn rfl rfl rfl (calm_of_turn rfl rfl rfl (calm_of_none rfl))
  obtain ⟨ran, os, b₁, b₂, b₃, hending⟩ := endScope_enrolled (Scenario.upkeep_engine 6) hF
    disciplined_doomed rfl (by decide) henrolled rfl (Clock.ordered_fresh.schedule _ _) hcalm
    fun _ _ _ _ => sound_failing _
  have hos : [.error .noActiveScope, .error (.scopeClosed ⟨7⟩)] = os :=
    Outcome.done.inj (congrArg Prod.fst hending.checks)
  refine ⟨ran, os, b₁, b₂, b₃, hending, hos.symm, ?_⟩
  have hanswers := hending.answers
  rwa [← hos] at hanswers

end Engine

end Marble
