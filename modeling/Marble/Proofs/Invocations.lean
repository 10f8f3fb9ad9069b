import Marble.Proofs.Ending
import Marble.Proofs.Multicast

/-! The expectation of a probe's invocations is judged by all that the probe has noted when its turn
comes, also by what has been noted after the instant up to which it asked the clock to run. -/
namespace Marble

open Bench

variable {α σ φ : Type} {b b' : Bench α σ} {s : ScopeRef} {c : ClockRef} {p : ProbeRef}
  {grid : TimeGrid} {instants : List VirtualTime} {limit : VirtualTime}

/-- A difference in number never comes from comparing instants. -/
theorem checkInstants_ne_countMismatch (grid : TimeGrid) (index n m : Nat)
    (expected actual : List VirtualTime) :
    checkInstants grid index expected actual ≠ .error (.countMismatch n m) := by
  induction expected generalizing index actual with
  | nil => simp [checkInstants]
  | cons e rest ih =>
    cases actual with
    | nil => simp [checkInstants]
    | cons a later =>
      rw [checkInstants]
      split
      · simp
      · exact ih (index + 1) later

/-- Instants past a limit always count: leaving them out changes the outcome. -/
theorem checkEffects_filter_eq_iff (expected : List (Timed φ)) :
    checkEffects grid (instants.filter fun t => decide (t ≤ limit)) expected =
        checkEffects grid instants expected ↔
      ∀ t ∈ instants, t ≤ limit := by
  constructor
  · intro h
    by_contra hlate
    have hfewer : (instants.filter fun t => decide (t ≤ limit)).length < instants.length := by
      refine lt_of_le_of_ne (List.length_filter_le _ _) fun heq => hlate fun t ht => ?_
      simpa using List.length_filter_eq_length_iff.mp heq t ht
    simp only [checkEffects] at h
    split at h
    next hshort =>
      split at h
      next hlong =>
        simp only [Except.error.injEq, Error.countMismatch.injEq, true_and] at h
        omega
      · exact checkInstants_ne_countMismatch _ _ _ _ _ _ h.symm
    next hshort =>
      rw [if_pos (by omega)] at h
      exact checkInstants_ne_countMismatch _ _ _ _ _ _ h
  · intro h
    rw [List.filter_eq_self.mpr (by simpa using h)]

namespace Bench

/-- No probe has noted an instant that its clock has not reached. -/
def Stamped (b : Bench α σ) : Prop :=
  ∀ p row, b.probes.get? p = some row → ∀ t ∈ row.invocations.toList, t ≤ b.now row.clock

theorem Stamped.mono (h : b.Stamped) (hprobes : b'.probes = b.probes)
    (hnow : ∀ c, b.now c ≤ b'.now c) : b'.Stamped := fun p row hrow t ht =>
  le_trans (h p row (hprobes ▸ hrow) t ht) (hnow row.clock)

theorem Stamped.addProbe (h : b.Stamped) (c : ClockRef) : (b.addProbe c).2.Stamped := by
  intro p row hrow t ht
  change (b.probes.push { clock := c }).get? p = some row at hrow
  rw [Table.get?_push] at hrow
  split at hrow
  · obtain rfl := Option.some.inj hrow
    simp at ht
  · exact h p row hrow t ht

theorem Stamped.stamp (h : b.Stamped) (q : ProbeRef) : (b.stamp q).Stamped := by
  intro p row hrow t ht
  change (b.probes.modify q _).get? p = some row at hrow
  rw [Table.get?_modify] at hrow
  split at hrow
  · obtain ⟨row₀, hrow₀, rfl⟩ := Option.map_eq_some_iff.mp hrow
    rcases (by simpa using ht : t ∈ row₀.invocations ∨ t = b.now row₀.clock) with ht | rfl
    · exact h p row₀ hrow₀ t (by simpa using ht)
    · exact le_refl _
  · exact h p row hrow t ht

theorem attach_probes (b : Bench α σ) (s : SourceRef) (o : Observer α) :
    (b.attach s o).2.probes = b.probes := by
  rw [attach]
  split
  · rfl
  · dsimp only
    split
    · simp only [foldl_schedule_eq]
      rfl
    · rfl

/-- Probes come and note the reading of their clocks; nothing else happens to them. -/
theorem Plain.stamped (h : Plain b b') (hb : b.Stamped) (hnow : ∀ c, b.now c ≤ b'.now c) :
    b'.Stamped := by
  cases h with
  | addProbe c => exact hb.addProbe c
  | stamp p => exact hb.stamp p
  | addSource temperature c events =>
    refine hb.mono ?_ hnow
    cases temperature with
    | cold => rfl
    | hot => simp only [Bench.addSource, foldl_schedule_eq]
  | attach s o => exact hb.mono (attach_probes _ s o) hnow
  | register s t a =>
    refine hb.mono ?_ hnow
    rw [Bench.register]
    split <;> rfl
  | start hn =>
    refine hb.mono ?_ hnow
    obtain ⟨clocks, log, rfl⟩ := next?_rest hn
    rfl
  | _ => exact hb.mono rfl hnow

theorem Reaches.stamped (h : Reaches b b') (hb : b.Stamped) : b'.Stamped := by
  induction h with
  | refl => exact hb
  | tail _ hstep ih =>
    have hnow := hstep.follows.now_le
    cases hstep with
    | plain h => exact h.stamped ih hnow
    | _ => exact ih.mono rfl hnow

theorem stamped_empty : ({} : Bench α σ).Stamped := by
  intro p row hrow
  simp [Table.get?] at hrow

/-- What a probe has noted, its clock has reached. -/
theorem Stamped.le_now (h : b.Stamped) {row : Probe} (hrow : b.probes.get? p = some row) :
    ∀ t ∈ b.invocations p, t ≤ b.now row.clock := by
  intro t ht
  rw [invocations, hrow] at ht
  exact h p row hrow t ht

end Bench

/-- How long the expectation of some effects that are read from an instant on is to observe. -/
def Enrolment.observedUntil (t : VirtualTime) (options : ScopeOptions)
    (d : Diagram α SequenceError (Effect σ)) : VirtualTime :=
  Timeline.lastTime (effectsFrom t options d) t + options.padding

namespace Engine

open Enrolment

variable [Shown α] {E : Engine α σ} {before after : List (Assertion α σ)}
  {os : List (Except Error Unit)}

/-- An assertion comes to its turn once those before it have been checked. -/
theorem outcomes_append {index : Nat} {a : Assertion α σ}
    (h : E.outcomes s grid index (before ++ a :: after) b = (.done os, b')) :
    ∃ earlier b₁ o b₂, E.outcomes s grid index before b = (.done earlier, b₁) ∧
      E.verify s grid a b₁ = (.done o, b₂) ∧ os[before.length]? = some o := by
  induction before generalizing b index os with
  | nil =>
    obtain ⟨o, b₁, hverify, h⟩ := Run.bind_eq_done h
    obtain ⟨_, b₂, -, h⟩ := Run.bind_eq_done h
    obtain ⟨later, b₃, -, h⟩ := Run.bind_eq_done h
    obtain ⟨rfl, rfl⟩ := Run.pure_eq_done h
    exact ⟨[], b, o, b₁, rfl, hverify, rfl⟩
  | cons x rest ih =>
    obtain ⟨o', b₁, hverify, h⟩ := Run.bind_eq_done h
    obtain ⟨_, b₂, hreport, h⟩ := Run.bind_eq_done h
    obtain ⟨later, b₃, hlater, h⟩ := Run.bind_eq_done h
    obtain ⟨rfl, rfl⟩ := Run.pure_eq_done h
    obtain ⟨earlier, b₄, o, b₅, hearlier, ho, hat⟩ := ih hlater
    refine ⟨o' :: earlier, b₄, o, b₅, ?_, ho, by simpa using hat⟩
    rw [outcomes, Run.bind_done hverify, Run.bind_done hreport, Run.bind_done hearlier]
    rfl

theorem outcomes_getElem? {pending : List (Assertion α σ)} {index i : Nat} {a : Assertion α σ}
    (hat : pending[i]? = some a) (h : E.outcomes s grid index pending b = (.done os, b')) :
    ∃ earlier b₁ o b₂, E.outcomes s grid index (pending.take i) b = (.done earlier, b₁) ∧
      E.verify s grid a b₁ = (.done o, b₂) ∧ os[i]? = some o := by
  obtain ⟨hlength, hget⟩ := List.getElem?_eq_some_iff.mp hat
  have hsplit : pending = pending.take i ++ a :: pending.drop (i + 1) := by
    rw [← hget, ← List.drop_eq_getElem_cons, List.take_append_drop]
  rw [hsplit] at h
  obtain ⟨earlier, b₁, o, b₂, hearlier, hverify, ho⟩ := outcomes_append h
  rw [List.length_take, min_eq_left (Nat.le_of_lt hlength)] at ho
  exact ⟨earlier, b₁, o, b₂, hearlier, hverify, ho⟩

/-- While a scope is judged, nothing can be put down for its end: it is judged by what stood
there. -/
theorem judge_enrolled (hE : E.Respects Upkeep) {options : ScopeOptions} {ts : List VirtualTime}
    {asserted : List (Assertion α σ)} (h : b.Disciplined) (hg : s ∉ b.guarded)
    (henrolled : Enrolled s options c ts asserted b) (hjudge : E.judge s b = (.done os, b')) :
    ∃ b₁, E.advanceTo c (latest ts) (closing s (latest ts) b) = (.done (), b₁) ∧
      E.outcomes s options.grid 0 asserted
        (b₁.modifyScope s fun scope => { scope with pending := [] }) = (.done os, b') := by
  have hrow := henrolled.row
  rw [Scope.begun_owing] at hrow
  obtain ⟨b₁, hadvance, houtcomes⟩ := (judge_eq_done hrow).mp hjudge
  have hdriven := respects_advanceTo hE c (latest ts) (closing s (latest ts) b)
  rw [closing, hadvance] at hdriven
  have hclosed := (closed_closing h hrow hg (latest ts)).upkeep hdriven
  rw [hclosed.row] at houtcomes
  exact ⟨b₁, hadvance, houtcomes⟩

/-- The verdict on the invocations of a probe is one on all that the probe has noted when the
assertion comes to its turn. It is the verdict on what was noted in time just if nothing was noted
later, as it is while the clock has not run on, but not when anything else has made it run on. -/
theorem judge_invocations (hE : E.Respects Upkeep) (hlawful : E.Lawful) {options : ScopeOptions}
    {ts : List VirtualTime} {t : VirtualTime} {d : Diagram α SequenceError (Effect σ)}
    (hlived : b.Lived) (h : b.Disciplined) (hg : s ∉ b.guarded)
    (henrolled : Enrolled s options c ts
      (before ++ .effects p (effectsFrom t options d) :: after) b)
    (hjudge : E.judge s b = (.done os, b')) :
    ∃ b₁ earlier b₂, E.advanceTo c (latest ts) (closing s (latest ts) b) = (.done (), b₁) ∧
      E.outcomes s options.grid 0 before
        (b₁.modifyScope s fun scope => { scope with pending := [] }) = (.done earlier, b₂) ∧
      os[before.length]? =
        some (checkEffects options.grid (b₂.invocations p) (effectsFrom t options d)) ∧
      (os[before.length]? = some (checkEffects options.grid ((b₂.invocations p).filter fun u =>
          decide (u ≤ observedUntil t options d)) (effectsFrom t options d)) ↔
        ∀ u ∈ b₂.invocations p, u ≤ observedUntil t options d) ∧
      ((b₂.probes.get? p).map (·.clock) = some c → b₂.now c ≤ observedUntil t options d →
        ∀ u ∈ b₂.invocations p, u ≤ observedUntil t options d) := by
  obtain ⟨b₁, hadvance, houtcomes⟩ := judge_enrolled hE h hg henrolled hjudge
  obtain ⟨earlier, b₂, o, b₃, hearlier, hverify, hat⟩ := outcomes_append houtcomes
  obtain rfl : checkEffects options.grid (b₂.invocations p) (effectsFrom t options d) = o :=
    Outcome.done.inj (congrArg Prod.fst hverify)
  refine ⟨b₁, earlier, b₂, hadvance, hearlier, hat, ?_, fun hclock hreading u hu => ?_⟩
  · rw [hat, Option.some.injEq, eq_comm]
    exact checkEffects_filter_eq_iff _
  · obtain ⟨row, hrow, rfl⟩ := Option.map_eq_some_iff.mp hclock
    have hclosing : Reaches b (closing s (latest ts) b) :=
      (Change.enterPhase b s .ending).reaches.trans (Change.plain (.note _ _ rfl)).reaches
    have hdriven := respects_advanceTo hlawful row.clock (latest ts) (closing s (latest ts) b)
    rw [hadvance] at hdriven
    have hchecked := respects_outcomes hlawful s options.grid 0 before
      (b₁.modifyScope s fun scope => { scope with pending := [] })
    rw [hearlier] at hchecked
    have hreached : Reaches b b₂ :=
      ((hclosing.trans hdriven).trans (Change.takePending b₁ s).reaches).trans hchecked
    exact le_trans (((hlived.reaches hreached).stamped stamped_empty).le_now hrow u hu) hreading

/-- A diagram without any effects. -/
def blank : Diagram Int64 SequenceError (Effect (Callback Int64)) := ⟨"", ⟨[], none⟩, []⟩

/-- A scope with no padding, on whose clock a probe is to be invoked at 50. -/
def probing : Bench Int64 (Callback Int64) :=
  ((Scenario.fresh.beginScope ⟨default, default, .zero⟩).2.addProbe ⟨1⟩).2.schedule ⟨1⟩ (.clamp 50)
    (.invoke (.stamp ⟨0⟩))

/-- No invocation is expected, and something else is to be checked at 100. -/
def probed : Bench Int64 (Callback Int64) :=
  ((Callback.engine 9).enroll ⟨0⟩ (.assertion (.clamp 100) (.script []))
    ((Callback.engine 9).enroll ⟨0⟩ (.invocations ⟨0⟩ blank) probing).2).2

theorem judge_invocations_late :
    ∃ b₁ earlier b₂, (Callback.engine 9).advanceTo ⟨1⟩ (latest [.zero, .clamp 100])
        (closing ⟨0⟩ (latest [.zero, .clamp 100]) probed) = (.done (), b₁) ∧
      (Callback.engine 9).outcomes ⟨0⟩ default 0 []
        (b₁.modifyScope ⟨0⟩ fun scope => { scope with pending := [] }) = (.done earlier, b₂) ∧
      checkEffects default (b₂.invocations ⟨0⟩)
        (effectsFrom .zero ⟨default, default, .zero⟩ blank) = .error (.countMismatch 0 1) ∧
      ¬ ∀ u ∈ b₂.invocations ⟨0⟩, u ≤ observedUntil .zero ⟨default, default, .zero⟩ blank := by
  have hE := Scenario.upkeep_engine (α := Int64) 9
  have hlawful := Callback.lawful_engine (α := Int64) 9
  have hbegun := upkeep_beginScope (Scenario.fresh : Bench Int64 (Callback Int64))
    ⟨default, default, .zero⟩
  have hready : Upkeep (Scenario.fresh.beginScope ⟨default, default, .zero⟩).2 probing :=
    upkeep_of_eq rfl rfl rfl
  have hfirst := respects_enroll hE ⟨0⟩ (.invocations ⟨0⟩ blank) probing
  have hsecond := respects_enroll hE ⟨0⟩ (.assertion (.clamp 100) (.script []))
    ((Callback.engine 9).enroll ⟨0⟩ (.invocations ⟨0⟩ blank) probing).2
  have hkept : Upkeep Scenario.fresh probed :=
    trans_of Upkeep (trans_of Upkeep hbegun hready) (trans_of Upkeep hfirst hsecond)
  have hreached : Reaches Scenario.fresh probed :=
    ((((Change.plain (.beginScope _ _)).reaches.tail (.plain (.addProbe _ _))).tail
      (.plain (.schedule _ _ _ rfl))).trans
      (respects_enroll hlawful ⟨0⟩ (.invocations ⟨0⟩ blank) probing)).trans
      (respects_enroll hlawful ⟨0⟩ (.assertion (.clamp 100) (.script [])) _)
  have hopen : Enrolled ⟨0⟩ ⟨default, default, .zero⟩ ⟨1⟩ [] [] probing := .begun rfl
  have henrolled : Enrolled ⟨0⟩ ⟨default, default, .zero⟩ ⟨1⟩ [.zero, .clamp 100]
      ([] ++ .effects ⟨0⟩ (effectsFrom .zero ⟨default, default, .zero⟩ blank) ::
        [.check (.script [])]) probed :=
    (hopen.enroll _ (.invocations ⟨0⟩ blank)).enroll _ (.assertion (.clamp 100) (.script []))
  have hjudge : (Callback.engine 9).judge ⟨0⟩ probed =
      (.done [.error (.countMismatch 0 1), .ok ()], ((Callback.engine 9).judge ⟨0⟩ probed).2) := rfl
  obtain ⟨b₁, earlier, b₂, hadvance, hearlier, hat, -, -⟩ := judge_invocations hE hlawful
    (Scenario.lived_fresh.reaches hreached) (hkept Scenario.disciplined_fresh).disciplined
    (by decide) henrolled hjudge
  have hnoted : b₂.invocations ⟨0⟩ = [.clamp 50] := by
    obtain rfl := congrArg Prod.snd hadvance
    obtain ⟨-, rfl⟩ := Run.pure_eq_done hearlier
    rfl
  refine ⟨b₁, earlier, b₂, hadvance, hearlier, (Option.some.inj hat).symm, ?_⟩
  rw [hnoted]
  decide

end Engine

namespace Scenario

/-- How the last command of a script ends: with which failure, if any. -/
def lastFailure? (script : Script Int64) : Option (Option Error) :=
  (run script).getLast?.bind fun seen =>
    match seen.outcome with
    | .done (.ok _) => some none
    | .done (.error e) => some (some e)
    | _ => none

/-- What is invoked after the end of its window makes an expectation fail, if another assertion
makes the clock run on; without that assertion it does not. -/
theorem run_lateInvocation :
    lastFailure? [.beginScope "s" ⟨default, default, .zero⟩, .probe "p" (.scope "s"),
        .scheduleProbe "p" "s" (.clamp 50), .expectEffects (some "s") "p" ⟨"", []⟩,
        .registerAssertion (some "s") (.string "a") (.clamp 100) [], .endScope "s"] =
      some (some (.countMismatch 0 1)) ∧
    lastFailure? [.beginScope "s" ⟨default, default, .zero⟩, .probe "p" (.scope "s"),
        .scheduleProbe "p" "s" (.clamp 50), .expectEffects (some "s") "p" ⟨"", []⟩, .endScope "s"] =
      some none := by
  decide +kernel

end Scenario

end Marble
