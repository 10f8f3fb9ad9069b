import Marble.Proofs.Invocations
import Marble.Proofs.Judgement
import Marble.Proofs.Phases
import Marble.Proofs.Playing

/-! Expectations in one scope do not interfere: what comes of one of them is read off the score, in
which the others and all else that is put down for the end of the scope leave no trace. -/
namespace Marble

open Bench

variable {α σ : Type} {E : Engine α σ} {b b' : Bench α σ} {s : ScopeRef} {c : ClockRef}
  {r : RecorderRef} {options : ScopeOptions} {ts : List VirtualTime}
  {asserted : List (Assertion α σ)}
  {limit : VirtualTime} {tl : List (Timed (Signal α))} {tap : Tap α} {row : Recorder α}
  {index : Nat} {outcome : Except Error Unit}

namespace Bench

/-! ### A recording that is over -/

/-- The recording of a recorder is over, with these events. -/
def Recorded (b : Bench α σ) (r : RecorderRef) (tl : List (Timed (Signal α))) : Prop :=
  ∃ row, b.recorders.get? r = some row ∧ row.state ≠ .listening ∧ row.messages.toList = tl

theorem Recorded.messages (h : b.Recorded r tl) : b.messages r = tl := by
  obtain ⟨row, hrow, -, hmessages⟩ := h
  simp [Bench.messages, hrow, hmessages]

theorem Recorded.congr (h : b.Recorded r tl) (hrecorders : b'.recorders = b.recorders) :
    b'.Recorded r tl := by rwa [Recorded, hrecorders]

/-- A recorder that listens no more takes nothing in. -/
theorem Recorded.modify (h : b.Recorded r tl) (r' : RecorderRef) {f : Recorder α → Recorder α}
    (hf : ∀ row : Recorder α, row.state ≠ .listening →
      (f row).state ≠ .listening ∧ (f row).messages = row.messages) :
    ({ b with recorders := b.recorders.modify r' f } : Bench α σ).Recorded r tl := by
  obtain ⟨row, hrow, hstate, hmessages⟩ := h
  change ∃ row, (b.recorders.modify r' f).get? r = some row ∧ _
  rw [Table.get?_modify, hrow]
  split
  · exact ⟨f row, rfl, (hf row hstate).1, by rw [(hf row hstate).2, hmessages]⟩
  · exact ⟨row, rfl, hstate, hmessages⟩

theorem Plain.recorded (h : Plain b b') (hb : b.Recorded r tl) : b'.Recorded r tl := by
  cases h with
  | addRecorder c =>
    obtain ⟨row, hrow, hover⟩ := hb
    refine ⟨row, ?_, hover⟩
    change (b.recorders.push { clock := c }).get? r = some row
    rw [Table.get?_push, if_neg, hrow]
    rintro rfl
    simp [Table.get?_next] at hrow
  | record r' n =>
    exact hb.modify r' fun row hstate => by simp [Recorder.record, hstate]
  | detach r' =>
    exact hb.modify r' fun row hstate => by simp [Recorder.detach, hstate]
  | hold r' held => exact hb.modify r' fun row hstate => ⟨hstate, rfl⟩
  | addSource temperature c events => exact hb.congr (b.addSource_fields temperature c events).1
  | attach s o => exact hb.congr (attach_recorders b s o)
  | register s t a =>
    refine hb.congr ?_
    rw [Bench.register]
    split <;> rfl
  | start hn =>
    obtain ⟨clocks, log, rfl⟩ := next?_rest hn
    exact hb.congr rfl
  | _ => exact hb.congr rfl

theorem Reaches.recorded (h : Reaches b b') (hb : b.Recorded r tl) : b'.Recorded r tl := by
  induction h with
  | refl => exact hb
  | tail _ hstep ih =>
    cases hstep with
    | plain h => exact h.recorded ih
    | _ => exact ih.congr rfl

end Bench

/-- The outcome of an expectation that is made when some of a score has been played. -/
def Expectation.judgement [Shown α] (x : Expectation α σ) (options : ScopeOptions) (sc : Score α) :
    Except Error Unit :=
  checkEvents x.compare options.grid (x.timeline options sc)
    (Engine.expected x.diagram options sc.now)

namespace Engine

/-! ### The end of a scope -/

/-- A scope begins on a bench, and everything goes on quietly. -/
theorem staged_beginScope (hb : b.Lived) (options : ScopeOptions) :
    (b.beginScope options).2.Staged b.scopes.next b.clocks.next options [] [] := by
  have hclock := b.beginScope_clock options
  refine ⟨⟨hb.reaches (Change.plain (.beginScope b options)).reaches, by simp [hclock], ?_⟩, ?_⟩
  · simp [Bench.clock, hclock]
  · rw [beginScope_row]
    simp [Scope.owing, Scope.begun]

/-- The scope of the bench on which the clock of a staged one is driven to its horizon. -/
theorem row_closing (h : b.Staged s c options ts asserted) :
    (closing s (latest ts) b).scopes.get? s =
      some { (Scope.begun c options).owing ts asserted with phase := .ending } := by
  simp [closing, Bench.note, get?_modifyScope, h.row]

theorem quiet_closing (h : b.Staged s c options ts asserted) (horizon : VirtualTime) :
    (closing s horizon b).Quiet c where
  lived := h.lived.reaches
    ((Change.enterPhase b s .ending).reaches.trans (Change.plain (.note _ _ rfl)).reaches)
  clock := h.clock
  mute p hp := (h.mute p hp).maintained (maintains_of_eq rfl rfl rfl)

/-- What a recorder is going to have taken in by the horizon, it has taken in when the clock gets
there. -/
theorem recorded_closing (hE : E.Lawful) (h : b.Staged s c options ts asserted)
    (htap : tap.Tracks c limit tl b row) (hlimit : limit ≤ latest ts)
    (hfuel : (b.clock c).queue.length < E.fuel) :
    ∃ b₁, E.advanceTo c (latest ts) (closing s (latest ts) b) = (.done (), b₁) ∧
      b₁.scopes = (closing s (latest ts) b).scopes ∧ b₁.Recorded tap.recorder tl := by
  have hquiet := quiet_closing h (latest ts)
  have hclosing : tap.Tracks c limit tl (closing s (latest ts) b) row :=
    htap.aside rfl rfl rfl rfl
  obtain ⟨ran, b₁, hruns, hnext, hadvance⟩ := hquiet.advanceTo hE hfuel (latest ts)
  obtain ⟨hquiet₁, hplayed⟩ := hquiet.runs hE hruns
  obtain ⟨row₁, htap₁⟩ := hclosing.runs hE hquiet hruns
  have hlate := (hquiet₁.lived.ordered c).lt_of_next?_eq_none (clock_next?_eq_none hnext)
  obtain ⟨hstate, hmessages⟩ := htap₁.finished fun p hp => lt_of_le_of_lt hlimit (hlate p hp)
  exact ⟨b₁.park c (latest ts), hadvance, hplayed.scopes, row₁, htap₁.recorder, hstate, hmessages⟩

variable [Shown α]

/-- What comes at the end of a scope of an expectation whose assertion stands under an index. -/
structure ComesTo (E : Engine α σ) (s : ScopeRef) (x : Expectation α σ) (index : Nat)
    (outcome : Except Error Unit) (b : Bench α σ) : Prop where
  /-- The clock gets to the horizon, and once the assertions before this one have been checked, the
  check of this one has this outcome. -/
  turn : ∃ scope r expected b₁, b.scopes.get? s = some scope ∧
    scope.pending[index]? = some (.events r x.diagram.source expected x.compare) ∧
    E.advanceTo scope.clock scope.horizon (closing s scope.horizon b) = (.done (), b₁) ∧
    (b₁.scopes.get? s).map (·.pending) = some scope.pending ∧
    ∀ earlier b₂, E.outcomes s scope.options.grid 0 (scope.pending.take index)
        (b₁.modifyScope s fun scope => { scope with pending := [] }) = (.done earlier, b₂) →
      ∃ b₃, E.verify s scope.options.grid (.events r x.diagram.source expected x.compare) b₂ =
        (.done outcome, b₃)
  /-- When the scope has ended, it has answered with the verdict on outcomes with this one among
  them. -/
  answer : ∀ answer, (E.endScope s b).1 = .done answer →
    ∃ os b', E.judge s b = (.done os, b') ∧ answer = verdict os ∧ os[index]? = some outcome

/-- The expectation of a recorder is judged by what the recorder was going to have taken in,
whatever the assertions before it do. -/
theorem comesTo_staged (hE : E.Lawful) (h : b.Staged s c options ts asserted)
    (htap : tap.Tracks c limit tl b row) (hlimit : limit ≤ latest ts)
    (hfuel : (b.clock c).queue.length < E.fuel) {rest : List ScopeRef}
    (hstack : b.stack = s :: rest) {x : Expectation α σ} {expected : List (Timed (Signal α))}
    (hat : asserted[index]? = some (.events tap.recorder x.diagram.source expected x.compare)) :
    E.ComesTo s x index (checkEvents x.compare options.grid tl expected) b := by
  obtain ⟨b₁, hadvance, hscopes, hrecorded⟩ := recorded_closing hE h htap hlimit hfuel
  have hrow := h.row
  rw [Scope.begun_owing] at hrow
  have hpending : (b₁.scopes.get? s).map (·.pending) = some asserted := by
    rw [hscopes, row_closing h, Scope.begun_owing]
    rfl
  have hturn : ∀ earlier b₂, E.outcomes s options.grid 0 (asserted.take index)
      (b₁.modifyScope s fun scope => { scope with pending := [] }) = (.done earlier, b₂) →
        ∃ b₃, E.verify s options.grid (.events tap.recorder x.diagram.source expected x.compare)
          b₂ = (.done (checkEvents x.compare options.grid tl expected), b₃) := by
    intro earlier b₂ hearlier
    have hchecked := respects_outcomes hE s options.grid 0 (asserted.take index)
      (b₁.modifyScope s fun scope => { scope with pending := [] })
    rw [hearlier] at hchecked
    have htaken : (b₁.modifyScope s fun scope => { scope with pending := [] }).Recorded
        tap.recorder tl := hrecorded.congr rfl
    rw [← (hchecked.recorded htaken).messages]
    exact Engine.verify_events_done _ options.grid tap.recorder x.diagram.source expected
      x.compare b₂
  refine ⟨⟨_, _, _, b₁, hrow, hat, hadvance, hpending, hturn⟩, fun answer hanswer => ?_⟩
  obtain ⟨os, b₂, hjudge, hverdict⟩ :=
    (settle_eq_done hrow).mp ((endScope_eq_done hstack).mp hanswer)
  refine ⟨os, b₂, hjudge, hverdict, ?_⟩
  obtain ⟨b₁', hadvance', houtcomes⟩ := (judge_eq_done hrow).mp hjudge
  obtain rfl : b₁ = b₁' := congrArg Prod.snd (hadvance.symm.trans hadvance')
  rw [hpending, Option.getD_some] at houtcomes
  obtain ⟨earlier, b₃, o, b₄, hearlier, hverify, ho⟩ := outcomes_getElem? hat houtcomes
  obtain ⟨b₅, hchecked⟩ := hturn earlier b₃ hearlier
  obtain rfl := Outcome.done.inj (congrArg Prod.fst (hverify.symm.trans hchecked))
  exact ho

/-- If there is nothing else to be checked, the scope ends with this outcome. -/
theorem ComesTo.alone {x : Expectation α σ} (h : E.ComesTo s x 0 outcome b) {rest : List ScopeRef}
    (hstack : b.stack = s :: rest) {scope : Scope α σ} (hs : b.scopes.get? s = some scope)
    (hone : scope.pending.length = 1) : (E.endScope s b).1 = .done outcome := by
  obtain ⟨scope', r, expected, b₁, hs', hat, hadvance, hpending, hturn⟩ := h.turn
  obtain rfl : scope = scope' := Option.some.inj (hs.symm.trans hs')
  obtain ⟨a, ha⟩ := List.length_eq_one_iff.mp hone
  obtain rfl : a = .events r x.diagram.source expected x.compare := by simpa [ha] using hat
  obtain ⟨b₂, hverify⟩ := hturn [] _ rfl
  obtain ⟨b₃, houtcomes⟩ := outcomes_singleton hverify 0
  have hjudge : E.judge s b = (.done [outcome], b₃) := by
    refine (judge_eq_done hs).mpr ⟨b₁, hadvance, ?_⟩
    rw [hpending, Option.getD_some, ha]
    exact houtcomes
  exact (endScope_eq_done hstack).mpr
    ((settle_eq_done hs).mpr ⟨[outcome], b₃, hjudge, (verdict_singleton outcome).symm⟩)

/-! ### Expectations among other calls -/

/-- Whatever is called before and after, what comes of an expectation is read off the score. -/
theorem comesTo_performs (hE : E.Lawful) (h : b.Staged s c options [] []) {rest : List ScopeRef}
    (hstack : b.stack = s :: rest) (before : List (ScopeCall α σ)) (x : Expectation α σ)
    (after : List (ScopeCall α σ)) (hfuel : (b.clock c).queue.length +
      (b.score c).load (before ++ .expect x :: after) < E.fuel) :
    ∃ ts asserted b', E.Performs s c options (before ++ .expect x :: after) [] [] b ts asserted b' ∧
      E.ComesTo s x (before.countP ScopeCall.enrolls)
        (x.judgement options ((b.score c).play before)) b' := by
  rw [List.append_cons] at hfuel ⊢
  have hload := Score.load_append (b.score c) (before ++ [.expect x]) after
  have hload' := Score.load_append (b.score c) before [.expect x]
  obtain ⟨ts₁, asserted₁, b₁, hbefore⟩ := performs hE h before (by omega)
  have hthere := hbefore.append (performs_expect hbefore.staged x)
  have hqueue := hthere.carries.queue
  have hscore := hthere.carries.score
  obtain ⟨ts₃, asserted₃, b₃, hafter⟩ := performs hE hthere.staged after (by rw [hscore]; omega)
  have hall := hthere.append hafter
  have hqueue₃ := hall.carries.queue
  obtain ⟨row, htap⟩ := hafter.carries.tracks _ _ _ _
    (hbefore.staged.toQuiet.tracks_expecting x)
  have hdue : x.due options (b₁.now c) ≤
      latest ([] ++ (ts₁ ++ [x.due options (b₁.now c)] ++ ts₃)) :=
    (VirtualTime.le_foldl_max _ _).2 _ (by simp)
  have hat : ([] ++ (asserted₁ ++ [x.assertion options (b₁.now c) b₁.recorders.next] ++
      asserted₃))[asserted₁.length]? =
        some (x.assertion options (b₁.now c) b₁.recorders.next) := by simp
  refine ⟨_, _, b₃, hall, ?_⟩
  rw [← hbefore.carries.score, ← hbefore.count]
  exact comesTo_staged hE hall.staged htap hdue (by omega) (hall.carries.stack.trans hstack) hat

/-- Expectations in one scope do not interfere. Whatever sources are made and whatever instants the
clock is taken to, and whatever else is expected or asserted before and after: what comes of an
expectation when the scope ends is what comes of it when nothing else has been put down for its end.
There has to be fuel for all that the calls queue. -/
theorem expectations_independent (hE : E.Lawful) (hb : b.Lived) (options : ScopeOptions)
    (before : List (ScopeCall α σ)) (x : Expectation α σ) (after : List (ScopeCall α σ))
    (hfuel : ((b.beginScope options).2.score b.clocks.next).load (before ++ .expect x :: after) <
      E.fuel) :
    ∃ outcome b₁ b₂,
      E.play b.scopes.next b.clocks.next (before ++ .expect x :: after) (b.beginScope options).2 =
        (.done (.ok ()), b₁) ∧
      E.ComesTo b.scopes.next x (before.countP ScopeCall.enrolls) outcome b₁ ∧
      E.play b.scopes.next b.clocks.next (before.filter (fun call => !call.enrolls) ++
        .expect x :: after.filter fun call => !call.enrolls) (b.beginScope options).2 =
          (.done (.ok ()), b₂) ∧
      E.ComesTo b.scopes.next x 0 outcome b₂ ∧ (E.endScope b.scopes.next b₂).1 = .done outcome := by
  have hstaged := staged_beginScope hb options
  have hempty : ((b.beginScope options).2.clock b.clocks.next).queue.length = 0 := by
    simp [Bench.clock, b.beginScope_clock options]
  have hstack : (b.beginScope options).2.stack = b.scopes.next :: b.stack := rfl
  have halone := Score.load_alone_le ((b.beginScope options).2.score b.clocks.next) before x after
  obtain ⟨_, _, b₁, hall, hcomes⟩ := comesTo_performs hE hstaged hstack before x after (by omega)
  obtain ⟨ts, asserted, b₂, hsolo, hcomes₂⟩ := comesTo_performs hE hstaged hstack
    (before.filter fun call => !call.enrolls) x (after.filter fun call => !call.enrolls) (by omega)
  have hone : asserted.length = 1 := by
    rw [hsolo.count, List.countP_append, List.countP_cons, Score.countP_filter, Score.countP_filter]
    rfl
  rw [Score.play_filter, Score.countP_filter] at hcomes₂
  exact ⟨_, b₁, b₂, hall.run, hcomes, hsolo.run, hcomes₂,
    hcomes₂.alone (hsolo.carries.stack.trans hstack) hsolo.staged.row hone⟩

end Engine

/-! ### Two that listen to one source -/

namespace Scenario

/-- A hot source speaks at 10, 20 and 30. -/
def speaking : ScopeCall Int64 (Callback Int64) :=
  .source .hot ⟨1⟩ [⟨.clamp 10, .next 7⟩, ⟨.clamp 20, .next 8⟩, ⟨.clamp 30, .completed⟩]

/-- The source is expected to say all of that from now on. -/
def hearingAll : Expectation Int64 (Callback Int64) where
  source := ⟨0⟩
  stages := []
  silent := by simp
  diagram := ⟨"-ab|", ⟨[(⟨'a'⟩, .value 7), (⟨'b'⟩, .value 8)], none⟩,
    [(1, .notify (.next 7)), (2, .notify (.next 8)), (3, .notify .completed)]⟩
  compare := .structural

/-- From 10 on, nothing but its end is expected behind a stage that drops values. -/
def hearingEnd : Expectation Int64 (Callback Int64) where
  source := ⟨0⟩
  stages := [.filter fun _ => false]
  silent := by simp [Stage.isSilent]
  diagram := ⟨"--|", ⟨[], none⟩, [(2, .notify .completed)]⟩
  compare := .structural

/-- Two that listen to the same source, one of which fails, do not keep a third from being right. -/
theorem expectations_independent_shared :
    ∃ b₁, (Callback.engine 20).play ⟨0⟩ ⟨1⟩
        ([speaking, .expect hearingAll, .advanceTo (.clamp 10)] ++
          .expect hearingEnd :: [.expect hearingAll, .assert (.clamp 500) (.script [])])
        (Scenario.fresh.beginScope ⟨default, .exact, .zero⟩).2 = (.done (.ok ()), b₁) ∧
      (Callback.engine 20).ComesTo ⟨0⟩ hearingEnd 1 (.ok ()) b₁ := by
  obtain ⟨outcome, b₁, b₂, hplay, hcomes, hsolo, -, hend⟩ := Engine.expectations_independent
    (Callback.lawful_engine 20) lived_fresh ⟨default, .exact, .zero⟩
    [speaking, .expect hearingAll, .advanceTo (.clamp 10)] hearingEnd
    [.expect hearingAll, .assert (.clamp 500) (.script [])] (by decide)
  obtain rfl := congrArg Prod.snd hsolo
  obtain rfl : Except.ok () = outcome := Outcome.done.inj hend
  exact ⟨b₁, hplay, hcomes⟩

end Scenario

end Marble
