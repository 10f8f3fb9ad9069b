import Marble.Proofs.Punctuality
import Marble.Proofs.Sessions

/-! The end of a timed run: what it subscribes to it has released by the time it returns, provided
its disposal does not come before its subscription. -/
namespace Marble

variable {α : Type} [Shown α]

/-- What a timed run has done once it is over. On one bench it has been opened, just when it was
due, and this has left the recorder with a subscription on the next. That subscription is the only
one it has made, and it has ended. If it was one to a source, its entry there has been closed. -/
structure Concluded (c : ClockRef) (r : RecorderRef) (factory : Callback α)
    (opens closes : VirtualTime) (b b₁ b₂ b' : Bench α (Callback α))
    (sub : SubscriptionRef) : Prop where
  before : Bench.Reaches b b₁
  opens : b₁.now c = opens
  opened : ∃ m, (Callback.engine (m + 1)).perform (.openRun r factory) b₁ = (.done (), b₂)
  held : b₂.held r = some sub
  after : Bench.Reaches b₂ b'
  ended : b'.isActive sub = false
  /-- The entry is the next one in the log of the source. It was made when the run was opened, and
  has been closed at some time from then to now, and no later than the run was to be. -/
  entry : ∀ s source, (Callback.sequence factory b₁).base = .source s →
    b₁.sources.get? s = some source →
      ∃ u, b'.record? s source.log.length = some ⟨b₁.now source.clock, some u⟩ ∧
        b₁.now source.clock ≤ u ∧ u ≤ b'.reading s ∧ (source.clock = c → u ≤ closes)

namespace Session

open Bench

variable {x : Session α} {b b' : Bench α (Callback α)} {sub : SubscriptionRef} {s : SourceRef}
  {source : Source α}

/-- A run that is opened on a source is entered in the log of the source. -/
theorem Opens.entry (h : x.Opens b b' sub)
    (hbase : (Callback.sequence x.factory b).base = .source s)
    (hs : b.sources.get? s = some source) :
    b'.leaves? sub = some (s, source.log.length) ∧
      b'.record? s source.log.length = some ⟨b.now source.clock, none⟩ := by
  let b₁ := b.note (.built (b.now x.home))
  let o : Observer α := ⟨(Callback.sequence x.factory b).stages, .recorder x.recorder⟩
  obtain ⟨m, hopened⟩ := h.opened
  have hsubscribe : (Callback.engine (m + 1)).subscribe (Callback.sequence x.factory b)
      (.recorder x.recorder) b₁ = (.done (b₁.attach s o).1, (b₁.attach s o).2) := by
    simp only [Engine.subscribe, hbase]
    rfl
  have hrun := (x.perform_opening m b).trans (Run.bind_done hsubscribe)
  obtain rfl : b' = (b₁.attach s o).2.hold x.recorder (some (b₁.attach s o).1) :=
    congrArg Prod.snd (hopened.symm.trans hrun)
  have hmade : ((b₁.attach s o).2.recorders.get? x.recorder).isSome := by
    rw [attach_recorders]
    exact isSome_recorder (b := b) h.reaches
  have hnext : b₁.subscriptions.next = sub := by
    have hheld := (held_hold hmade _).symm.trans h.held
    rw [attach_fst] at hheld
    exact Option.some.inj hheld
  have hs₁ : b₁.sources.get? s = some source := hs
  have hleaves := leaves?_attach hs₁ o sub
  have hrecord := record?_attach hs₁ o s source.log.length
  rw [if_pos hnext.symm] at hleaves
  rw [if_pos ⟨rfl, rfl⟩] at hrecord
  exact ⟨hleaves, hrecord⟩

/-- A run with nothing left to be done has been opened and closed. -/
theorem At.concluded (h : x.At b)
    (hpast : ∀ e ∈ b.agenda x.recorder x.clock, x.opens < e.time ∧ x.closes < e.time) :
    ∃ b₁ b₂ sub, Concluded x.clock x.recorder x.factory x.opens x.closes x.start b₁ b₂ b sub := by
  cases h with
  | waiting _ hdue =>
    have hopening := hpast x.opening (by simp [hdue x.clock])
    exact absurd hopening.1 (lt_irrefl _)
  | opened _ _ _ hdue =>
    have hclosing := hpast x.closing (by simp [hdue x.clock])
    exact absurd hclosing.2 (lt_irrefl _)
  | @closed b₁ b₂ b₃ _ sub hopens hafter hnow hended hrest hdue =>
    have hlived₁ : b₁.Lived := x.lived.reaches hopens.reaches
    have hlived₂ : b₂.Lived := hlived₁.reaches hopens.reaches_after
    have hlived₃ : b₃.Lived := hlived₂.reaches hafter
    have hstill : b.isActive sub = false := by
      have hmade := Nat.lt_of_lt_of_le hopens.made (Reaches.retains hlived₂.rostered hafter).next
      refine Bool.eq_false_iff.mpr fun hactive => ?_
      have hbefore := (Reaches.retains hlived₃.rostered hrest).active sub hmade hactive
      rw [hended] at hbefore
      cases hbefore
    refine ⟨b₁, b₂, sub, hopens.reaches, hopens.now, hopens.opened, hopens.held,
      hafter.trans hrest, hstill, fun s source hbase hs => ?_⟩
    obtain ⟨hleaves, hrecord⟩ := hopens.entry hbase hs
    obtain ⟨u, hclosed, hspan, hpast⟩ := hlived₂.record_of_ended hafter hleaves hrecord hended
    obtain ⟨⟨t, unsubscribed⟩, hfinal, hsame, hkept⟩ :=
      (hlived₃.amends hrest).entry s _ _ hclosed
    obtain rfl : t = b₁.now source.clock := hsame
    obtain rfl : unsubscribed = some u := hkept u rfl
    refine ⟨u, hfinal, hspan, ?_, fun hclock => ?_⟩
    · exact ((hlived₃.amends hrest).logged.closed s _ _ u hfinal rfl).2
    · obtain ⟨source', hs', hclock'⟩ :=
        (hlived₁.amends (hopens.reaches_after.trans hafter)).clock s source hs
      rwa [reading_of_source hs', hclock', hclock, hnow] at hpast

/-! ### Preparing a run -/

variable {c : ClockRef} {home : ClockRef} {recipe : Recipe α} {options : RunOptions}

/-- The run that is prepared on a bench. What is past is due at once. -/
def prepare (hb : b.Lived) (c home : ClockRef) (recipe : Recipe α) (options : RunOptions) :
    Session α where
  start := Engine.prepared b c (.factory home [] recipe) options
  clock := c
  recorder := b.recorders.next
  home := home
  recipe := recipe
  opens := max options.subscribeAt (b.now c)
  closes := max options.disposeAt (b.now c)
  lived := hb.reaches (reaches_prepared b c _ options)
  made := by
    rw [recorders_prepared, Table.next_push]
    exact Nat.lt_succ_self _

/-- A run that has been prepared waits to be opened first, unless it is to be closed before that. -/
theorem at_prepare (hb : b.Acquainted) (hc : (b.clocks.get? c).isSome)
    (hdispose : options.disposeAt.isNever = false)
    (horder : max options.subscribeAt (b.now c) ≤ max options.disposeAt (b.now c)) :
    (prepare hb.lived c home recipe options).At
      (Engine.prepared b c (.factory home [] recipe) options) := by
  let b₁ := (b.addRecorder c).2
  let b₂ := b₁.schedule c options.subscribeAt (.openRun b.recorders.next (.factory home [] recipe))
  have hprepared : Engine.prepared b c (.factory home [] recipe) options =
      b₂.schedule c options.disposeAt (.closeRun b.recorders.next) := by
    simp only [Engine.prepared, hdispose, Bool.false_eq_true, ↓reduceIte]
    rfl
  have hlived₁ : b₁.Lived := hb.lived.reaches (Change.plain (.addRecorder b c)).reaches
  have hlived₂ : b₂.Lived := hlived₁.reaches (Change.plain (.schedule b₁ c _ rfl)).reaches
  have hnow₁ : b₁.now c = b.now c := rfl
  have hnow₂ : b₂.now c = b.now c := (rests_schedule b₁ c c options.subscribeAt _).now
  have hc₂ : (b₂.clocks.get? c).isSome := by
    change ((b.clocks.modify c _).get? c).isSome
    rwa [Table.isSome_get?_modify]
  have hnone : ∀ c', b₁.agenda b.recorders.next c' = [] := hb.unmade _ (Nat.le_refl _)
  refine .waiting .refl fun c' => ?_
  change (Engine.prepared b c (.factory home [] recipe) options).agenda b.recorders.next c' =
    if c' = c then _ else _
  rw [hprepared, agenda_schedule hlived₂ hc₂ rfl, agenda_schedule hlived₁ hc rfl, hnone,
    hnow₁, hnow₂]
  by_cases hc' : c = c'
  · rw [if_pos hc', if_pos hc', if_pos hc'.symm]
    exact Timeline.insert_cons.trans (if_neg (not_lt.mpr horder))
  · rw [if_neg hc', if_neg hc', if_neg (Ne.symm hc')]

end Session

namespace Scenario

open Bench

variable {b b' : Bench α (Callback α)} {c home : ClockRef} {recipe : Recipe α}
  {options : RunOptions} {messages : List (Timed (Signal α))}

/-- A timed run releases what it subscribes to. Whatever else is queued on the clocks, and whoever
drives them meanwhile: if a run is to be disposed of, not before it is to subscribe, and stopped
before neither, then by the time it returns it has subscribed once and ended that subscription, with
its entry in the log of a source closed. Only where it is to stop before now, it has not subscribed
yet. -/
theorem start_releases (fuel : Nat) (hb : b.Acquainted) (hc : (b.clocks.get? c).isSome)
    (hdispose : options.disposeAt.isNever = false)
    (hstop : options.stopAt.isNever ∨
      options.subscribeAt ≤ options.stopAt ∧ options.disposeAt ≤ options.stopAt)
    (horder : max options.subscribeAt (b.now c) ≤ max options.disposeAt (b.now c))
    (h : (Callback.engine fuel).start c (.factory home [] recipe) options b =
      (.done messages, b')) :
    (options.stopAt < b.now c ∧ b' = Engine.prepared b c (.factory home [] recipe) options) ∨
      ∃ b₁ b₂ sub, Concluded c b.recorders.next (.factory home [] recipe)
        (max options.subscribeAt (b.now c)) (max options.disposeAt (b.now c))
        (Engine.prepared b c (.factory home [] recipe) options) b₁ b₂ b' sub := by
  let x := Session.prepare hb.lived c home recipe options
  have hat : x.At x.start := Session.at_prepare hb hc hdispose horder
  have hengine : (Callback.engine fuel).Respects x.Proceeds := Callback.permits_engine fuel
  rw [Engine.start_eq] at h
  obtain ⟨_, b₁, hrun, hread⟩ := Run.bind_eq_done h
  obtain rfl : b₁ = b' := congrArg Prod.snd hread
  by_cases hnever : options.stopAt.isNever = true
  · rw [if_pos hnever] at hrun
    -- Nothing is due at any time, so neither action of the run is still queued.
    have hdone : x.At b₁ := (Engine.respects_runUntilIdle hengine c).of_eq hrun hat
    refine Or.inr (hdone.concluded fun e he => ?_)
    have hlate := lt_of_mem_agenda hdone.lived (Engine.next?_of_drainWith hrun) e he
    exact absurd (VirtualTime.le_never e.time) (not_le.mpr hlate)
  · rw [if_neg hnever] at hrun
    obtain ⟨hsubscribe, hdisposal⟩ := hstop.resolve_left hnever
    rcases lt_or_ge options.stopAt (b.now c) with hpast | hahead
    -- What was to be done by an instant that is past is due now, so an advance to it starts
    -- nothing.
    · have hfuel : 0 < fuel := by
        refine Nat.pos_of_ne_zero ?_
        rintro rfl
        obtain ⟨b₂, hdrain, -⟩ := Engine.advanceTo_eq_done.mp hrun
        cases hdrain
      have hidle := Engine.advanceTo_past (E := Callback.engine fuel) x.lived
        (lt_of_lt_of_eq hpast (now_prepared b c _ options).symm) hfuel
      exact Or.inl ⟨hpast, congrArg Prod.snd (hrun.symm.trans hidle)⟩
    · obtain ⟨b₂, hdrain, rfl⟩ := Engine.advanceTo_eq_done.mp hrun
      have hdrained : x.At b₂ :=
        (Engine.respects_drain hengine c options.stopAt).of_eq hdrain hat
      have hdone : x.At (b₂.park c options.stopAt) :=
        (Engine.respects_advanceTo hengine c options.stopAt).of_eq hrun hat
      refine Or.inr (hdone.concluded fun e he => ?_)
      have hqueued : (b₂.park c options.stopAt).agenda x.recorder x.clock =
          b₂.agenda x.recorder x.clock := agenda_park ..
      rw [hqueued] at he
      have hlate := lt_of_mem_agenda hdrained.lived (Engine.next?_of_drainWith hdrain) e he
      exact ⟨lt_of_le_of_lt (max_le hsubscribe hahead) hlate,
        lt_of_le_of_lt (max_le hdisposal hahead) hlate⟩

/-- A cold source, and an action that drives the clock on by itself. -/
def restless : Bench Int64 (Callback Int64) :=
  after (Callback.engine 9) [.source "x" .cold (.events "main" [⟨.clamp 2, .next 7⟩]),
    .scheduleAt "main" (.clamp 1) (.string "a") [.advanceTo "main" (.clamp 5)]] fresh

/-- The run is opened by an action that drives the clock past the time for it. -/
theorem start_releases_restless :
    ∃ messages b', (Callback.engine 9).start ⟨0⟩ (.factory ⟨0⟩ [] ⟨.source "x", []⟩)
        ⟨.clamp 3, .clamp 8, .clamp 9⟩ restless = (.done messages, b') ∧
      ∃ b₁ b₂ sub, Concluded ⟨0⟩ ⟨0⟩ (.factory ⟨0⟩ [] ⟨.source "x", []⟩) (.clamp 3) (.clamp 8)
        (Engine.prepared restless ⟨0⟩ (.factory ⟨0⟩ [] ⟨.source "x", []⟩)
          ⟨.clamp 3, .clamp 8, .clamp 9⟩) b₁ b₂ b' sub := by
  obtain ⟨messages, b', hrun⟩ : ∃ messages b', (Callback.engine 9).start ⟨0⟩
      (.factory ⟨0⟩ [] ⟨.source "x", []⟩) ⟨.clamp 3, .clamp 8, .clamp 9⟩ restless =
        (.done messages, b') := ⟨_, _, rfl⟩
  refine ⟨messages, b', hrun,
    (start_releases 9 (acquainted_after 9 _) ?_ ?_ (Or.inr ?_) ?_ hrun).resolve_left ?_⟩
  · rfl
  · rfl
  · exact ⟨by decide, by decide⟩
  · decide
  · exact fun h => absurd h.1 (by decide)

/-- A run that is to be disposed of before it is to subscribe never ends its subscription. -/
theorem start_releases_reversed :
    ∃ messages b', (Callback.engine 9).start ⟨0⟩ (.factory ⟨0⟩ [] ⟨.source "x", []⟩)
        ⟨.clamp 20, .clamp 10, .never⟩ restless = (.done messages, b') ∧
      (b'.sources.get? ⟨0⟩).map (·.log) = some [⟨.clamp 20, none⟩] :=
  ⟨_, _, rfl, by decide⟩

end Scenario

end Marble
