import Marble.Proofs.Enrolment
import Marble.Proofs.Ledger
import Marble.Proofs.Queued

/-! A timed run on its way: first nothing of it has happened, then it has been opened, and at last
it has been closed. Whatever else goes on, and whoever drives the clock, the two actions that were
queued for it start once each, in the order of their times. -/
namespace Marble

variable {α σ : Type}

/-- An action, if it opens or closes the run of a recorder. -/
def Action.ofRun? (r : RecorderRef) (a : Action α σ) : Option (Action α σ) :=
  if a.run? = some r then some a else none

theorem Action.ofRun?_of_eq {r : RecorderRef} {a : Action α σ} (h : a.run? = some r) :
    a.ofRun? r = some a := if_pos h

theorem Action.ofRun?_of_ne {r : RecorderRef} {a : Action α σ} (h : a.run? ≠ some r) :
    a.ofRun? r = none := if_neg h

namespace Bench

variable {b b' b'' : Bench α σ} {c c' : ClockRef} {r : RecorderRef} {a : Action α σ}
  {limit target : VirtualTime}

/-- What is queued on a clock to open or to close the run of a recorder. -/
def agenda (b : Bench α σ) (r : RecorderRef) (c : ClockRef) : List (Timed (Action α σ)) :=
  picked (Action.ofRun? r) (b.clock c).queue

theorem agenda_of_clock (h : b'.clock c = b.clock c) : b'.agenda r c = b.agenda r c :=
  queued_of_clock h

theorem agenda_schedule_of_ne (h : a.run? ≠ some r) (b : Bench α σ) (c' : ClockRef)
    (due : VirtualTime) (c : ClockRef) : (b.schedule c' due a).agenda r c = b.agenda r c :=
  ignores_schedule (Action.ofRun?_of_ne h) b c' due c

/-- What is queued for a run comes behind all of it that is due no later. -/
theorem agenda_schedule (hb : b.Lived) (hc : (b.clocks.get? c').isSome) (h : a.run? = some r)
    (due : VirtualTime) (c : ClockRef) :
    (b.schedule c' due a).agenda r c =
      if c' = c then Timeline.insert ⟨max due (b.now c'), a⟩ (b.agenda r c) else b.agenda r c :=
  queued_schedule (hb.ordered c') hc (Action.ofRun?_of_eq h) due c

/-- The start of an action takes it off the agenda of its run, and leaves every other agenda
alone. -/
theorem agenda_next? (hb : b.Lived) (hn : b.next? c limit = some (a, b')) :
    (a.run? ≠ some r → ∀ c', b'.agenda r c' = b.agenda r c') ∧
      (a.run? = some r → b.agenda r c = ⟨b'.now c, a⟩ :: b'.agenda r c ∧
        ∀ c', c' ≠ c → b'.agenda r c' = b.agenda r c') :=
  ⟨fun hne => ignores_next? (Action.ofRun?_of_ne hne) hn,
    fun heq => queued_next? (hb.ordered c) (Action.ofRun?_of_eq heq) hn⟩

/-- With nothing due by an instant, what is on an agenda is due after it. -/
theorem lt_of_mem_agenda (hb : b.Lived) (hn : b.next? c limit = none) :
    ∀ e ∈ b.agenda r c, limit < e.time := lt_of_mem_queued (hb.ordered c) hn

theorem held_hold_of_ne {r' : RecorderRef} (h : r' ≠ r) (b : Bench α σ)
    (s : Option SubscriptionRef) : (b.hold r' s).held r = b.held r := by
  simp [held, hold, Table.get?_modify, h]

theorem held_hold (h : (b.recorders.get? r).isSome) (s : Option SubscriptionRef) :
    (b.hold r s).held r = s := by
  obtain ⟨row, hrow⟩ := Option.isSome_iff_exists.mp h
  simp [held, hold, Table.get?_modify, hrow]

/-! ### What has nothing to do with a run -/

/-- From one bench to another, the run of a recorder is neither opened nor closed, nor queued to
be. -/
structure Bypasses (r : RecorderRef) (b b' : Bench α σ) : Prop where
  agenda : ∀ c, b'.agenda r c = b.agenda r c
  held : b'.held r = b.held r

instance : IsPreorder (Bench α σ) (Bypasses r) where
  refl _ := ⟨fun _ => rfl, rfl⟩
  trans _ _ _ h h' := ⟨fun c => (h'.agenda c).trans (h.agenda c), h'.held.trans h.held⟩

theorem bypasses_schedule (h : a.run? ≠ some r) (b : Bench α σ) (c : ClockRef)
    (due : VirtualTime) : Bypasses r b (b.schedule c due a) :=
  ⟨agenda_schedule_of_ne h b c due, rfl⟩

theorem bypasses_aside (hclock : ∀ c, b'.clock c = b.clock c) (hheld : b'.held r = b.held r) :
    Bypasses r b b' := ⟨fun c => agenda_of_clock (hclock c), hheld⟩

theorem agenda_park (b : Bench α σ) (c' : ClockRef) (target : VirtualTime) (r : RecorderRef)
    (c : ClockRef) : (b.park c' target).agenda r c = b.agenda r c := ignores_park b c' target c

theorem Tame.bypasses (h : Tame b b') (r : RecorderRef) : Bypasses r b b' := by
  have hqueued : ∀ {a : Action α σ}, a.run? = none → ∀ (b : Bench α σ) (c : ClockRef)
      (due : VirtualTime), Bypasses r b (b.schedule c due a) := fun ha b c due =>
    bypasses_schedule (by simp [ha]) b c due
  cases h with
  | aside h hclock hheld => exact bypasses_aside hclock (hheld r)
  | schedule c due ha hr => exact hqueued hr b c due
  | @park c target h => exact ⟨agenda_park b c target r, rfl⟩
  | addSource temperature c events =>
    exact keeps_addSource b temperature c events (bypasses_aside (fun _ => rfl) rfl)
      fun b' due n => hqueued rfl b' c due
  | attach s o =>
    exact keeps_attach b s o (bypasses_aside (fun _ => rfl) rfl)
      (fun _ _ _ _ => bypasses_aside (fun _ => rfl) rfl) fun b' c due n => hqueued rfl b' c due

instance : Concedes (Bypasses r : Bench α σ → Bench α σ → Prop) where
  tame h := h.bypasses r
  change _ hclock hheld := bypasses_aside hclock (hheld r)

/-- To prepare a run makes a new recorder, and has nothing to do with the runs of others. -/
theorem bypasses_prepared (h : b.recorders.next ≠ r) (c : ClockRef) (factory : σ)
    (options : RunOptions) : Bypasses r b (Engine.prepared b c factory options) := by
  refine Engine.keeps_prepared b c factory options
    (bypasses_aside (fun _ => rfl) (held_addRecorder b c r)) fun b' due a ha => ?_
  exact bypasses_schedule (by simpa [ha] using h) b' c due

/-- Recorders are not taken back. -/
theorem Change.recorders_le (h : Change b b') :
    b.recorders.next.index ≤ b'.recorders.next.index := by
  cases h with
  | plain h =>
    cases h with
    | addRecorder c => simp [addRecorder, Table.next_push]
    | record r n => simp [Bench.record]
    | detach r => simp [Bench.detach]
    | hold r s => simp
    | start h =>
      obtain ⟨clocks, log, rfl⟩ := next?_rest h
      exact Nat.le_refl _
    | addSource temperature c events =>
      rw [(b.addSource_fields temperature c events).1]
    | attach s o => rw [attach_recorders]
    | register s t a =>
      rw [Bench.register]
      split <;> exact Nat.le_refl _
    | _ => exact Nat.le_refl _
  | _ => exact Nat.le_refl _

theorem Reaches.recorders_le (h : Reaches b b') :
    b.recorders.next.index ≤ b'.recorders.next.index := by
  induction h with
  | refl => exact Nat.le_refl _
  | tail _ hstep ih => exact Nat.le_trans ih hstep.recorders_le

/-! ### Runs of recorders that are yet to be made -/

/-- A bench that has come about from an empty one, with nothing queued for the run of a recorder
that is yet to be made. -/
structure Acquainted (b : Bench α σ) : Prop where
  lived : b.Lived
  unmade : ∀ r : RecorderRef, b.recorders.next.index ≤ r.index → ∀ c, b.agenda r c = []

/-- A bench that knows its recorders comes to another such bench. -/
def Acquainting (b b' : Bench α σ) : Prop := b.Acquainted → b'.Acquainted

instance : IsPreorder (Bench α σ) Acquainting where
  refl _ := id
  trans _ _ _ h h' := h' ∘ h

theorem Acquainted.bypassed (hb : b.Acquainted) (h : Reaches b b')
    (hbypasses : ∀ r : RecorderRef, b'.recorders.next.index ≤ r.index → Bypasses r b b') :
    b'.Acquainted where
  lived := hb.lived.reaches h
  unmade r hr c := by
    rw [(hbypasses r hr).agenda c]
    exact hb.unmade r (Nat.le_trans h.recorders_le hr) c

instance : Concedes (Acquainting : Bench α σ → Bench α σ → Prop) where
  tame h hb := hb.bypassed (Change.plain h.basic.plain).reaches fun r _ => h.bypasses r
  change h hclock hheld hb := hb.bypassed h.reaches fun r _ => bypasses_aside hclock (hheld r)

theorem Acquainted.started (hb : b.Acquainted) (hn : b.next? c limit = some (a, b')) :
    b'.Acquainted where
  lived := hb.lived.reaches (Change.plain (.start hn)).reaches
  unmade r hr c' := by
    have hle := Nat.le_trans (Change.plain (.start hn)).recorders_le hr
    obtain ⟨hother, hown⟩ := agenda_next? (r := r) hb.lived hn
    by_cases ha : a.run? = some r
    · have hnone := hb.unmade r hle c
      rw [(hown ha).1] at hnone
      cases hnone
    · rw [hother ha c', hb.unmade r hle c']

theorem acquainting_hold (b : Bench α σ) (r : RecorderRef) (s : Option SubscriptionRef) :
    Acquainting b (b.hold r s) := fun hb =>
  ⟨hb.lived.reaches (Change.plain (.hold b r s)).reaches,
    fun r' hr' => hb.unmade r' (by simpa [hold] using hr')⟩

theorem recorders_prepared (b : Bench α σ) (c : ClockRef) (factory : σ) (options : RunOptions) :
    (Engine.prepared b c factory options).recorders = b.recorders.push { clock := c } := by
  unfold Engine.prepared
  dsimp only
  split <;> rfl

theorem now_prepared (b : Bench α σ) (c : ClockRef) (factory : σ) (options : RunOptions) :
    (Engine.prepared b c factory options).now c = b.now c := by
  unfold Engine.prepared
  dsimp only
  split
  · exact (rests_schedule _ c c _ _).now
  · exact (rests_schedule _ c c _ _).now.trans (rests_schedule _ c c _ _).now

theorem reaches_prepared (b : Bench α σ) (c : ClockRef) (factory : σ) (options : RunOptions) :
    Reaches b (Engine.prepared b c factory options) := Engine.allows_prepared b c factory options

instance {E : Engine α σ} : E.Drives Acquainting where
  turn hE _ _ _ a _ _ hn hb :=
    Engine.respects_act hE a (fun r b s _ => acquainting_hold b r s) _ (hb.started hn)
  prepare b c factory options hb := by
    refine hb.bypassed (reaches_prepared b c factory options) fun r hr => ?_
    refine bypasses_prepared ?_ c factory options
    rintro rfl
    rw [recorders_prepared, Table.next_push] at hr
    exact absurd hr (Nat.not_succ_le_self _)

end Bench

open Bench

/-- Whatever a script does, it leaves a bench that knows its recorders. -/
theorem Scenario.acquainted_after {α : Type} [Shown α] (fuel : Nat) (script : Script α) :
    (after (Callback.engine fuel) script fresh).Acquainted := by
  have hfresh : (fresh : Bench α (Callback α)).Acquainted :=
    ⟨lived_fresh, fun r _ c => by rw [agenda, fresh_clock]; rfl⟩
  have hkept : Acquainting (fresh : Bench α (Callback α))
      (after (Callback.engine fuel) script fresh) :=
    keeps_foldl (fun b command => lawful_perform (Callback.permits_engine fuel) command b)
      fresh script
  exact hkept hfresh

/-- A subscription that a recorder gets calls nobody. -/
theorem Engine.respects_subscribe_recorder {E : Engine α σ} {R : Bench α σ → Bench α σ → Prop}
    [Tolerates R] (q : Sequence α) (r : RecorderRef) :
    Run.Keeps R (E.subscribe q (.recorder r)) := by
  let deaf : Engine α σ := ⟨fun _ => Run.exhaust, E.sequence, 0⟩
  have hsame : E.subscribe q (.recorder r) = deaf.subscribe q (.recorder r) := by
    obtain ⟨base, stages⟩ := q
    cases base <;> rfl
  have hdeaf : deaf.Respects R := fun _ => Run.keeps_exhaust
  rw [hsame]
  exact respects_subscribe hdeaf q _

/-- Whoever subscribes gets a subscription that exists. -/
theorem Engine.subscribe_made {E : Engine α σ} {q : Sequence α} {k : Sink} {b b' : Bench α σ}
    {sub : SubscriptionRef} (h : E.subscribe q k b = (.done sub, b')) :
    sub.index < b'.subscriptions.next.index := by
  have hadded : ∀ {b₁ : Bench α σ}, Run.change (·.addSubscription .nothing) b₁ = (.done sub, b') →
      sub.index < b'.subscriptions.next.index := by
    intro b₁ h
    obtain ⟨hsub, rfl⟩ := Prod.mk.inj h
    obtain rfl := Outcome.done.inj hsub
    simp [addSubscription]
  obtain ⟨base, stages⟩ := q
  cases base with
  | never => exact hadded h
  | source s =>
    obtain ⟨hsub, rfl⟩ := Prod.mk.inj h
    obtain rfl := Outcome.done.inj hsub
    rw [attach_fst, next_attach]
    exact Nat.lt_succ_self _
  | empty | just items | after c items =>
    obtain ⟨_, b₁, -, h⟩ := Run.bind_eq_done h
    exact hadded h

/-- A subscription that is disposed is over before its teardown calls anybody. -/
theorem Engine.dispose_ends {E : Engine α σ} (sub : SubscriptionRef) (b : Bench α σ) :
    ∃ b', Reaches b b' ∧ b'.clocks = b.clocks ∧ b'.isActive sub = false ∧
      (E.dispose sub b = (.done (), b') ∨ ∃ f, E.dispose sub b = E.fire f b') := by
  rw [dispose, Run.read_bind]
  cases hrow : b.subscriptions.get? sub with
  | none => exact ⟨b, .refl, rfl, by simp [isActive, hrow], Or.inl rfl⟩
  | some row =>
    have hended : (b.deactivate sub).isActive sub = false := by simp [isActive_deactivate]
    dsimp only
    split
    next ha =>
      rw [Run.update_bind]
      cases ht : row.teardown with
      | nothing =>
        exact ⟨b.deactivate sub, (Change.plain (.deactivate hrow (by rw [ht]; rfl))).reaches, rfl,
          hended, Or.inl rfl⟩
      | leave s entry =>
        exact ⟨b.discharge sub s entry, (Change.plain (.close hrow ha ht)).reaches, rfl, hended,
          Or.inl rfl⟩
      | call f =>
        exact ⟨b.deactivate sub, (Change.plain (.deactivate hrow (by rw [ht]; rfl))).reaches, rfl,
          hended, Or.inr ⟨f, rfl⟩⟩
    next ha => exact ⟨b, .refl, rfl, by simpa [isActive, hrow] using ha, Or.inl rfl⟩

/-! ### A run on its way -/

/-- A timed run as it has been prepared on a bench: its clock and its recorder, where its factory
belongs and what that builds, and the times at which it is to be opened and closed. -/
structure Session (α : Type) where
  start : Bench α (Callback α)
  clock : ClockRef
  recorder : RecorderRef
  home : ClockRef
  recipe : Recipe α
  opens : VirtualTime
  closes : VirtualTime
  lived : start.Lived
  made : recorder.index < start.recorders.next.index

namespace Session

variable {α : Type} {x : Session α} {b b' b₁ b₂ : Bench α (Callback α)} {sub : SubscriptionRef}
  {c : ClockRef} {limit : VirtualTime} {a : Action α (Callback α)}

def factory (x : Session α) : Callback α := .factory x.home [] x.recipe

def opening (x : Session α) : Timed (Action α (Callback α)) :=
  ⟨x.opens, .openRun x.recorder x.factory⟩

def closing (x : Session α) : Timed (Action α (Callback α)) := ⟨x.closes, .closeRun x.recorder⟩

/-- The recorder of a run is there from the beginning. -/
theorem isSome_recorder (h : Reaches x.start b) : (b.recorders.get? x.recorder).isSome := by
  have hlt := Nat.lt_of_lt_of_le x.made h.recorders_le
  simpa [Table.get?, Table.next] using hlt

/-- What is still to be done for a run: on its own clock, and on no other. -/
def Awaits (x : Session α) (b : Bench α (Callback α)) (due : List (Timed (Action α (Callback α)))) :
    Prop :=
  ∀ c, b.agenda x.recorder c = if c = x.clock then due else []

/-- The turn of a run is that of the action that comes first on its agenda. -/
theorem Awaits.turn {e : Timed (Action α (Callback α))} {due : List (Timed (Action α (Callback α)))}
    (h : x.Awaits b (e :: due))
    (hhead : b.agenda x.recorder c = ⟨b'.now c, a⟩ :: b'.agenda x.recorder c)
    (hrest : ∀ c', c' ≠ c → b'.agenda x.recorder c' = b.agenda x.recorder c') :
    b'.now x.clock = e.time ∧ a = e.value ∧ x.Awaits b' due := by
  rw [h c] at hhead
  split at hhead
  next hc =>
    subst hc
    obtain ⟨rfl, hleft⟩ := List.cons.inj hhead
    refine ⟨rfl, rfl, fun c' => ?_⟩
    by_cases hc' : c' = x.clock
    · rw [hc', if_pos rfl, hleft]
    · rw [hrest c' hc', h c', if_neg hc', if_neg hc']
  · cases hhead

theorem Awaits.mem {due : List (Timed (Action α (Callback α)))} {e : Timed (Action α (Callback α))}
    (h : x.Awaits b due) (hc : e ∈ b.agenda x.recorder c) : e ∈ due := by
  rw [h c] at hc
  split at hc
  · exact hc
  · cases hc

/-- A run is opened: its clock has reached the time for it, and the recorder is left with a
subscription to the sequence of the factory. -/
structure Opens (x : Session α) [Shown α] (b b' : Bench α (Callback α)) (sub : SubscriptionRef) :
    Prop where
  reaches : Reaches x.start b
  now : b.now x.clock = x.opens
  opened : ∃ m, (Callback.engine (m + 1)).perform (.openRun x.recorder x.factory) b = (.done (), b')
  held : b'.held x.recorder = some sub
  made : sub.index < b'.subscriptions.next.index

/-- How far a run has got: it waits to be opened, it has been opened and is held, or it has been
closed and its subscription is over. -/
inductive At (x : Session α) [Shown α] : Bench α (Callback α) → Prop
  | waiting {b : Bench α (Callback α)} (h : Reaches x.start b)
    (hdue : x.Awaits b [x.opening, x.closing]) : x.At b
  | opened {b₁ b₂ b : Bench α (Callback α)} {sub : SubscriptionRef} (hopens : x.Opens b₁ b₂ sub)
    (h : Reaches b₂ b) (hheld : b.held x.recorder = some sub)
    (hdue : x.Awaits b [x.closing]) : x.At b
  | closed {b₁ b₂ b₃ b : Bench α (Callback α)} {sub : SubscriptionRef} (hopens : x.Opens b₁ b₂ sub)
    (h : Reaches b₂ b₃) (hnow : b₃.now x.clock = x.closes) (hended : b₃.isActive sub = false)
    (h' : Reaches b₃ b) (hdue : x.Awaits b []) : x.At b

variable [Shown α]

theorem Opens.reaches_after (h : x.Opens b b' sub) : Reaches b b' := by
  obtain ⟨m, hopened⟩ := h.opened
  exact (Engine.respects_perform (Callback.lawful_engine (m + 1)) _).of_eq hopened

theorem At.reaches (h : x.At b) : Reaches x.start b := by
  cases h with
  | waiting h _ => exact h
  | opened hopens h _ _ => exact (hopens.reaches.trans hopens.reaches_after).trans h
  | closed hopens h _ _ h' _ =>
    exact ((hopens.reaches.trans hopens.reaches_after).trans h).trans h'

theorem At.lived (h : x.At b) : b.Lived := x.lived.reaches h.reaches

theorem At.made (h : x.At b) : x.recorder.index < b.recorders.next.index :=
  Nat.lt_of_lt_of_le x.made h.reaches.recorders_le

/-- What has nothing to do with a run leaves it where it is. -/
theorem At.bypassed (h : x.At b) (hreaches : Reaches b b') (hb : Bypasses x.recorder b b') :
    x.At b' := by
  have hdue : ∀ {due}, x.Awaits b due → x.Awaits b' due := fun h c => (hb.agenda c).trans (h c)
  cases h with
  | waiting h hw => exact .waiting (h.trans hreaches) (hdue hw)
  | opened hopens h hheld hw =>
    exact .opened hopens (h.trans hreaches) (hb.held.trans hheld) (hdue hw)
  | closed hopens h hnow hended h' hw =>
    exact .closed hopens h hnow hended (h'.trans hreaches) (hdue hw)

/-- From one bench to another, a run comes along. -/
def Proceeds (x : Session α) (b b' : Bench α (Callback α)) : Prop := x.At b → x.At b'

instance : IsPreorder (Bench α (Callback α)) x.Proceeds where
  refl _ := id
  trans _ _ _ h h' := h' ∘ h

instance : Concedes x.Proceeds where
  tame h hat := hat.bypassed (Change.plain h.basic.plain).reaches (h.bypasses _)
  change h hclock hheld hat := hat.bypassed h.reaches (bypasses_aside hclock (hheld _))

/-! ### The two turns of a run -/

/-- To open a run is to subscribe to what its factory builds, and to hold the subscription. -/
theorem perform_opening (x : Session α) (fuel : Nat) (b : Bench α (Callback α)) :
    (Callback.engine (fuel + 1)).perform (.openRun x.recorder x.factory) b =
      ((Callback.engine (fuel + 1)).subscribe (Callback.sequence x.factory b)
        (.recorder x.recorder) >>=
        fun sub => Run.update (·.hold x.recorder (some sub))) (b.note (.built (b.now x.home))) := by
  have hfire : (Callback.engine (fuel + 1)).fire x.factory b =
      (.done (), b.note (.built (b.now x.home))) := rfl
  rw [Engine.perform, Run.bind_done hfire, Run.read_bind]
  rfl

theorem open_turn (h : Reaches x.start b) (hnow : b.now x.clock = x.opens)
    (hdue : x.Awaits b [x.closing]) (fuel : Nat) :
    x.At ((Callback.engine (fuel + 1)).perform (.openRun x.recorder x.factory) b).2 := by
  let b₁ := b.note (.built (b.now x.home))
  have hnoted : Reaches b b₁ ∧ Bypasses x.recorder b b₁ :=
    ⟨(Change.plain (.note b _ rfl)).reaches, bypasses_aside (fun _ => rfl) rfl⟩
  obtain ⟨sub, b₂, hsub, -⟩ := Engine.subscribe_recorder (E := Callback.engine (fuel + 1))
    (Callback.sequence x.factory b) x.recorder b₁
  have hreaches : Reaches b₁ b₂ := (Engine.respects_subscribe_recorder _ _).of_eq hsub
  have hbypasses : Bypasses x.recorder b₁ b₂ :=
    (Engine.respects_subscribe_recorder _ _).of_eq hsub
  have hrun : (Callback.engine (fuel + 1)).perform (.openRun x.recorder x.factory) b =
      (.done (), b₂.hold x.recorder (some sub)) :=
    (x.perform_opening fuel b).trans (Run.bind_done hsub)
  have hheld : (b₂.hold x.recorder (some sub)).held x.recorder = some sub :=
    held_hold (isSome_recorder ((h.trans hnoted.1).trans hreaches)) (some sub)
  have hmade : sub.index < b₂.subscriptions.next.index := Engine.subscribe_made hsub
  have hawaits : x.Awaits (b₂.hold x.recorder (some sub)) [x.closing] := fun c =>
    (hbypasses.agenda c).trans ((hnoted.2.agenda c).trans (hdue c))
  rw [hrun]
  exact .opened ⟨h, hnow, ⟨fuel, hrun⟩, hheld, hmade⟩ .refl hheld hawaits

theorem close_turn {E : Engine α (Callback α)} (hE : E.Respects x.Proceeds)
    (hopens : x.Opens b₁ b₂ sub) (h : Reaches b₂ b) (hnow : b.now x.clock = x.closes)
    (hheld : b.held x.recorder = some sub) (hdue : x.Awaits b []) :
    x.At (E.perform (.closeRun x.recorder) b).2 := by
  let b₃ := (b.detach x.recorder).hold x.recorder none
  have hrun : E.perform (.closeRun x.recorder) b = E.dispose sub b₃ := by
    have hdetached : ((b.detach x.recorder).recorders.get? x.recorder).bind (·.held) = some sub :=
      (held_detach b x.recorder x.recorder).trans hheld
    simp only [Engine.perform, Run.update_bind, Run.read_bind, hdetached]
    rfl
  have hlet : Reaches b b₃ := (Change.plain (.detach b _)).reaches.trans
    (Change.plain (.hold _ _ none)).reaches
  obtain ⟨b₄, hreaches, hclocks, hended, hrest⟩ := Engine.dispose_ends (E := E) sub b₃
  have hclock : ∀ c, b₄.clock c = b.clock c := fun c => by rw [Bench.clock, hclocks]; rfl
  have hat : x.At b₄ := .closed hopens ((h.trans hlet).trans hreaches)
    ((congrArg Clock.now (hclock x.clock)).trans hnow) hended .refl
    fun c => (agenda_of_clock (hclock c)).trans (hdue c)
  rw [hrun]
  rcases hrest with hdone | ⟨f, hcalls⟩
  · rw [hdone]
    exact hat
  · rw [hcalls]
    exact Engine.respects_fire hE f b₄ hat

instance {fuel : Nat} : (Callback.engine fuel).Drives x.Proceeds where
  turn hE hfuel c limit a b b' hn hat := by
    obtain ⟨fuel, rfl⟩ := Nat.exists_eq_succ_of_ne_zero (Nat.ne_of_gt hfuel)
    have hstart : Reaches b b' := (Change.plain (.start hn)).reaches
    have hheld : b'.held x.recorder = b.held x.recorder := by
      obtain ⟨clocks, log, rfl⟩ := next?_rest hn
      rfl
    obtain ⟨hother, hown⟩ := agenda_next? (r := x.recorder) hat.lived hn
    by_cases ha : a.run? = some x.recorder
    -- The agenda tells which of its two actions this is, and that the clock is there just in time.
    · obtain ⟨hhead, hrest⟩ := hown ha
      cases hat with
      | waiting h hdue =>
        obtain ⟨hnow, rfl, hleft⟩ := hdue.turn hhead hrest
        exact open_turn (h.trans hstart) hnow hleft fuel
      | opened hopens h hsub hdue =>
        obtain ⟨hnow, rfl, hleft⟩ := hdue.turn hhead hrest
        exact close_turn hE hopens (h.trans hstart) hnow (hheld.trans hsub) hleft
      | closed _ _ _ _ _ hdue =>
        have hmem : ⟨b'.now c, a⟩ ∈ b.agenda x.recorder c := by simp [hhead]
        cases hdue.mem hmem
    · refine Engine.respects_act hE a (fun r b s hr hat => ?_) _
        (hat.bypassed hstart ⟨hother ha, hheld⟩)
      have hne : r ≠ x.recorder := by
        rintro rfl
        exact ha hr
      exact hat.bypassed (Change.plain (.hold b r s)).reaches
        (bypasses_aside (fun _ => rfl) (held_hold_of_ne hne b s))
  prepare b c factory options hat := by
    refine hat.bypassed (reaches_prepared b c factory options)
      (bypasses_prepared ?_ c factory options)
    intro heq
    have hmade := hat.made
    rw [← heq] at hmade
    exact Nat.lt_irrefl _ hmade

end Session

end Marble
