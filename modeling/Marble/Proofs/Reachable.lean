import Marble.Proofs.Changes
import Marble.Proofs.Drive
import Marble.Proofs.Verdict

/-! An engine whose callbacks keep to a relation of benches keeps to it itself, as long as the
relation tolerates every tame change and goes along when a clock is driven. Whatever an engine does
comes about by changes of the bench. -/
namespace Marble.Engine

open Bench

variable {α σ ρ : Type} {E : Engine α σ} {R : Bench α σ → Bench α σ → Prop}

/-- What every callback does to a bench stands in a relation. -/
def Respects (E : Engine α σ) (R : Bench α σ → Bench α σ → Prop) : Prop :=
  ∀ f, Attempt.Keeps R (E.call f)

section

variable [Bears R]

theorem respects_fire (hE : E.Respects R) (f : σ) : Run.Keeps R (E.fire f) :=
  Run.keeps_bind (hE f) fun _ => Run.keeps_pure ()

theorem respects_invoke (hE : E.Respects R) (e : Effect σ) : Run.Keeps R (E.invoke e) := by
  cases e with
  | call f => exact respects_fire hE f
  | stamp p =>
    exact Run.keeps_update fun b =>
      Bears.aside (.stamp b p) (fun _ => rfl) (fun _ => rfl) (spares_of_eq rfl rfl)
        (unheard_of_eq rfl rfl)

/-- Disposing a subscription comes down to a use of it, after which its teardown may call
somebody. -/
theorem uses_dispose (hE : E.Respects R) {b₀ b : Bench α σ} {s : SubscriptionRef}
    (huse : ∀ {b₁ b₂}, R b₀ b₁ → Uses s b₁ b₂ → R b₀ b₂) (h : R b₀ b) : R b₀ (E.dispose s b).2 := by
  rw [dispose, Run.read_bind]
  cases hrow : b.subscriptions.get? s with
  | none => exact h
  | some row =>
    dsimp only
    split
    next ha =>
      rw [Run.update_bind]
      change R b₀ (E.tearDown row.teardown (b.deactivate s)).2
      cases ht : row.teardown with
      | nothing => exact huse h (.deactivate hrow (by rw [ht]; rfl))
      | leave source entry => exact huse h (.close hrow ha ht)
      | call f =>
        have hover : R b₀ (b.deactivate s) := huse h (.deactivate hrow (by rw [ht]; rfl))
        exact trans_of R hover (respects_fire hE f _)
    · exact h

theorem respects_dispose (hE : E.Respects R) {b₀ b : Bench α σ} {s : SubscriptionRef}
    (hs : b₀.AtLarge s) (h : R b₀ b) : R b₀ (E.dispose s b).2 :=
  uses_dispose hE (Bears.use hs) h

theorem keeps_addRecorder (c : ClockRef) :
    Run.Keeps R (Run.change fun b : Bench α σ => b.addRecorder c) :=
  Run.keeps_change fun b => Bears.aside (.addRecorder b c) (fun _ => rfl) (held_addRecorder b c)
    (spares_of_eq rfl rfl) (unheard_addRecorder b c)

theorem keeps_detach (r : RecorderRef) :
    Run.Keeps R (Run.update fun b : Bench α σ => b.detach r) :=
  Run.keeps_update fun b => Bears.aside (.detach b r) (fun _ => rfl) (held_detach b r)
    (spares_of_eq rfl rfl) (unheard_detach b r)

theorem uses_release (hE : E.Respects R) {b : Bench α σ} {s : SubscriptionRef} (r : RecorderRef)
    (huse : ∀ {b₁ b₂}, R b b₁ → Uses s b₁ b₂ → R b b₂) : R b (E.perform (.release r s) b).2 := by
  rw [perform, Run.update_bind]
  exact uses_dispose hE huse (keeps_detach r b)

/-- A run that is closed disposes of what its recorder holds. -/
theorem respects_closeRun (hE : E.Respects R) {r : RecorderRef} (hlet : ∀ b, R b (b.hold r none)) :
    Run.Keeps R (E.perform (.closeRun r)) := by
  refine Run.keeps_bind (keeps_detach r) fun _ b => ?_
  rw [Run.read_bind]
  cases hheld : (b.recorders.get? r).bind (·.held) with
  | none => exact refl_of R b
  | some s =>
    dsimp only
    rw [Run.update_bind]
    exact respects_dispose hE (Or.inr (Or.inl ⟨r, hheld⟩)) (hlet b)

end

/-- Whoever subscribes is told what the base announces, and then gets one subscription to it. -/
theorem subscribe_eq (E : Engine α σ) (q : Sequence α) (k : Sink) :
    E.subscribe q k = Run.each (E.notify ⟨q.stages, k⟩) q.base.announces >>= fun _ =>
      Run.change (·.opened q.base ⟨q.stages, k⟩) := by
  obtain ⟨base, stages⟩ := q
  cases base with
  | empty =>
    rw [Base.announces, Run.each_singleton]
    rfl
  | after c items =>
    change (Run.each (fun e => Run.update fun b =>
        b.scheduleAfter c e.time (.push ⟨stages, k⟩ e.value)) items >>=
      fun _ => Run.change fun b => b.addSubscription .nothing) = _
    rw [Run.each_update]
    rfl
  | _ => rfl

/-- An engine whose callbacks keep to a relation keeps to it when it hands notifications to an
observer. -/
class Feeds (E : Engine α σ) (R : Bench α σ → Bench α σ → Prop) : Prop where
  feed (hE : E.Respects R) (o : Observer α) (items : List (Signal α)) :
    Run.Keeps R (Run.each (E.notify o) items)

section

variable [Bears R] [E.Feeds R]

theorem respects_subscribe (hE : E.Respects R) (q : Sequence α) (k : Sink) :
    Run.Keeps R (E.subscribe q k) := by
  rw [subscribe_eq]
  exact Run.keeps_bind (Feeds.feed hE _ _) fun _ =>
    Run.keeps_change fun b => Bears.opened b q.base ⟨q.stages, k⟩

/-- Whoever subscribes gets hold of a subscription: it was still to be made on some bench on the
way, and has been made since. -/
theorem subscribe_atLarge (hE : E.Respects R) {q : Sequence α} {k : Sink} {b b' : Bench α σ}
    {s : SubscriptionRef} (h : E.subscribe q k b = (.done s, b')) :
    ∃ b₀, R b b₀ ∧ b₀.AtLarge s ∧ R b₀ b' ∧ s.index < b'.subscriptions.next.index := by
  rw [subscribe_eq] at h
  obtain ⟨_, b₀, hbefore, h⟩ := Run.bind_eq_done h
  obtain ⟨hs, rfl⟩ := Prod.mk.inj h
  obtain rfl := Outcome.done.inj hs
  rw [opened_fst, next_opened]
  exact ⟨b₀, (Feeds.feed hE _ _).of_eq hbefore, Or.inr (Or.inr (Nat.le_refl _)),
    Bears.opened b₀ q.base ⟨q.stages, k⟩, Nat.lt_succ_self _⟩

/-- A run that is opened lets its recorder hold the subscription it has made. -/
theorem respects_openRun (hE : E.Respects R) {r : RecorderRef} (factory : σ)
    (hhold : ∀ {b₀ b s}, b₀.AtLarge s → R b₀ b → s.index < b.subscriptions.next.index →
      R b₀ (b.hold r (some s))) : Run.Keeps R (E.perform (.openRun r factory)) := by
  refine Run.keeps_bind (respects_fire hE factory) fun _ => ?_
  refine Run.keeps_bind (Run.keeps_read _) fun q => ?_
  refine Run.keeps_bind_done (respects_subscribe hE q _) fun b s b' hsub => ?_
  obtain ⟨b₀, hbefore, hs, hafter, hmade⟩ := subscribe_atLarge hE hsub
  exact trans_of R hbefore (hhold hs hafter hmade)

/-- What an action does that hands nothing on itself. What it is to release it ends, and one that
opens or closes a timed run also settles what the recorder of the run holds. -/
theorem respects_errand (hE : E.Respects R) {a : Action α σ} {b : Bench α σ} (ha : a.hands = false)
    (hrelease : ∀ r s, a = .release r s → ∀ {b₁ b₂}, R b b₁ → Uses s b₁ b₂ → R b b₂)
    (hhold : ∀ r, a.run? = some r → ∀ {b₀ b₁ s}, b₀.AtLarge s → R b₀ b₁ →
      s.index < b₁.subscriptions.next.index → R b₀ (b₁.hold r (some s)))
    (hlet : ∀ r, a.run? = some r → ∀ b, R b (b.hold r none)) : R b (E.perform a b).2 := by
  cases a with
  | invoke e => exact respects_invoke hE e b
  | release r s => exact uses_release hE r (hrelease r s rfl)
  | openRun r factory => exact respects_openRun hE factory (hhold r rfl) b
  | closeRun r => exact respects_closeRun hE (hlet r rfl) b
  | _ => cases ha

end

/-! ### Notifications on their way -/

section

variable [Heeds R]

theorem respects_tell (hE : E.Respects R) (l : ListenerRef) (n : Signal α) :
    Run.Keeps R (E.tell l n) := by
  refine Run.keeps_bind (Run.keeps_read _) ?_
  rintro (_ | row)
  · exact Run.keeps_pure ()
  · refine Run.keeps_bind (Run.keeps_note fun b =>
      Heeds.aside (.note b _ rfl) (fun _ => rfl) (fun _ => rfl) (spares_of_eq rfl rfl)) ?_
    intro _
    refine Run.keeps_bind (Run.keeps_update fun b =>
      Heeds.aside (.hear b l) (fun _ => rfl) (fun _ => rfl) (spares_of_eq rfl rfl)) ?_
    intro _
    exact Run.keeps_each fun rule _ => respects_fire hE rule.2

theorem respects_sink (hE : E.Respects R) (k : Sink) (n : Signal α) :
    Run.Keeps R (E.sink k n) := by
  cases k with
  | recorder r => exact Run.keeps_update fun b => Bears.record b r n
  | listener l => exact respects_tell hE l n

theorem respects_notify (hE : E.Respects R) (o : Observer α) (n : Signal α) :
    Run.Keeps R (E.notify o n) := by
  refine Run.keeps_bind (Run.keeps_change fun b => Heeds.pass b o.stages n) ?_
  rintro (_ | m)
  · exact Run.keeps_pure ()
  · exact respects_sink hE o.sink m

instance : E.Feeds R := ⟨fun hE o _ => Run.keeps_each fun n _ => respects_notify hE o n⟩

theorem respects_multicast (hE : E.Respects R) (s : SourceRef) (n : Signal α) :
    Run.Keeps R (E.multicast s n) := by
  refine Run.keeps_bind (Run.keeps_read _) ?_
  intro attached
  refine Run.keeps_each fun o _ => Run.keeps_bind (Run.keeps_read _) fun here => ?_
  split
  · exact respects_notify hE o.2 n
  · exact Run.keeps_pure ()

/-- What an action does that hands a notification on. -/
theorem respects_delivery (hE : E.Respects R) {a : Action α σ} (ha : a.hands) :
    Run.Keeps R (E.perform a) := by
  cases a with
  | deliver s o n =>
    refine Run.keeps_bind (Run.keeps_read _) fun active => ?_
    split
    · exact respects_notify hE o n
    · exact Run.keeps_pure ()
  | multicast s n => exact respects_multicast hE s n
  | push o n => exact respects_notify hE o n
  | _ => cases ha

/-- Whatever an action does once its time has come. -/
theorem respects_turn (hE : E.Respects R) {a : Action α σ} {b : Bench α σ}
    (hrelease : ∀ r s, a = .release r s → ∀ {b₁ b₂}, R b b₁ → Uses s b₁ b₂ → R b b₂)
    (hhold : ∀ r, a.run? = some r → ∀ {b₀ b₁ s}, b₀.AtLarge s → R b₀ b₁ →
      s.index < b₁.subscriptions.next.index → R b₀ (b₁.hold r (some s)))
    (hlet : ∀ r, a.run? = some r → ∀ b, R b (b.hold r none)) : R b (E.perform a b).2 := by
  cases ha : a.hands with
  | true => exact respects_delivery hE ha b
  | false => exact respects_errand hE ha hrelease hhold hlet

end

theorem respects_act [Tolerates R] (hE : E.Respects R) (a : Action α σ)
    (hhold : ∀ r b s, a.run? = some r → R b (b.hold r s)) : Run.Keeps R (E.perform a) := fun _ =>
  respects_turn hE (fun _ _ _ _ _ h hu => trans_of R h (Tolerates.tame hu.tame))
    (fun r hr _ b₁ s _ h _ => trans_of R h (hhold r b₁ (some s) hr)) fun r hr b => hhold r b none hr

/-! ### Driving a clock -/

/-- To prepare a timed run takes a new recorder, and queues what is to be done for it. -/
theorem keeps_prepared [IsTrans (Bench α σ) R] (b : Bench α σ) (c : ClockRef) (factory : σ)
    (options : RunOptions) (hmade : R b (b.addRecorder c).2)
    (hqueued : ∀ b' due a, a.run? = some b.recorders.next → R b' (b'.schedule c due a)) :
    R b (prepared b c factory options) := by
  have hopen : R b ((b.addRecorder c).2.schedule c options.subscribeAt
      (.openRun b.recorders.next factory)) := trans_of R hmade (hqueued _ _ _ rfl)
  unfold prepared
  dsimp only
  split
  · exact hopen
  · exact trans_of R hopen (hqueued _ _ _ rfl)

/-- An engine whose callbacks keep to a relation keeps to it when it drives a clock: with each turn,
and when a timed run is prepared. -/
class Drives (E : Engine α σ) (R : Bench α σ → Bench α σ → Prop) : Prop where
  turn (hE : E.Respects R) (hfuel : 0 < E.fuel) {c : ClockRef} {limit : VirtualTime}
    {a : Action α σ}
    {b b' : Bench α σ} (hn : b.next? c limit = some (a, b')) : R b (E.perform a b').2
  prepare (b : Bench α σ) (c : ClockRef) (factory : σ) (options : RunOptions) :
    R b (prepared b c factory options)

section

variable {R : Bench α σ → Bench α σ → Prop} [Admits R]

theorem respects_perform (hE : E.Respects R) (a : Action α σ) : Run.Keeps R (E.perform a) :=
  respects_act hE a fun r b s _ => Admits.aside (.hold b r s) fun _ => rfl

theorem allows_prepared (b : Bench α σ) (c : ClockRef) (factory : σ) (options : RunOptions) :
    R b (prepared b c factory options) :=
  keeps_prepared b c factory options (Admits.aside (.addRecorder b c) fun _ => rfl)
    fun b' due _ ha => Admits.basic (.schedule b' c due (Action.isEvent_of_run? ha))

instance : E.Drives R where
  turn hE _ _ _ a _ _ hn := trans_of R (Admits.basic (.start hn)) (respects_perform hE a _)
  prepare := allows_prepared

end

section

variable [Bears R]

section

variable [E.Drives R]

theorem respects_drain (hE : E.Respects R) (c : ClockRef) (limit : VirtualTime) :
    Run.Keeps R (E.drain c limit) := by
  unfold drain
  rcases Nat.eq_zero_or_pos E.fuel with hfuel | hfuel
  · rw [hfuel]
    exact Run.keeps_exhaust
  · exact keeps_drainWith fun _ _ _ hn => Drives.turn hE hfuel hn

theorem respects_advanceTo (hE : E.Respects R) (c : ClockRef) (target : VirtualTime) :
    Run.Keeps R (E.advanceTo c target) :=
  keeps_advanceTo (respects_drain hE c target) fun _ h =>
    Bears.mild (.park h) (unheard_of_eq rfl rfl)

theorem respects_advanceBy (hE : E.Respects R) (c : ClockRef) (delay : VirtualTime) :
    Run.Keeps R (E.advanceBy c delay) :=
  Run.keeps_bind (Run.keeps_read _) fun _ => respects_advanceTo hE c _

theorem respects_runUntilIdle (hE : E.Respects R) (c : ClockRef) :
    Run.Keeps R (E.runUntilIdle c) := respects_drain hE c .never

theorem respects_record [E.Feeds R] (hE : E.Respects R) (q : Sequence α) (c : ClockRef) :
    Run.Keeps R (E.record q c) := by
  refine Run.keeps_bind (keeps_addRecorder c) fun r => ?_
  refine Run.keeps_bind_done (respects_subscribe hE q _) fun b s b' hsub => ?_
  obtain ⟨b₀, hbefore, hs, hafter, _⟩ := subscribe_atLarge hE hsub
  refine trans_of R hbefore ?_
  refine Run.leads_bind (trans_of R hafter (respects_runUntilIdle hE c b')) fun _ b₁ h₁ => ?_
  refine Run.leads_bind (trans_of R h₁ (keeps_detach r b₁)) fun _ b₂ h₂ => ?_
  exact Run.leads_bind (respects_dispose hE hs h₂) fun _ _ h₃ => h₃

theorem respects_start (hE : E.Respects R) (c : ClockRef) (factory : σ) (options : RunOptions) :
    Run.Keeps R (E.start c factory options) := by
  intro b
  rw [start_eq]
  refine trans_of R (Drives.prepare (E := E) b c factory options) ?_
  refine Run.keeps_bind ?_ (fun _ => Run.keeps_read _) _
  split
  · exact respects_runUntilIdle hE c
  · exact respects_advanceTo hE c _

end

/-! ### Scopes -/

theorem allows_note (b : Bench α σ) {e : Entry α} (he : e.started? = none)
    (hunheard : e.isHeard = false) : R b (b.note e) :=
  Bears.aside (.note b e he) (fun _ => rfl) (fun _ => rfl) (spares_of_eq rfl rfl)
    (unheard_note b hunheard)

theorem keeps_register (s : ScopeRef) (t : VirtualTime) (a : Assertion α σ) :
    Attempt.Keeps R (Attempt.step fun b : Bench α σ => b.register s t a) :=
  Attempt.keeps_step fun b =>
    Bears.aside (.register b s t a) (clock_register b s t a) (held_register b s t a)
      (spares_register b s t a) (unheard_register b s t a)

theorem respects_expect [E.Feeds R] (hE : E.Respects R) (s : ScopeRef) (q : Sequence α)
    (d : Diagram α SequenceError (Effect σ)) (compare : Compare α) :
    Attempt.Keeps R (E.expect s q d compare) := by
  refine Attempt.keeps_bind (Attempt.keeps_check _) fun scope => ?_
  refine Attempt.keeps_bind (Attempt.keeps_read _) fun offset => ?_
  refine Attempt.keeps_bind (keeps_addRecorder scope.clock) fun r => ?_
  refine Attempt.keeps_lift_bind (respects_subscribe hE q _) fun b sub b' hsub => ?_
  obtain ⟨b₀, hbefore, hs, hafter, hmade⟩ := subscribe_atLarge hE hsub
  rw [Attempt.update_bind]
  refine trans_of R hbefore (trans_of R ?_ (keeps_register s _ _ _))
  exact Bears.use hs hafter (.release b' _ _ r hmade)

/-- Effects are queued one after the other, and the scope takes assertions all the while. -/
theorem allows_extendAll {s : ScopeRef} {scope : Scope α σ} {b : Bench α σ} (c : ClockRef)
    (h : b.accepting s = .ok scope) (effects : List (Timed (Effect σ))) :
    R b (effects.foldl (fun b e =>
      (b.modifyScope s (·.extend e.time)).schedule c e.time (.invoke e.value)) b) := by
  induction effects generalizing b scope with
  | nil => exact refl_of R b
  | cons e rest ih =>
    have hnext :
        ((b.modifyScope s (·.extend e.time)).schedule c e.time (.invoke e.value)).accepting s =
          .ok (scope.extend e.time) := by
      obtain ⟨hrow, haccepting⟩ := accepting_eq_ok.mp h
      refine accepting_eq_ok.mpr ⟨?_, haccepting⟩
      simp [schedule, modifyScope, Table.get?_modify, hrow]
    have hfirst : R b ((b.modifyScope s (·.extend e.time)).schedule c e.time (.invoke e.value)) :=
      trans_of R
        (Bears.aside (.extend h e.time) (fun _ => rfl) (fun _ => rfl) (spares_of_eq rfl rfl)
          (unheard_of_eq rfl rfl))
        (Bears.mild (.schedule _ _ _ rfl rfl rfl) (unheard_of_eq rfl rfl))
    exact trans_of R hfirst (ih hnext)

theorem keeps_scheduleEffects (s : ScopeRef) (d : Diagram α SequenceError (Effect σ)) :
    Attempt.Keeps R (scheduleEffects s d) := by
  intro b
  change R b (scheduleEffects s d b).2
  cases h : b.accepting s with
  | error e =>
    have hcheck : Attempt.check (·.accepting s) b = (.done (.error e), b) := by
      simp [Attempt.check, h]
    rw [scheduleEffects, Attempt.bind_error hcheck]
    exact refl_of R b
  | ok scope =>
    have hcheck : Attempt.check (·.accepting s) b = (.done (.ok scope), b) := by
      simp [Attempt.check, h]
    rw [scheduleEffects, Attempt.bind_ok hcheck, Attempt.read_bind, Attempt.note_bind]
    have hnoted : ∀ e : Entry α, (b.note e).accepting s = .ok scope := fun _ => h
    exact trans_of R (allows_note b rfl rfl) (allows_extendAll scope.clock (hnoted _) _)

theorem keeps_expectEffects (s : ScopeRef) (p : ProbeRef)
    (d : Diagram α SequenceError (Effect σ)) : Attempt.Keeps R (expectEffects s p d) := by
  refine Attempt.keeps_bind (Attempt.keeps_check _) fun scope => ?_
  refine Attempt.keeps_bind (Attempt.keeps_read _) fun offset => ?_
  exact keeps_register s _ _

variable [Shown α]

theorem respects_verify (hE : E.Respects R) (s : ScopeRef) (grid : TimeGrid) (a : Assertion α σ) :
    Attempt.Keeps R (E.verify s grid a) :=
  keeps_verify E (fun b _ _ => allows_note b rfl rfl) grid fun f _ => hE f

theorem respects_verifyAll (hE : E.Respects R) (s : ScopeRef) (grid : TimeGrid) (index : Nat)
    (pending : List (Assertion α σ)) : Run.Keeps R (E.verifyAll s grid index pending) := by
  induction pending generalizing index with
  | nil => exact Run.keeps_pure _
  | cons a rest ih =>
    refine Run.keeps_bind (respects_verify hE s grid a) ?_
    rintro (e | _)
    · refine Run.keeps_bind (Run.keeps_note fun b => allows_note b rfl rfl) fun _ => ?_
      exact Run.keeps_bind (ih _) fun _ => Run.keeps_pure _
    · exact ih _

variable [E.Drives R]

/-- A scope is settled by a relation that lets it enter the phases of its end. -/
theorem respects_settle (hE : E.Respects R) (s : ScopeRef)
    (hphase : ∀ b phase, R b (b.modifyScope s fun scope => { scope with phase }))
    (hpending : ∀ b, R b (b.modifyScope s fun scope => { scope with pending := [] })) :
    Attempt.Keeps R (E.settle s) := by
  refine Attempt.keeps_bind (Attempt.keeps_update fun b => hphase b _) fun _ => ?_
  refine Attempt.keeps_bind (Attempt.keeps_read _) ?_
  rintro (_ | scope)
  · exact Attempt.keeps_pure ()
  refine Attempt.keeps_bind (Attempt.keeps_note fun b => allows_note b rfl rfl) fun _ => ?_
  refine Attempt.keeps_bind (Attempt.keeps_lift (respects_advanceTo hE _ _)) fun _ => ?_
  refine Attempt.keeps_bind (Attempt.keeps_read _) fun pending => ?_
  refine Attempt.keeps_bind (Attempt.keeps_update hpending) fun _ => ?_
  refine Attempt.keeps_bind (Attempt.keeps_lift (respects_verifyAll hE s _ 0 _)) fun failures => ?_
  refine Attempt.keeps_bind (Attempt.keeps_update fun b => hphase b _) fun _ => ?_
  cases failures with
  | nil => exact Attempt.keeps_note fun b => allows_note b rfl rfl
  | cons first rest =>
    exact Attempt.keeps_bind (Attempt.keeps_note fun b => allows_note b rfl rfl) fun _ =>
      Attempt.keeps_fail _

end

/-! ### Closing a scope -/

/-- What every callback does to a bench comes about by changes of it. -/
def Lawful (E : Engine α σ) : Prop := ∀ f, Attempt.Keeps Reaches (E.call f)

variable [Excuses R]

theorem keeps_giveUpIfUnbalanced (s : ScopeRef) (outcome : Except Error Unit) :
    Run.Keeps R (giveUpIfUnbalanced s outcome : Run α σ Unit) := by
  unfold giveUpIfUnbalanced
  split
  · exact Run.keeps_update fun b =>
      Excuses.change (.abandon b s _ fun _ _ => rfl) (fun _ => rfl) (fun _ => rfl)
        (spares_of_eq rfl rfl) (unheard_abandon b s _)
  · exact Run.keeps_pure ()

variable [Shown α] [E.Drives R]

theorem lawful_settle (hE : E.Respects R) (s : ScopeRef) : Attempt.Keeps R (E.settle s) :=
  respects_settle hE s
    (fun b phase =>
      Excuses.change (.enterPhase b s phase) (fun _ => rfl) (fun _ => rfl) (spares_of_eq rfl rfl)
        (unheard_of_eq rfl rfl))
    fun b => Excuses.change (.takePending b s) (fun _ => rfl) (fun _ => rfl) (spares_of_eq rfl rfl)
      (unheard_of_eq rfl rfl)

theorem lawful_endInnermost (hE : E.Respects R) (s : ScopeRef) :
    Attempt.Keeps R (E.endInnermost s) := by
  refine Attempt.keeps_bind (Attempt.keeps_read _) ?_
  rintro (_ | ⟨top, rest⟩)
  · exact Attempt.keeps_fail _
  · exact Run.keeps_ite
      (fun _ => Run.keeps_ensure (lawful_settle hE s) fun b =>
        Excuses.change (.removeScope b s) (fun _ => rfl) (fun _ => rfl) (spares_of_eq rfl rfl)
          (unheard_of_eq rfl rfl))
      fun _ => Attempt.keeps_fail _

theorem lawful_endScope (hE : E.Respects R) (s : ScopeRef) : Attempt.Keeps R (E.endScope s) := by
  refine Attempt.keeps_bind (Attempt.keeps_lift (lawful_endInnermost hE s)) fun outcome => ?_
  exact Attempt.keeps_bind (Attempt.keeps_lift (keeps_giveUpIfUnbalanced s outcome)) fun _ =>
    Attempt.keeps_check _

theorem lawful_dropScope (hE : E.Respects R) (s : ScopeRef) : Run.Keeps R (E.dropScope s) := by
  refine Run.keeps_bind (lawful_endInnermost hE s) fun outcome => ?_
  refine Run.keeps_bind (keeps_giveUpIfUnbalanced s outcome) fun _ => ?_
  split
  · exact Run.keeps_pure ()
  · exact Run.keeps_panic _

theorem lawful_within (hE : E.Respects R) (options : ScopeOptions) {body : ScopeRef → Attempt α σ ρ}
    (hbody : ∀ s, Attempt.Keeps R (body s)) :
    Attempt.Keeps R (E.within options body) := by
  refine Attempt.keeps_bind (Attempt.keeps_change fun b =>
      Bears.aside (.beginScope b options) (clock_addClock b) (fun _ => rfl) (spares_of_eq rfl rfl)
        (unheard_beginScope b options))
    fun s => ?_
  refine Attempt.keeps_bind (Attempt.keeps_lift ?_) fun outcome => ?_
  · exact Run.keeps_onPanic (hbody s) fun b =>
        Excuses.change (.abandon b s _ fun _ _ => rfl) (fun _ => rfl) (fun _ => rfl)
          (spares_of_eq rfl rfl) (unheard_abandon b s _)
  · exact Attempt.keeps_bind (Attempt.keeps_lift (lawful_endScope hE s)) fun _ =>
      Attempt.keeps_check _

end Marble.Engine
