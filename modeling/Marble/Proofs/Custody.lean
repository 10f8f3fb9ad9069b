import Marble.Proofs.Ledger
import Marble.Proofs.Queued

/-! Who can end a subscription: someone who has got hold of it, by its name or through a recorder,
and an action that was queued to release it. A subscription to a source that nobody has got hold of
stays so, whatever client code does, and it is left alone until its release. -/
namespace Marble

variable {α σ : Type}

/-- An action, if it is to end a certain subscription. -/
def Action.ofRelease? (s : SubscriptionRef) (a : Action α σ) : Option (Action α σ) :=
  if a.released? = some s then some a else none

theorem Action.ofRelease?_of_eq {s : SubscriptionRef} {a : Action α σ} (h : a.released? = some s) :
    a.ofRelease? s = some a := if_pos h

theorem Action.ofRelease?_of_ne {s : SubscriptionRef} {a : Action α σ} (h : a.released? ≠ some s) :
    a.ofRelease? s = none := if_neg h

theorem Action.eq_release {s : SubscriptionRef} {a : Action α σ} (h : a.released? = some s) :
    ∃ r, a = .release r s := by
  cases a with
  | release r t =>
    obtain rfl : t = s := Option.some.inj h
    exact ⟨r, rfl⟩
  | _ => cases h

namespace Bench

variable {b b' : Bench α σ} {s t : SubscriptionRef} {c : ClockRef} {r : RecorderRef}
  {a : Action α σ} {limit : VirtualTime}

/-- The releases of a subscription that are queued on a clock. -/
def releases (b : Bench α σ) (s : SubscriptionRef) (c : ClockRef) : List (Timed (Action α σ)) :=
  b.queued (Action.ofRelease? s) c

/-- Nobody has got hold of a subscription: it goes by no name, and no recorder holds it. -/
structure Unknown (b : Bench α σ) (s : SubscriptionRef) : Prop where
  unnamed : ∀ name, (name, s) ∉ b.names.subscriptions
  unheld : ∀ r, b.held r ≠ some s

/-- From one bench to another, a subscription is left alone: nobody gets hold of it, it does not
end, and no more and no fewer releases are queued for it. -/
structure Overlooks (s : SubscriptionRef) (b b' : Bench α σ) : Prop where
  releases : ∀ c, b'.releases s c = b.releases s c
  unknown : b.Unknown s → b'.Unknown s
  active : b.isActive s → b'.isActive s

instance : IsPreorder (Bench α σ) (Overlooks s) where
  refl _ := ⟨fun _ => rfl, id, id⟩
  trans _ _ _ h h' :=
    ⟨fun c => (h'.releases c).trans (h.releases c), h'.unknown ∘ h.unknown, h'.active ∘ h.active⟩

/-! ### What leaves a subscription alone -/

theorem overlooks_aside (hclock : ∀ c, b'.clock c = b.clock c) (hheld : ∀ r, b'.held r = b.held r)
    (h : Spares b b') : Overlooks s b b' where
  releases := ignores_of_clock hclock
  unknown hs := ⟨by rw [h.names]; exact hs.unnamed, fun r => by rw [hheld]; exact hs.unheld r⟩
  active := h.active s

theorem overlooks_schedule (h : a.released? ≠ some s) (b : Bench α σ) (c : ClockRef)
    (due : VirtualTime) : Overlooks s b (b.schedule c due a) :=
  ⟨ignores_schedule (Action.ofRelease?_of_ne h) b c due, fun hs => ⟨hs.unnamed, hs.unheld⟩, id⟩

theorem overlooks_next? (h : a.released? ≠ some s) (hn : b.next? c limit = some (a, b')) :
    Overlooks s b b' := by
  have hreleases : Ignores (Action.ofRelease? s) b b' :=
    ignores_next? (Action.ofRelease?_of_ne h) hn
  obtain ⟨clocks, log, rfl⟩ := next?_rest hn
  exact ⟨hreleases, fun hs => ⟨hs.unnamed, hs.unheld⟩, id⟩

/-- A recorder gets hold of one subscription at most. -/
theorem overlooks_hold {x : Option SubscriptionRef} (h : x ≠ some s) (b : Bench α σ)
    (r : RecorderRef) : Overlooks s b (b.hold r x) where
  releases _ := rfl
  unknown hs := by
    refine ⟨hs.unnamed, fun r' heq => ?_⟩
    simp only [held, hold, Table.get?_modify] at heq
    split at heq
    · cases hrow : b.recorders.get? r' with
      | none => simp [hrow] at heq
      | some row => exact h (by simpa [hrow] using heq)
    · exact hs.unheld r' heq
  active := id

theorem Mild.overlooks (h : Mild b b') (s : SubscriptionRef) : Overlooks s b b' := by
  cases h with
  | aside h hclock hheld hspares => exact overlooks_aside hclock hheld hspares
  | schedule c due ha hr hs => exact overlooks_schedule (by simp [hs]) b c due
  | @park c target h =>
    exact ⟨ignores_park b c target, fun hs => ⟨hs.unnamed, hs.unheld⟩, id⟩
  | addSource temperature c events =>
    refine keeps_addSource b temperature c events ?_ fun b' due n => ?_
    · exact overlooks_aside (fun _ => rfl) (fun _ => rfl) (spares_of_eq rfl rfl)
    · exact overlooks_schedule (by simp [Action.released?]) b' c due
  | attach source o =>
    refine keeps_attach b source o ?_ (fun row row' _ _ => ?_) fun b' c due n => ?_
    · exact overlooks_aside (fun _ => rfl) (fun _ => rfl) (spares_addSubscription b .nothing)
    · have hspares := spares_addSubscription b (.leave source row.log.length)
      exact overlooks_aside (fun _ => rfl) (fun _ => rfl) ⟨hspares.active, hspares.names⟩
    · exact overlooks_schedule (by simp [Action.released?]) b' c due

/-- What is used is not a subscription that is left alone. -/
theorem Uses.overlooks (h : Uses t b b') (hne : s ≠ t) : Overlooks s b b' := by
  have hactive : ∀ {b : Bench α σ}, b.isActive s → (b.deactivate t).isActive s := by
    intro b ha
    rw [isActive_deactivate, ha, bne_iff_ne.mpr hne]
    rfl
  cases h with
  | deactivate h ht => exact ⟨fun _ => rfl, fun hs => ⟨hs.unnamed, hs.unheld⟩, hactive⟩
  | close h ha ht => exact ⟨fun _ => rfl, fun hs => ⟨hs.unnamed, hs.unheld⟩, hactive⟩
  | name name _ =>
    refine ⟨fun _ => rfl, fun hs => ⟨fun name' hmem => ?_, hs.unheld⟩, id⟩
    rcases List.mem_cons.mp hmem with heq | hmem
    · exact hne (congrArg Prod.snd heq)
    · exact hs.unnamed name' (List.mem_of_mem_filter hmem)
  | release c due r _ =>
    exact overlooks_schedule (by simpa [Action.released?] using hne.symm) b c due

theorem Uses.made (h : Uses s b b') : s.index < b.subscriptions.next.index := by
  have hrow : ∀ {row : Subscription σ}, b.subscriptions.get? s = some row →
      s.index < b.subscriptions.next.index := by
    intro row hrow
    refine Nat.lt_of_not_le fun hle => ?_
    rw [Table.get?_eq_none_of_le hle] at hrow
    cases hrow
  cases h with
  | deactivate h _ => exact hrow h
  | close h _ _ => exact hrow h
  | name _ hmade => exact hmade
  | release _ _ _ hmade => exact hmade

theorem Uses.change (h : Uses s b b') : Change b b' := .plain h.tame.basic.plain

theorem Mild.change (h : Mild b b') : Change b b' := .plain h.tame.basic.plain

theorem overlooks_prepared (b : Bench α σ) (c : ClockRef) (factory : σ) (options : RunOptions)
    (s : SubscriptionRef) : Overlooks s b (Engine.prepared b c factory options) :=
  Engine.keeps_prepared b c factory options
    (overlooks_aside (fun _ => rfl) (held_addRecorder b c) (spares_of_eq rfl rfl))
    fun b' due _ ha => overlooks_schedule (by simp [Action.released?_of_run? ha]) b' c due

/-! ### Left alone until its release -/

/-- What may happen while nobody has got hold of a subscription: anything that leaves it alone, and
that its release starts and is carried out. -/
inductive Passes (s : SubscriptionRef) : Bench α σ → Bench α σ → Prop
  | aside {b b' : Bench α σ} (h : Change b b') (ho : Overlooks s b b') : Passes s b b'
  | release {b b' : Bench α σ} {c : ClockRef} {limit : VirtualTime} {r : RecorderRef}
    (h : b.next? c limit = some (.release r s, b')) (E : Engine α σ) :
    Passes s b (E.perform (.release r s) b').2

/-- Any number of such things. -/
abbrev Ensues (s : SubscriptionRef) : Bench α σ → Bench α σ → Prop :=
  Relation.ReflTransGen (Passes s)

/-- A subscription to a source that nobody has got hold of. -/
structure Secluded (b : Bench α σ) (s : SubscriptionRef) : Prop where
  lived : b.Lived
  unknown : b.Unknown s
  leaves : ∃ source e, b.leaves? s = some (source, e)

theorem Secluded.made (h : b.Secluded s) : s.index < b.subscriptions.next.index := by
  obtain ⟨source, e, hleaves⟩ := h.leaves
  exact lt_next_of_leaves? hleaves

/-- Who gets hold of something gets hold of something else. -/
theorem Secluded.ne (h : b.Secluded s) (ht : b.AtLarge t) : s ≠ t := by
  rintro rfl
  rcases ht with ⟨name, hmem⟩ | ⟨r, hheld⟩ | hle
  · exact h.unknown.unnamed name hmem
  · exact h.unknown.unheld r hheld
  · exact absurd h.made (Nat.not_lt.mpr hle)

theorem Secluded.reached (h : b.Secluded s) (hreaches : Reaches b b') (hu : b'.Unknown s) :
    b'.Secluded s where
  lived := h.lived.reaches hreaches
  unknown := hu
  leaves := by
    obtain ⟨source, e, hleaves⟩ := h.leaves
    exact ⟨source, e, ((Reaches.retains h.lived.rostered hreaches).leaves s h.made).trans hleaves⟩

/-- The release of a subscription to a source ends it, if it is still active, and does nothing
else. -/
theorem perform_release_leaving {E : Engine α σ} {source : SourceRef} {e : Nat}
    (h : b.leaves? s = some (source, e)) (r : RecorderRef) :
    E.perform (.release r s) b = (.done (),
      if b.isActive s then (b.detach r).discharge s source e else b.detach r) := by
  rw [Engine.perform, Run.update_bind]
  exact dispose_leaving (b := b.detach r) h

theorem Secluded.release (h : b.Secluded s) {E : Engine α σ} (r : RecorderRef) :
    Reaches b (E.perform (.release r s) b).2 ∧ (E.perform (.release r s) b).2.Unknown s := by
  obtain ⟨source, e, hleaves⟩ := h.leaves
  rw [perform_release_leaving hleaves]
  have hdetached : (b.detach r).Unknown s :=
    ⟨h.unknown.unnamed, fun r' => by rw [held_detach]; exact h.unknown.unheld r'⟩
  have hreaches : Reaches b (b.detach r) := (Change.plain (.detach b r)).reaches
  split
  next ha =>
    refine ⟨hreaches.tail (.plain ?_), hdetached.unnamed, hdetached.unheld⟩
    exact plain_discharge (b := b.detach r) hleaves ha
  · exact ⟨hreaches, hdetached⟩

theorem Secluded.started (h : b.Secluded s) (hn : b.next? c limit = some (a, b')) :
    b'.Secluded s := by
  refine h.reached (Change.plain (.start hn)).reaches ?_
  obtain ⟨clocks, log, rfl⟩ := next?_rest hn
  exact ⟨h.unknown.unnamed, h.unknown.unheld⟩

theorem Secluded.passes (h : b.Secluded s) (hp : Passes s b b') : Reaches b b' ∧ b'.Secluded s := by
  cases hp with
  | aside hchange ho => exact ⟨hchange.reaches, h.reached hchange.reaches (ho.unknown h.unknown)⟩
  | @release b₁ c limit r hn E =>
    have hstart : Reaches b b₁ := (Change.plain (.start hn)).reaches
    obtain ⟨hreaches, hunknown⟩ := (h.started hn).release (E := E) r
    exact ⟨hstart.trans hreaches, h.reached (hstart.trans hreaches) hunknown⟩

theorem Secluded.ensues (h : b.Secluded s) (he : Ensues s b b') : Reaches b b' ∧ b'.Secluded s := by
  induction he with
  | refl => exact ⟨.refl, h⟩
  | tail _ hp ih =>
    obtain ⟨hreaches, hsecluded⟩ := ih
    obtain ⟨hstep, hsecluded'⟩ := hsecluded.passes hp
    exact ⟨hreaches.trans hstep, hsecluded'⟩

/-- A subscription that nobody has got hold of is left alone until its release. -/
def Secluding (s : SubscriptionRef) (b b' : Bench α σ) : Prop := b.Secluded s → Ensues s b b'

instance : IsPreorder (Bench α σ) (Secluding s) where
  refl _ _ := .refl
  trans _ _ _ h h' hs := (h hs).trans (h' (hs.ensues (h hs)).2)

theorem secluding_aside (h : Change b b') (ho : Overlooks s b b') : Secluding s b b' := fun _ =>
  .single (.aside h ho)

/-- Who uses what he has got hold of leaves everything else alone. -/
theorem Secluding.used {b₁ b₂ : Bench α σ} (hs : b.AtLarge t) (h : Secluding s b b₁)
    (hu : Uses t b₁ b₂) : Secluding s b b₂ := fun hb =>
  (h hb).tail (.aside hu.change (hu.overlooks (hb.ne hs)))

instance : Grants (Secluding s : Bench α σ → Bench α σ → Prop) where
  mild h := secluding_aside h.change (h.overlooks s)
  use := Secluding.used
  change h hclock hheld hspares := secluding_aside h (overlooks_aside hclock hheld hspares)

instance {E : Engine α σ} : E.Drives (Secluding s) where
  turn hE _ c limit a b b' hn := by
    by_cases ha : a.released? = some s
    · obtain ⟨r, rfl⟩ := Action.eq_release ha
      exact fun _ => .single (.release hn E)
    · have hstart : Secluding s b b' :=
        secluding_aside (.plain (.start hn)) (overlooks_next? ha hn)
      refine trans_of (Secluding s) hstart (Engine.respects_turn hE ?_ ?_ ?_)
      · rintro r t rfl b₁ b₂ h hu hb
        have hne : s ≠ t := by
          rintro rfl
          exact ha rfl
        exact (h hb).tail (.aside hu.change (hu.overlooks hne))
      · intro r _ b₀ b₁ t ht h _ hb
        have hne : some t ≠ some s := fun heq => hb.ne ht (Option.some.inj heq).symm
        exact (h hb).tail (.aside (.plain (.hold b₁ r (some t))) (overlooks_hold hne b₁ r))
      · intro r _ b₁
        exact secluding_aside (.plain (.hold b₁ r none)) (overlooks_hold (by simp) b₁ r)
  prepare b c factory options := by
    refine Engine.keeps_prepared b c factory options ?_ fun b' due a ha => ?_
    · exact Heeds.aside (.addRecorder b c) (fun _ => rfl) (held_addRecorder b c)
        (spares_of_eq rfl rfl)
    · exact secluding_aside (.plain (.schedule b' c due
        (Action.isMulticast_of_isEvent (Action.isEvent_of_run? ha))))
        (overlooks_schedule (by simp [Action.released?_of_run? ha]) b' c due)

/-! ### Subscriptions that are yet to be made -/

/-- A bench that has come about from an empty one, where nobody knows of a subscription that is yet
to be made, and no release of it is queued. -/
structure Innocent (b : Bench α σ) : Prop where
  lived : b.Lived
  unknown : ∀ s : SubscriptionRef, b.subscriptions.next.index ≤ s.index → b.Unknown s
  releases : ∀ s : SubscriptionRef, b.subscriptions.next.index ≤ s.index → ∀ c, b.releases s c = []

/-- An innocent bench comes to another such bench. -/
def Acquitting (b b' : Bench α σ) : Prop := b.Innocent → b'.Innocent

instance : IsPreorder (Bench α σ) Acquitting where
  refl _ := id
  trans _ _ _ h h' := h' ∘ h

theorem Innocent.overlooked (hb : b.Innocent) (h : Reaches b b')
    (ho : ∀ s : SubscriptionRef, b'.subscriptions.next.index ≤ s.index → Overlooks s b b') :
    b'.Innocent := by
  have hnext : ∀ {s : SubscriptionRef}, b'.subscriptions.next.index ≤ s.index →
      b.subscriptions.next.index ≤ s.index :=
    fun hs => Nat.le_trans (Reaches.retains hb.lived.rostered h).next hs
  exact ⟨hb.lived.reaches h, fun s hs => (ho s hs).unknown (hb.unknown s (hnext hs)),
    fun s hs c => ((ho s hs).releases c).trans (hb.releases s (hnext hs) c)⟩

theorem Innocent.used (hb : b.Innocent) (hu : Uses t b b') : b'.Innocent := by
  refine hb.overlooked hu.change.reaches fun s hs => hu.overlooks ?_
  rintro rfl
  have hnext := (Reaches.retains hb.lived.rostered hu.change.reaches).next
  exact absurd hu.made (Nat.not_lt.mpr (Nat.le_trans hnext hs))

theorem Innocent.held (hb : b.Innocent) (r : RecorderRef) {x : Option SubscriptionRef}
    (hx : ∀ t, x = some t → t.index < b.subscriptions.next.index) : (b.hold r x).Innocent := by
  refine hb.overlooked (Change.plain (.hold b r x)).reaches fun s hs => overlooks_hold ?_ b r
  rintro rfl
  exact absurd (hx s rfl) (Nat.not_lt.mpr hs)

/-- The action that starts is no release of a subscription that is yet to be made. -/
theorem Innocent.started (hb : b.Innocent) (hn : b.next? c limit = some (a, b')) : b'.Innocent := by
  refine hb.overlooked (Change.plain (.start hn)).reaches fun s hs => overlooks_next? ?_ hn
  intro ha
  have hnext : b.subscriptions.next.index ≤ s.index :=
    Nat.le_trans (Reaches.retains hb.lived.rostered (Change.plain (.start hn)).reaches).next hs
  have hhead := (queued_next? (hb.lived.ordered c) (Action.ofRelease?_of_eq ha) hn).1
  cases hhead.symm.trans (hb.releases s hnext c)

instance : Grants (Acquitting : Bench α σ → Bench α σ → Prop) where
  mild h hb := hb.overlooked h.change.reaches fun s _ => h.overlooks s
  use _ h hu hb := (h hb).used hu
  change h hclock hheld hspares hb :=
    hb.overlooked h.reaches fun _ _ => overlooks_aside hclock hheld hspares

instance {E : Engine α σ} : E.Drives Acquitting where
  turn hE _ _ _ a _ _ hn hb := by
    refine Engine.respects_turn hE (fun _ _ _ _ _ h hu hb => (h hb).used hu) ?_ ?_ (hb.started hn)
    · exact fun r _ _ b₁ t _ h hmade hb => (h hb).held r fun t' ht => Option.some.inj ht ▸ hmade
    · exact fun r _ b₁ hb => hb.held r nofun
  prepare b c factory options hb :=
    hb.overlooked (Engine.allows_prepared b c factory options) fun s _ =>
      overlooks_prepared b c factory options s

end Bench

end Marble
