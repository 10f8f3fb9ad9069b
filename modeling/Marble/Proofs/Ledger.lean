import Marble.Proofs.Listening

/-! The log of a source, entry by entry: an entry stays open as long as its subscription is active,
is closed at the time the clock of the source reads then, and is not touched again. -/
namespace Marble.Bench

variable {α σ : Type} {b b' b'' : Bench α σ} {s t : SourceRef} {r : SubscriptionRef} {e : Nat}
  {source : Source α} {x : SubscriptionRecord}

/-- The entry of a source's log under a number. -/
def record? (b : Bench α σ) (s : SourceRef) (e : Nat) : Option SubscriptionRecord :=
  (b.sources.get? s).bind (·.log[e]?)

/-- How late it is on the clock of a source. -/
def reading (b : Bench α σ) (s : SourceRef) : VirtualTime :=
  ((b.sources.get? s).map fun source => b.now source.clock).getD .zero

/-- Every subscription to a source has a log entry there, which is open as long as the subscription
is active. No entry is closed before it was made, and none later than now. -/
structure Logged (b : Bench α σ) : Prop where
  entry : ∀ r s e, b.leaves? r = some (s, e) →
    ∃ x, b.record? s e = some x ∧ (x.unsubscribed = none ↔ b.isActive r)
  made : ∀ s e x, b.record? s e = some x → x.subscribed ≤ b.reading s
  closed : ∀ s e x u, b.record? s e = some x → x.unsubscribed = some u →
    x.subscribed ≤ u ∧ u ≤ b.reading s

/-- What becomes of the logs: sources stay on their clocks, entries keep the time they were made,
and a closed one is final. -/
structure Amends (b b' : Bench α σ) : Prop where
  logged : b'.Logged
  clock : ∀ s source, b.sources.get? s = some source →
    ∃ source', b'.sources.get? s = some source' ∧ source'.clock = source.clock
  entry : ∀ s e x, b.record? s e = some x → ∃ x', b'.record? s e = some x' ∧
    x'.subscribed = x.subscribed ∧ ∀ u, x.unsubscribed = some u → x'.unsubscribed = some u

/-! ### Reading the log -/

theorem record?_of_source (hs : b.sources.get? s = some source) :
    b.record? s e = source.log[e]? := by
  simp [record?, hs]

theorem reading_of_source (hs : b.sources.get? s = some source) :
    b.reading s = b.now source.clock := by
  simp [reading, hs]

/-- Time passes for the sources as it does on the clocks. -/
theorem reading_mono (hnow : ∀ c, b.now c ≤ b'.now c)
    (hclock : ∀ s source, b.sources.get? s = some source →
      ∃ source', b'.sources.get? s = some source' ∧ source'.clock = source.clock)
    (s : SourceRef) : b.reading s ≤ b'.reading s := by
  cases hs : b.sources.get? s with
  | none =>
    rw [reading, hs]
    exact VirtualTime.le_iff.mpr (Nat.zero_le _)
  | some source =>
    obtain ⟨source', hs', hkept⟩ := hclock s source hs
    rw [reading_of_source hs, reading_of_source hs', hkept]
    exact hnow source.clock

/-! ### Keeping the log -/

theorem Amends.refl (h : b.Logged) : Amends b b :=
  ⟨h, fun _ source hs => ⟨source, hs, rfl⟩, fun _ _ x hx => ⟨x, hx, rfl, fun _ => id⟩⟩

theorem Amends.trans (h : Amends b b') (h' : Amends b' b'') : Amends b b'' where
  logged := h'.logged
  clock s source hs := by
    obtain ⟨source', hs', hkept⟩ := h.clock s source hs
    obtain ⟨source'', hs'', hkept'⟩ := h'.clock s source' hs'
    exact ⟨source'', hs'', hkept'.trans hkept⟩
  entry s e x hx := by
    obtain ⟨x', hx', hmade, hclosed⟩ := h.entry s e x hx
    obtain ⟨x'', hx'', hmade', hclosed'⟩ := h'.entry s e x' hx'
    exact ⟨x'', hx'', hmade'.trans hmade, fun u hu => hclosed' u (hclosed u hu)⟩

/-- A bench whose subscriptions and logs are in order comes to another such bench. -/
def Amending (b b' : Bench α σ) : Prop := b.Rostered → b.Logged → Amends b b'

/-- Changes that touch no entry of a log, and no subscription that has one. -/
theorem Logged.amends_aside (h : b.Logged) (hnow : ∀ c, b.now c ≤ b'.now c)
    (hclock : ∀ s source, b.sources.get? s = some source →
      ∃ source', b'.sources.get? s = some source' ∧ source'.clock = source.clock)
    (hrecord : ∀ s e, b'.record? s e = b.record? s e)
    (hkept : ∀ r y, b'.leaves? r = some y → b.leaves? r = some y ∧ b'.isActive r = b.isActive r) :
    Amends b b' where
  logged := {
    entry := fun r s e hr => by
      obtain ⟨hold, hactive⟩ := hkept r (s, e) hr
      rw [hrecord, hactive]
      exact h.entry r s e hold
    made := fun s e x hx => by
      rw [hrecord] at hx
      exact le_trans (h.made s e x hx) (reading_mono hnow hclock s)
    closed := fun s e x u hx hu => by
      rw [hrecord] at hx
      obtain ⟨hspan, hpast⟩ := h.closed s e x u hx hu
      exact ⟨hspan, le_trans hpast (reading_mono hnow hclock s)⟩ }
  clock := hclock
  entry s e x hx := ⟨x, by rw [hrecord, hx], rfl, fun _ => id⟩

theorem amending_of_eq (hnow : ∀ c, b.now c ≤ b'.now c) (hsources : b'.sources = b.sources)
    (hsubscriptions : b'.subscriptions = b.subscriptions) : Amending b b' := fun _ h =>
  h.amends_aside hnow (fun s source hs => ⟨source, by rw [hsources, hs], rfl⟩)
    (fun s e => by rw [record?, hsources, record?])
    fun r y hr => by
      rw [leaves?, hsubscriptions] at hr
      exact ⟨hr, by rw [isActive, hsubscriptions, isActive]⟩

theorem amending_addSubscription (b : Bench α σ) {t : Teardown σ} (ht : t.leaves? = none) :
    Amending b (b.addSubscription t).2 := fun _ h =>
  h.amends_aside (fun _ => le_refl _) (fun _ source hs => ⟨source, hs, rfl⟩) (fun _ _ => rfl)
    fun r y hr => by
      rw [leaves?_addSubscription] at hr
      split at hr
      · rw [ht] at hr
        cases hr
      next hne => exact ⟨hr, by rw [isActive_addSubscription, if_neg hne]⟩

theorem amending_deactivate (b : Bench α σ) (hr : b.leaves? r = none) :
    Amending b (b.deactivate r) := fun _ h =>
  h.amends_aside (fun _ => le_refl _) (fun _ source hs => ⟨source, hs, rfl⟩) (fun _ _ => rfl)
    fun r' y hr' => by
      rw [leaves?_deactivate] at hr'
      have hne : r' ≠ r := by
        rintro rfl
        rw [hr] at hr'
        cases hr'
      refine ⟨hr', ?_⟩
      rw [isActive_deactivate, bne_iff_ne.mpr hne, Bool.and_true]

/-- A new source has an empty log. -/
theorem record?_addSource (b : Bench α σ) (temperature : Temperature) (c : ClockRef)
    (events : List (Timed (Signal α))) (s : SourceRef) (e : Nat) :
    (b.addSource temperature c events).2.record? s e = b.record? s e := by
  rw [record?, (b.addSource_fields temperature c events).2.2.1, Table.get?_push]
  split
  next hs =>
    subst hs
    simp [record?, Table.get?_next]
  · rfl

theorem amending_addSource (b : Bench α σ) (temperature : Temperature) (c : ClockRef)
    (events : List (Timed (Signal α))) : Amending b (b.addSource temperature c events).2 := by
  obtain ⟨-, hsubscriptions, hsources, -⟩ := b.addSource_fields temperature c events
  intro _ h
  refine h.amends_aside (Plain.addSource b temperature c events).follows.now_le
    (fun s source hs => ?_)
    (b.record?_addSource temperature c events) fun r y hr => ?_
  · have hne : s ≠ b.sources.next := by
      rintro rfl
      simp [Table.get?_next] at hs
    exact ⟨source, by rw [hsources, Table.get?_push, if_neg hne, hs], rfl⟩
  · rw [leaves?, hsubscriptions] at hr
    exact ⟨hr, by rw [isActive, hsubscriptions, isActive]⟩

/-! ### A new subscription -/

/-- A new subscription to a source is entered at the end of its log. -/
theorem record?_attach (hs : b.sources.get? s = some source) (o : Observer α) (t : SourceRef)
    (e : Nat) :
    (b.attach s o).2.record? t e =
      if t = s ∧ e = source.log.length then some ⟨b.now source.clock, none⟩ else b.record? t e := by
  rw [attach_eq hs]
  change ((b.sources.modify s fun _ => _).get? t).bind (·.log[e]?) = _
  rw [Table.get?_modify]
  by_cases ht : s = t
  · subst ht
    simp only [if_pos, hs, Option.map_some, Option.bind_some, Source.join, true_and, record?]
    rcases Nat.lt_trichotomy e source.log.length with hlt | rfl | hgt
    · rw [List.getElem?_append_left hlt, if_neg (Nat.ne_of_lt hlt)]
    · simp
    · rw [if_neg (Nat.ne_of_gt hgt), List.getElem?_eq_none (Nat.le_of_lt hgt),
        List.getElem?_eq_none (by simp; omega)]
  · rw [if_neg ht, if_neg fun h => ht h.1.symm]
    rfl

theorem leaves?_attach (hs : b.sources.get? s = some source) (o : Observer α)
    (r : SubscriptionRef) :
    (b.attach s o).2.leaves? r =
      if r = b.subscriptions.next then some (s, source.log.length) else b.leaves? r := by
  rw [attach_eq hs]
  exact leaves?_addSubscription b (.leave s source.log.length) r

theorem isActive_attach (hs : b.sources.get? s = some source) (o : Observer α)
    (r : SubscriptionRef) :
    (b.attach s o).2.isActive r = if r = b.subscriptions.next then true else b.isActive r := by
  rw [attach_eq hs]
  exact isActive_addSubscription b (.leave s source.log.length) r

theorem record?_length (hs : b.sources.get? s = some source) :
    b.record? s source.log.length = none := by
  rw [record?_of_source hs, List.getElem?_eq_none (Nat.le_refl _)]

/-- What has been entered before a subscription stands there after it. -/
theorem record?_attach_of_some (hs : b.sources.get? s = some source) (o : Observer α)
    (hx : b.record? t e = some x) : (b.attach s o).2.record? t e = some x := by
  have hne : ¬ (t = s ∧ e = source.log.length) := by
    rintro ⟨rfl, rfl⟩
    rw [record?_length hs] at hx
    cases hx
  rw [record?_attach hs, if_neg hne, hx]

/-- What is entered after a subscription has been before it, or is its own entry. -/
theorem record?_attach_cases (hs : b.sources.get? s = some source) {o : Observer α}
    (hx : (b.attach s o).2.record? t e = some x) :
    b.record? t e = some x ∨ t = s ∧ x = ⟨b.now source.clock, none⟩ := by
  rw [record?_attach hs] at hx
  split at hx
  next h => exact Or.inr ⟨h.1, (Option.some.inj hx).symm⟩
  · exact Or.inl hx

/-- Sources stay on their clocks when one of them gets a subscription. -/
theorem clock_of_attach {row : Source α} (hrow : b.sources.get? t = some row) (s : SourceRef)
    (o : Observer α) :
    ∃ row', (b.attach s o).2.sources.get? t = some row' ∧ row'.clock = row.clock := by
  have hbare := b.bare_attach s o t
  rw [hrow] at hbare
  obtain ⟨row', hrow', hsame⟩ := Option.map_eq_some_iff.mp hbare
  have hkept : row'.bare.clock = row.bare.clock := by rw [hsame]
  exact ⟨row', hrow', hkept⟩

theorem amending_attach (b : Bench α σ) (s : SourceRef) (o : Observer α) :
    Amending b (b.attach s o).2 := by
  cases hs : b.sources.get? s with
  | none =>
    rw [attach_of_none hs]
    exact amending_addSubscription b rfl
  | some source =>
    intro _ h
    have hnow : ∀ t, b.reading t ≤ (b.attach s o).2.reading t :=
      reading_mono (Plain.attach b s o).follows.now_le fun _ _ hrow => clock_of_attach hrow s o
    refine ⟨⟨fun r t e hr => ?_, fun t e x hx => ?_, fun t e x u hx hu => ?_⟩,
      fun _ _ hrow => clock_of_attach hrow s o,
      fun t e x hx => ⟨x, record?_attach_of_some hs o hx, rfl, fun _ => id⟩⟩
    · rw [leaves?_attach hs] at hr
      rw [isActive_attach hs]
      split at hr
      next hr' =>
        obtain ⟨rfl, rfl⟩ := Prod.mk.inj (Option.some.inj hr)
        exact ⟨⟨b.now source.clock, none⟩, by rw [record?_attach hs, if_pos ⟨rfl, rfl⟩],
          by rw [if_pos hr']; simp⟩
      next hr' =>
        obtain ⟨x, hx, hiff⟩ := h.entry r t e hr
        exact ⟨x, record?_attach_of_some hs o hx, by rw [if_neg hr']; exact hiff⟩
    · rcases record?_attach_cases hs hx with hx | ⟨rfl, rfl⟩
      · exact le_trans (h.made t e x hx) (hnow t)
      · rw [← reading_of_source hs]
        exact hnow t
    · rcases record?_attach_cases hs hx with hx | ⟨-, rfl⟩
      · obtain ⟨hspan, hpast⟩ := h.closed t e x u hx hu
        exact ⟨hspan, le_trans hpast (hnow t)⟩
      · cases hu

/-! ### The end of a subscription -/

theorem record?_discharge (b : Bench α σ) (r : SubscriptionRef) (s : SourceRef) (e : Nat)
    (t : SourceRef) (e' : Nat) :
    (b.discharge r s e).record? t e' = (b.record? t e').map fun x =>
      if t = s ∧ e' = e then { x with unsubscribed := some (b.reading s) } else x := by
  rw [record?, get?_discharge]
  by_cases hs : s = t
  · subst hs
    cases hsource : b.sources.get? s with
    | none => simp [record?, hsource]
    | some source =>
      simp only [if_pos, Option.map_some, Option.bind_some, Source.leave, List.getElem?_modify,
        record?_of_source hsource, reading_of_source hsource, true_and]
      by_cases he : e = e'
      · simp [he]
      · simp [he, Ne.symm he]
  · rw [if_neg hs, record?]
    cases hx : (b.sources.get? t).bind (·.log[e']?) with
    | none => rfl
    | some x => simp [Ne.symm hs]

theorem reading_discharge (b : Bench α σ) (r : SubscriptionRef) (s : SourceRef) (e : Nat)
    (t : SourceRef) : (b.discharge r s e).reading t = b.reading t := by
  rw [reading, get?_discharge]
  split
  · cases hsource : b.sources.get? t with
    | none => simp [reading, hsource]
    | some source =>
      rw [reading_of_source hsource]
      rfl
  · rfl

/-- What is entered after a subscription has ended has been before, or is its own entry, now
closed. -/
theorem record?_discharge_cases {own : SubscriptionRecord} {e' : Nat}
    (hown : b.record? s e = some own) (hx : (b.discharge r s e).record? t e' = some x) :
    b.record? t e' = some x ∨ t = s ∧ x = { own with unsubscribed := some (b.reading s) } := by
  rw [record?_discharge] at hx
  obtain ⟨y, hy, rfl⟩ := Option.map_eq_some_iff.mp hx
  split
  next h =>
    obtain ⟨rfl, rfl⟩ := h
    obtain rfl := Option.some.inj (hown.symm.trans hy)
    exact Or.inr ⟨rfl, rfl⟩
  · exact Or.inl hy

/-- The entries of subscriptions are open as long as they are active, also when one of them ends:
its entry is no other's. -/
theorem entry_discharge (hrostered : b.Rostered) (h : b.Logged) (hr : b.leaves? r = some (s, e))
    {r' : SubscriptionRef} {e' : Nat} (hr' : (b.discharge r s e).leaves? r' = some (t, e')) :
    ∃ x, (b.discharge r s e).record? t e' = some x ∧
      (x.unsubscribed = none ↔ (b.discharge r s e).isActive r') := by
  have hleaves : (b.discharge r s e).leaves? = b.leaves? := leaves?_deactivate b r
  have hactive : (b.discharge r s e).isActive r' = (b.isActive r' && r' != r) :=
    isActive_deactivate b r r'
  rw [hleaves] at hr'
  obtain ⟨x, hx, hiff⟩ := h.entry r' t e' hr'
  rw [record?_discharge, hx, hactive]
  by_cases hsame : t = s ∧ e' = e
  · obtain ⟨rfl, rfl⟩ := hsame
    obtain rfl := hrostered.apart r' r _ hr' hr
    exact ⟨_, rfl, by simp⟩
  · have hne : r' ≠ r := by
      rintro rfl
      obtain ⟨rfl, rfl⟩ := Prod.mk.inj (Option.some.inj (hr'.symm.trans hr))
      exact hsame ⟨rfl, rfl⟩
    rw [bne_iff_ne.mpr hne, Bool.and_true]
    exact ⟨x, by rw [Option.map_some, if_neg hsame], hiff⟩

/-- The end of a subscription closes its own entry, which was open, and no other. -/
theorem amending_discharge (hr : b.leaves? r = some (s, e)) (ha : b.isActive r) :
    Amending b (b.discharge r s e) := by
  intro hrostered h
  obtain ⟨own, hown, hopen⟩ := h.entry r s e hr
  refine ⟨⟨fun r' t e' hr' => entry_discharge hrostered h hr hr', fun t e' x hx => ?_,
    fun t e' x u hx hu => ?_⟩, fun t row hrow => ?_, fun t e' x hx => ?_⟩
  · rw [reading_discharge]
    rcases record?_discharge_cases hown hx with hx | ⟨rfl, rfl⟩
    · exact h.made t e' x hx
    · exact h.made t e own hown
  · rw [reading_discharge]
    rcases record?_discharge_cases hown hx with hx | ⟨rfl, rfl⟩
    · exact h.closed t e' x u hx hu
    · obtain rfl := Option.some.inj hu
      exact ⟨h.made t e own hown, le_refl _⟩
  · rw [get?_discharge, hrow]
    split
    · exact ⟨_, rfl, rfl⟩
    · exact ⟨row, rfl, rfl⟩
  · rw [record?_discharge, hx]
    refine ⟨_, rfl, ?_, fun u hu => ?_⟩
    · split <;> rfl
    · split
      next h =>
        obtain ⟨rfl, rfl⟩ := h
        obtain rfl := Option.some.inj (hown.symm.trans hx)
        rw [hopen.mpr ha] at hu
        cases hu
      · exact hu

/-! ### Every change -/

theorem Change.amending (h : Change b b') : Amending b b' := by
  have hnow := h.follows.now_le
  cases h with
  | plain h =>
    cases h with
    | addSubscription ht => exact amending_addSubscription b ht
    | deactivate h ht => exact amending_deactivate b (by simp [leaves?, h, ht])
    | close h ha ht =>
      exact amending_discharge (by simp [leaves?, h, ht, Teardown.leaves?])
        (by simp [isActive, h, ha])
    | addSource temperature c events => exact amending_addSource b temperature c events
    | attach s o => exact amending_attach b s o
    | start h =>
      obtain ⟨clocks, log, rfl⟩ := next?_rest h
      exact amending_of_eq hnow rfl rfl
    | register s t a =>
      refine amending_of_eq hnow ?_ ?_ <;>
        · rw [Bench.register]
          split <;> rfl
    | _ => exact amending_of_eq hnow rfl rfl
  | _ => exact amending_of_eq hnow rfl rfl

/-- Whatever happens, the logs stay in order, and an entry changes at most once. -/
theorem Reaches.amends (hrostered : b.Rostered) (hlogged : b.Logged) (h : Reaches b b') :
    Amends b b' := by
  induction h with
  | refl => exact .refl hlogged
  | tail hreach hstep ih =>
    exact ih.trans (hstep.amending (Reaches.retains hrostered hreach).rostered ih.logged)

theorem Lived.logged (h : b.Lived) : b.Logged := by
  have hempty : ({} : Bench α σ).Logged := by
    constructor <;> simp [leaves?, record?, Table.get?]
  exact (Reaches.amends rostered_empty hempty h).logged

theorem Lived.amends (h : b.Lived) (h' : Reaches b b') : Amends b b' :=
  Reaches.amends h.rostered h.logged h'

/-- The entry of a subscription that has ended is closed, at some time from its making to now. -/
theorem Lived.record_of_ended (hb : b.Lived) (h : Reaches b b') (hr : b.leaves? r = some (s, e))
    (hx : b.record? s e = some x) (hended : b'.isActive r = false) :
    ∃ u, b'.record? s e = some ⟨x.subscribed, some u⟩ ∧ x.subscribed ≤ u ∧ u ≤ b'.reading s := by
  have hr' : b'.leaves? r = some (s, e) :=
    ((Reaches.retains hb.rostered h).leaves r (lt_next_of_leaves? hr)).trans hr
  have hamends := hb.amends h
  obtain ⟨x', hx', hsubscribed, -⟩ := hamends.entry s e x hx
  obtain ⟨x'', hx'', hiff⟩ := hamends.logged.entry r s e hr'
  obtain rfl := Option.some.inj (hx'.symm.trans hx'')
  rw [hended] at hiff
  obtain ⟨t, _ | u⟩ := x'
  · exact absurd (hiff.mp rfl) (by simp)
  · obtain ⟨hspan, hpast⟩ := hamends.logged.closed s e _ u hx' rfl
    obtain rfl : t = x.subscribed := hsubscribed
    exact ⟨u, hx', hspan, hpast⟩

end Marble.Bench
