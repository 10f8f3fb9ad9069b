import Marble.Proofs.Airing
import Marble.Proofs.Deliveries

/-! What a subscriber of a cold source is told while anything else goes on: other subscribers come,
go and are told in between, and the subscription may be disposed at any point. -/
namespace Marble

variable {α σ : Type}

theorem Action.delivery?_of_not_isEvent {a : Action α σ} {r : SubscriptionRef}
    (h : a.isEvent = false) : a.delivery? r = none := by
  cases a <;> first | rfl | cases h

theorem Action.eq_deliver {a : Action α σ} {r : SubscriptionRef} {n : Signal α}
    (h : a.delivery? r = some n) : ∃ o, a = .deliver r o n := by
  cases a with
  | deliver t o m =>
    rw [Action.delivery?] at h
    split at h
    next ht => exact ⟨o, by rw [ht, Option.some.inj h]⟩
    · cases h
  | _ => cases h

namespace Bench

variable {b b' b'' : Bench α σ} {c : ClockRef} {limit : VirtualTime} {a : Action α σ}
  {r : SubscriptionRef} {s : SourceRef} {source : Source α}

/-! ### The clocks in a move -/

/-- A clock reads what it did, and has started no action. -/
structure Rests (c : ClockRef) (b b' : Bench α σ) : Prop where
  now : b'.now c = b.now c
  dispatched : (b'.clock c).dispatched = (b.clock c).dispatched

instance : IsPreorder (Bench α σ) (Rests c) where
  refl _ := ⟨rfl, rfl⟩
  trans _ _ _ h h' := ⟨h'.now.trans h.now, h'.dispatched.trans h.dispatched⟩

theorem rests_of_clock (h : b'.clock c = b.clock c) : Rests c b b' :=
  ⟨congrArg Clock.now h, congrArg Clock.dispatched h⟩

theorem rests_schedule (b : Bench α σ) (c c' : ClockRef) (due : VirtualTime) (a : Action α σ) :
    Rests c b (b.schedule c' due a) := by
  have hclock : (b.schedule c' due a).clock c = (b.clock c).schedule due a ∨
      (b.schedule c' due a).clock c = b.clock c := by
    rw [schedule, clock_modify]
    split
    · exact Or.inl rfl
    · exact Or.inr rfl
  rcases hclock with hclock | hclock
  · refine ⟨?_, by rw [hclock]; rfl⟩
    change ((b.schedule c' due a).clock c).now = (b.clock c).now
    rw [hclock]
    rfl
  · exact rests_of_clock hclock

/-- A move starts an action of a clock, parks it, or lets it rest. -/
theorem Move.cases (h : Move b b') (c : ClockRef) :
    (∃ limit a, b.next? c limit = some (a, b')) ∨
      (∃ target, b.next? c target = none ∧ b.now c ≤ target ∧ b' = b.park c target) ∨
      Rests c b b' := by
  cases h with
  | aside _ hclock => exact Or.inr (Or.inr (rests_of_clock (hclock c)))
  | basic h =>
    cases h with
    | aside _ hclock => exact Or.inr (Or.inr (rests_of_clock (hclock c)))
    | schedule c' due _ => exact Or.inr (Or.inr (rests_schedule b c c' due _))
    | addSource temperature c' events =>
      exact Or.inr (Or.inr (keeps_addSource b temperature c' events (rests_of_clock rfl)
        fun b₁ due _ => rests_schedule b₁ c c' due _))
    | attach s o =>
      exact Or.inr (Or.inr (keeps_attach b s o (rests_of_clock rfl)
        (fun _ _ _ _ => rests_of_clock rfl) fun b₁ c' due _ => rests_schedule b₁ c c' due _))
    | @start _ c' limit a h =>
      by_cases hc : c = c'
      · exact Or.inl ⟨limit, a, hc ▸ h⟩
      · obtain ⟨-, -, -, -, -, hother, -⟩ := clock_next? h
        exact Or.inr (Or.inr (rests_of_clock (hother c hc)))
    | @park c' target h =>
      by_cases hc : c = c'
      · subst hc
        rcases le_or_gt (b.now c) target with hle | hlt
        · exact Or.inr (Or.inl ⟨target, h, hle, rfl⟩)
        · refine Or.inr (Or.inr (rests_of_clock ?_))
          have hnow : (b.clock c).now = b.now c := rfl
          rw [Bench.park, clock_modify]
          split
          · rw [Clock.park, hnow, max_eq_left (le_of_lt hlt)]
            rfl
          · rfl
      · refine Or.inr (Or.inr (rests_of_clock ?_))
        rw [Bench.park, clock_modify, if_neg fun h => hc h.1.symm]

/-- A subscription queues nothing but on the clock of its source. -/
theorem clock_attach_of_ne (hs : b.sources.get? s = some source) (hc : c ≠ source.clock)
    (o : Observer α) : (b.attach s o).2.clock c = b.clock c := by
  simp only [attach, hs, foldl_schedule_eq]
  cases source.temperature <;> simp [clock, addSubscription, Table.get?_modify, Ne.symm hc]

/-! ### Deliveries that are queued -/

/-- Where no clock is touched, nothing is queued. -/
theorem Reaches.answeredBy_of_clock {P : Action α σ → Prop} (h : Reaches b b')
    (hclock : ∀ c, b'.clock c = b.clock c) : AnsweredBy P b b' := by
  obtain ⟨evs, hevs⟩ := h.answered
  refine ⟨evs, hevs, fun x hx given hgiven => ?_⟩
  have hcount := (hevs.trace x.1).scheduled
  rw [hclock x.1] at hcount
  have hnone : (answersOf x.1 evs).filterMap ClockEvent.given? = [] :=
    List.eq_nil_of_length_eq_zero (by omega)
  have hmem : given ∈ (answersOf x.1 evs).filterMap ClockEvent.given? :=
    List.mem_filterMap.mpr ⟨x.2, mem_answersOf.mpr hx, hgiven⟩
  simp [hnone] at hmem

/-- Deliveries to a subscription are queued when it is made, and at no other time. -/
theorem Move.answeredBy (h : Move b b') (hr : r.index < b.subscriptions.next.index ∨
      b'.subscriptions.next.index ≤ r.index) :
    AnsweredBy (fun a => a.delivery? r = none) b b' := by
  cases h with
  | aside h hclock => exact h.reaches.answeredBy_of_clock hclock
  | basic h =>
    cases h with
    | aside h hclock => exact (Change.plain h).reaches.answeredBy_of_clock hclock
    | schedule c due ha => exact answered_schedule b c due (Action.delivery?_of_not_isEvent ha)
    | start h => exact answered_start h
    | park h => exact answered_park h
    | addSource temperature c events => exact answered_addSource b temperature c events fun _ => rfl
    | attach s o =>
      have hne : b.subscriptions.next ≠ r := by
        rintro rfl
        rw [next_attach] at hr
        omega
      exact answered_attach b s o fun _ => if_neg hne

theorem Moves.answeredBy (hb : b.Rostered) (h : Moves b b')
    (hr : r.index < b.subscriptions.next.index ∨ b'.subscriptions.next.index ≤ r.index) :
    AnsweredBy (fun a => a.delivery? r = none) b b' := by
  induction h with
  | refl => exact .refl b
  | @tail b₁ b₂ hmoves hmove ih =>
    have hretains := Reaches.retains hb (Moves.reaches hmoves)
    have hnext := hretains.next
    have hlater := (hmove.change.retaining hretains.rostered).next
    exact (ih (by omega)).trans (hmove.answeredBy (by omega))

/-- A bench that has come about from an empty one by moves. -/
def Grown (b : Bench α σ) : Prop := Moves {} b

theorem Grown.lived (h : b.Grown) : b.Lived := Moves.reaches h

theorem Grown.moves (h : b.Grown) (h' : Moves b b') : b'.Grown := Relation.ReflTransGen.trans h h'

theorem Grown.retains (h : b.Grown) (h' : Moves b b') : Retains b b' :=
  Reaches.retains h.lived.rostered (Moves.reaches h')

/-- No clock knows of a subscription that is yet to be made. -/
theorem Grown.free (h : b.Grown) (hr : b.subscriptions.next.index ≤ r.index) (c : ClockRef) :
    ∀ p ∈ (b.clock c).queue, p.action.delivery? r = none := by
  obtain ⟨_, _, hclocks⟩ := (Moves.answeredBy rostered_empty h (Or.inr hr)).followsBy
  obtain ⟨evs, htrace, -, hgiven⟩ := hclocks c
  intro p hp
  rcases htrace.mem_queue hp with hp | ⟨-, hnew⟩
  · simp [clock, Table.get?] at hp
  · exact hgiven _ hnew

/-! ### One subscription -/

variable {events : List (Timed (Signal α))} {t : VirtualTime} {x : Line α} {size : Nat}
  {tl got : List (Timed (Signal α))} {cut : Cut}

/-- The subscription that an observer of a cold source gets. -/
def line (b : Bench α σ) (source : Source α) (o : Observer α) : Line α :=
  ⟨b.subscriptions.next, o, source.clock, (b.clock source.clock).scheduled⟩

/-- A bench on which a subscription to a cold source with some events has just been made, when the
clock of the source reads some instant. -/
inductive Subscribed : List (Timed (Signal α)) → VirtualTime → Line α → Bench α σ → Prop
  | attach {b : Bench α σ} {s : SourceRef} {source : Source α} (hb : b.Grown)
    (hs : b.sources.get? s = some source) (hcold : source.temperature = .cold)
    (hclock : (b.clocks.get? source.clock).isSome) (o : Observer α) :
    Subscribed source.events (b.now source.clock) (b.line source o) (b.attach s o).2

/-- What a subscriber has been told, each notification with the reading at which it came, and how
far that goes. It is told when an action starts that delivers to its subscription while that is
active; the cut is made by what its clock does as long as it is. -/
inductive Told (x : Line α) (b : Bench α σ) : List (Timed (Signal α)) → Cut → Bench α σ → Prop
  | subscribed : Told x b [] (.first 0) b
  | told {got : List (Timed (Signal α))} {cut : Cut} {b' b'' : Bench α σ} {limit : VirtualTime}
    {n : Signal α} (h : Told x b got cut b') (ha : b'.isActive x.sub)
    (hn : b'.next? x.clock limit = some (.deliver x.sub x.observer n, b'')) :
    Told x b (got ++ [⟨b''.now x.clock, n⟩]) (.first (got.length + 1)) b''
  | other {got : List (Timed (Signal α))} {cut : Cut} {b' b'' : Bench α σ} {limit : VirtualTime}
    {p : Pending (Action α σ)} {k : Clock (Action α σ)} (h : Told x b got cut b')
    (ha : b'.isActive x.sub) (hn : b'.next? x.clock limit = some (p.action, b''))
    (hp : (b'.clock x.clock).next? limit = some (p, k)) (hnot : p.action.delivery? x.sub = none) :
    Told x b got (x.cut p) b''
  | parked {got : List (Timed (Signal α))} {cut : Cut} {b' : Bench α σ} {target : VirtualTime}
    (h : Told x b got cut b') (ha : b'.isActive x.sub) (hn : b'.next? x.clock target = none)
    (hle : b'.now x.clock ≤ target) : Told x b got (.upTo target) (b'.park x.clock target)
  | aside {got : List (Timed (Signal α))} {cut : Cut} {b' b'' : Bench α σ} (h : Told x b got cut b')
    (hmove : Move b' b'') (ha : b'.isActive x.sub → Rests x.clock b' b'' ∧
      ∀ c, picked (·.delivery? x.sub) (b''.clock c).queue =
        picked (·.delivery? x.sub) (b'.clock c).queue) : Told x b got cut b''

/-- A subscription awaits the rest of its timeline on its clock, and nothing on any other. -/
structure Awaiting (x : Line α) (size : Nat) (tl got : List (Timed (Signal α))) (b : Bench α σ) :
    Prop where
  made : x.sub.index < b.subscriptions.next.index
  home : x.Awaits size tl got (b.clock x.clock)
  elsewhere : ∀ c, c ≠ x.clock → ∀ p ∈ (b.clock c).queue, p.action.delivery? x.sub = none

/-- A start on its clock, or the clock's coming to an instant, changes nothing elsewhere. -/
theorem Awaiting.at_home {got' : List (Timed (Signal α))} (h : Awaiting x size tl got b)
    (hhome : x.Awaits size tl got' (b'.clock x.clock))
    (hother : ∀ c, c ≠ x.clock → b'.clock c = b.clock c)
    (hsubscriptions : b'.subscriptions = b.subscriptions) : Awaiting x size tl got' b' where
  made := by rw [hsubscriptions]; exact h.made
  home := hhome
  elsewhere c hc := by rw [hother c hc]; exact h.elsewhere c hc

theorem Awaiting.park (h : Awaiting x size tl got b) {target : VirtualTime}
    (hn : b.next? x.clock target = none) : Awaiting x size tl got (b.park x.clock target) := by
  refine h.at_home ?_ (fun c hc => ?_) rfl
  · rw [Bench.park, clock_modify]
    split
    · exact h.home.park (clock_next?_eq_none hn)
    · exact h.home
  · rw [Bench.park, clock_modify, if_neg fun h => hc h.1.symm]

/-- While its clock rests, a subscription awaits what it awaited. -/
theorem Awaiting.rests (h : Awaiting x size tl got b) (hb : b.Rostered) (hmove : Move b b')
    (hrests : Rests x.clock b b') :
    Awaiting x size tl got b' ∧ ∀ c, picked (·.delivery? x.sub) (b'.clock c).queue =
      picked (·.delivery? x.sub) (b.clock c).queue := by
  obtain ⟨_, _, hclocks⟩ := (hmove.answeredBy (Or.inl h.made)).followsBy
  have hawaiting : Awaiting x size tl got b' := by
    refine ⟨Nat.lt_of_lt_of_le h.made (hmove.change.retaining hb).next, ?_, fun c hc p hp => ?_⟩
    · obtain ⟨evs, htrace, -, hgiven⟩ := hclocks x.clock
      exact h.home.trace htrace hgiven hrests.dispatched
    · obtain ⟨evs, htrace, -, hgiven⟩ := hclocks c
      rcases htrace.mem_queue hp with hp | ⟨-, hnew⟩
      · exact h.elsewhere c hc p hp
      · exact hgiven _ hnew
  refine ⟨hawaiting, fun c => ?_⟩
  by_cases hc : c = x.clock
  · subst hc
    exact List.append_cancel_left (hawaiting.home.whole.trans h.home.whole.symm)
  · rw [picked_eq_nil (h.elsewhere c hc), picked_eq_nil (hawaiting.elsewhere c hc)]

/-- A new subscription awaits its whole timeline, read from now on. -/
theorem Subscribed.awaiting (h : Subscribed events t x b) :
    b.Grown ∧ b.isActive x.sub ∧
      Awaiting x events.length (Timeline.sorted (Timeline.shift t events)) [] b := by
  cases h with
  | @attach b s source hb hs hcold hclock o =>
    obtain ⟨k, hk⟩ := Option.isSome_iff_exists.mp hclock
    have hnow : b.now source.clock = k.now := by simp [now, hk]
    have hscheduled : (b.clock source.clock).scheduled = k.scheduled := by simp [clock, hk]
    have hordered := hb.lived.ordered source.clock
    have hfree := hb.free (Nat.le_refl b.subscriptions.next.index)
    obtain ⟨b', hattach, hk', hsub, -⟩ := attach_cold hs hcold hk o
    have hmove : Moves b (b.attach s o).2 := .single (.basic (.attach b s o))
    rw [clock, hk, Option.getD_some] at hordered
    rw [hnow, line, hscheduled]
    refine ⟨hb.moves hmove, ?_, ⟨?_, ?_, fun c hc => ?_⟩⟩
    · simp [isActive, hattach, hsub]
    · rw [next_attach]
      exact Nat.lt_succ_self _
    · have hfree' := hfree source.clock
      rw [clock, hk, Option.getD_some] at hfree'
      rw [hattach, clock, hk', Option.getD_some]
      exact Clock.awaits_deliverAll hordered hfree' o source.clock source.events
    · rw [clock_attach_of_ne hs hc o]
      exact hfree c

/-- What a subscriber has been told is its timeline up to the cut. While the subscription is active,
the rest is still to come. -/
theorem Told.spec (hx : Subscribed events t x b) (h : Told x b got cut b') :
    Moves b b' ∧ got = cut.of (Timeline.sorted (Timeline.shift t events)) ∧
      (b'.isActive x.sub →
        Awaiting x events.length (Timeline.sorted (Timeline.shift t events)) got b') := by
  obtain ⟨hgrown, -, hawaiting⟩ := hx.awaiting
  induction h with
  | subscribed => exact ⟨.refl, rfl, fun _ => hawaiting⟩
  | @told got cut b₁ b₂ limit n _ ha hn ih =>
    obtain ⟨hmoves, -, hawaits⟩ := ih
    have hb₁ := hawaits ha
    obtain ⟨p, k, hp, haction, hk, hother, hsubs⟩ := clock_next? hn
    have hnow : b₂.now x.clock = p.due := by
      change (b₂.clock x.clock).now = p.due
      rw [hk]
      exact hb₁.home.ordered.now_next? hp
    have hhome := hb₁.home.told hp (n := n) (by rw [← haction]; exact if_pos rfl)
    rw [hnow]
    refine ⟨hmoves.tail (.basic (.start hn)), ?_, fun _ =>
      hb₁.at_home (hk ▸ hhome) hother hsubs⟩
    simpa using hhome.first
  | @other got cut b₁ b₂ limit p k _ ha hn hp hnot ih =>
    obtain ⟨hmoves, -, hawaits⟩ := ih
    have hb₁ := hawaits ha
    obtain ⟨p', k', hp', -, hk, hother, hsubs⟩ := clock_next? hn
    obtain ⟨rfl, rfl⟩ := Prod.mk.inj (Option.some.inj (hp.symm.trans hp'))
    exact ⟨hmoves.tail (.basic (.start hn)), hb₁.home.cut hp hnot, fun _ =>
      hb₁.at_home (hk ▸ hb₁.home.other hp hnot) hother hsubs⟩
  | @parked got cut b₁ target _ ha hn hle ih =>
    obtain ⟨hmoves, -, hawaits⟩ := ih
    have hb₁ := hawaits ha
    exact ⟨hmoves.tail (.basic (.park hn)), hb₁.home.cut_park (clock_next?_eq_none hn) hle,
      fun _ => hb₁.park hn⟩
  | @aside got cut b₁ b₂ _ hmove hrests ih =>
    obtain ⟨hmoves, hgot, hawaits⟩ := ih
    have hgrown₁ := hgrown.moves hmoves
    have hmade := Nat.lt_of_lt_of_le hawaiting.made (hgrown.retains hmoves).next
    refine ⟨hmoves.tail hmove, hgot, fun ha => ?_⟩
    have ha₁ := (hgrown₁.retains (.single hmove)).active x.sub hmade ha
    exact ((hawaits ha₁).rests hgrown₁.lived.rostered hmove (hrests ha₁).1).1

/-- Whatever goes on, it comes to the subscriber's being told something up to some cut. -/
theorem Subscribed.told (hx : Subscribed events t x b) (h : Moves b b') :
    ∃ got cut, Told x b got cut b' := by
  obtain ⟨hgrown, -, -⟩ := hx.awaiting
  induction h with
  | refl => exact ⟨[], .first 0, .subscribed⟩
  | @tail b₁ b₂ hmoves hmove ih =>
    obtain ⟨got, cut, htold⟩ := ih
    by_cases ha : b₁.isActive x.sub
    · obtain ⟨-, -, hawaits⟩ := htold.spec hx
      have hb₁ := hawaits ha
      rcases hmove.cases x.clock with ⟨limit, a, hn⟩ | ⟨target, hn, hle, rfl⟩ | hrests
      · obtain ⟨p, k, hp, rfl, -⟩ := clock_next? hn
        cases hdelivery : p.action.delivery? x.sub with
        | none => exact ⟨got, x.cut p, htold.other ha hn hp hdelivery⟩
        | some n =>
          obtain ⟨o, ho⟩ := Action.eq_deliver hdelivery
          obtain ⟨rest, hq, -⟩ := Clock.next?_eq_some hp
          obtain rfl := hb₁.home.observer p (by simp [hq]) o n ho
          exact ⟨_, _, htold.told ha (ho ▸ hn)⟩
      · exact ⟨got, .upTo target, htold.parked ha hn hle⟩
      · have hrostered := (hgrown.moves hmoves).lived.rostered
        exact ⟨got, cut, htold.aside hmove fun _ => ⟨hrests, (hb₁.rests hrostered hmove hrests).2⟩⟩
    · exact ⟨got, cut, htold.aside hmove fun h => (ha h).elim⟩

end Bench

end Marble
