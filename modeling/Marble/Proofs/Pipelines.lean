import Marble.Proofs.Courses
import Marble.Proofs.Ledger

/-! Sequences behind pipelines of operators: whoever subscribes to one gets one subscription to its
base, and what the base hands on, stage by stage as the pipeline leaves it. -/
namespace Marble

open Bench

variable {α σ : Type}

/-- A sequence behind some more stages. -/
def Sequence.pipe (q : Sequence α) (stages : List (Stage α)) : Sequence α :=
  ⟨q.base, q.stages ++ stages⟩

/-! ### What a pipeline makes of a timeline -/

/-- The value that a notification brings. -/
def Notification.value? {ε : Type} : Notification α ε → Option α
  | .next v => some v
  | _ => none

namespace Timeline

/-- The values of a timeline. -/
def values (tl : List (Timed (Signal α))) : List α := tl.filterMap (·.value.value?)

/-- On the values of a timeline, a pipeline acts as its stages do one after the other. -/
theorem values_through (stages : List (Stage α)) (tl : List (Timed (Signal α))) :
    values (through stages tl) = (values tl).filterMap (Stage.act stages) := by
  rw [values, values, through, List.filterMap_filterMap, List.filterMap_filterMap]
  congr 1
  funext e
  rcases e with ⟨t, v | cause | _⟩
  · rw [Stage.through_next]
    cases h : Stage.act stages v <;> simp [Notification.value?, h]
  · rw [Stage.through_of_isTerminal stages rfl]
    rfl
  · rw [Stage.through_of_isTerminal stages rfl]
    rfl

/-- The terminals of a timeline come through a pipeline as they are, each at its time. -/
theorem terminals_through (stages : List (Stage α)) (tl : List (Timed (Signal α))) :
    (through stages tl).filter (·.value.isTerminal) = tl.filter (·.value.isTerminal) := by
  induction tl with
  | nil => rfl
  | cons e rest ih =>
    rw [through_cons, List.filter_append, ih]
    cases he : e.value.isTerminal with
    | true =>
      rw [Stage.through_of_isTerminal stages he]
      simp [he]
    | false =>
      rw [List.filter_cons_of_neg (by simp [he])]
      obtain ⟨t, v | cause | _⟩ := e
      · rw [Stage.through_next]
        cases Stage.act stages v <;> rfl
      · cases he
      · cases he

/-- What comes through a pipeline comes in the order and at the times at which it goes in. -/
theorem times_through (stages : List (Stage α)) (tl : List (Timed (Signal α))) :
    ((through stages tl).map (·.time)).Sublist (tl.map (·.time)) := by
  induction tl with
  | nil => exact .slnil
  | cons e rest ih =>
    rw [through_cons, List.map_append, List.map_cons]
    cases Stage.through stages e.value with
    | none => exact ih.cons e.time
    | some m => exact ih.cons_cons e.time

end Timeline

/-- The first stage of a pipeline sees a notification before all others, and what it leaves goes to
the rest of the pipeline. -/
theorem Engine.notify_cons (E : Engine α σ) {o : Observer α} {stage : Stage α}
    {rest : List (Stage α)} (h : o.stages = stage :: rest) (n : Signal α) (b : Bench α σ) :
    E.notify o n b =
      (stage.transform n).elim (pure ()) (E.notify ⟨rest, o.sink⟩) (b.witness stage n) := by
  rw [notify, Run.change_bind, h, Bench.pass]
  cases stage.transform n <;> rfl

/-! ### The subscription to the base -/

namespace Bench

variable {b b' : Bench α σ} {r : SubscriptionRef} {row : Subscription σ} {base : Base α}
  {o : Observer α}

/-- What disposing a subscription to a base that is made now will do: one to a source leaves the
source under a new log entry. -/
def link (b : Bench α σ) : Base α → Teardown σ
  | .source s => ((b.sources.get? s).map fun source => .leave s source.log.length).getD .nothing
  | _ => .nothing

/-- One subscription is made, and no other is touched. -/
theorem opened_subscriptions (b : Bench α σ) (base : Base α) (o : Observer α) :
    (b.opened base o).2.subscriptions = b.subscriptions.push { teardown := b.link base } := by
  cases base with
  | source s =>
    rw [opened, link]
    cases hs : b.sources.get? s with
    | none =>
      rw [attach_of_none hs]
      rfl
    | some source =>
      rw [attach_eq hs]
      rfl
  | after c items =>
    rw [opened_after]
    rfl
  | _ => rfl

theorem get?_opened (b : Bench α σ) (base : Base α) (o : Observer α) :
    (b.opened base o).2.subscriptions.get? b.subscriptions.next =
      some { teardown := b.link base } := by
  rw [opened_subscriptions, Table.get?_push, if_pos rfl]

/-- A source takes one subscription in: it has one more log entry, queues its timeline if it is
cold, and attaches the observer if it is hot. -/
theorem enters_opened {s : SourceRef} {source : Source α} (hs : b.sources.get? s = some source)
    (o : Observer α) :
    b.link (.source s) = .leave s source.log.length ∧
    (∀ t e, (b.opened (.source s) o).2.record? t e =
      if t = s ∧ e = source.log.length then some ⟨b.now source.clock, none⟩ else b.record? t e) ∧
    (b.opened (.source s) o).2.clocks = b.clocks.modify source.clock
      (·.scheduleAll (.deliver b.subscriptions.next o) (source.replay (b.now source.clock))) ∧
    ∀ t, (b.opened (.source s) o).2.attached t = b.attached t ++ posted (b.place? s) o t :=
  ⟨by rw [link, hs]; rfl, record?_attach hs o, by rw [opened, attach_eq hs], b.attached_attach s o⟩

/-- Sources other than the base are left alone. -/
theorem sources_opened (h : ∀ s, base ≠ .source s) : (b.opened base o).2.sources = b.sources := by
  cases base with
  | source s => exact absurd rfl (h s)
  | after c items =>
    rw [opened_after]
    rfl
  | _ => rfl

/-- A subscription keeps its teardown. -/
def Holds (b b' : Bench α σ) : Prop := ∀ r row, b.subscriptions.get? r = some row →
  ∃ row', b'.subscriptions.get? r = some row' ∧ row'.teardown = row.teardown

instance : IsPreorder (Bench α σ) Holds where
  refl _ _ row hrow := ⟨row, hrow, rfl⟩
  trans _ _ _ h h' r row hrow := by
    obtain ⟨row₁, hrow₁, ht₁⟩ := h r row hrow
    obtain ⟨row₂, hrow₂, ht₂⟩ := h' r row₁ hrow₁
    exact ⟨row₂, hrow₂, ht₂.trans ht₁⟩

theorem holds_of_eq (h : b'.subscriptions = b.subscriptions) : Holds b b' :=
  fun _ row hrow => ⟨row, by rw [h, hrow], rfl⟩

theorem holds_addSubscription (b : Bench α σ) (t : Teardown σ) :
    Holds b (b.addSubscription t).2 := by
  intro r row hrow
  refine ⟨row, ?_, rfl⟩
  change (b.subscriptions.push _).get? r = some row
  rw [Table.get?_push, if_neg, hrow]
  rintro rfl
  simp [Table.get?_next] at hrow

theorem holds_deactivate (b : Bench α σ) (s : SubscriptionRef) : Holds b (b.deactivate s) := by
  intro r row hrow
  change ∃ row', (b.subscriptions.modify s _).get? r = some row' ∧ _
  rw [Table.get?_modify, hrow]
  split
  · exact ⟨_, rfl, rfl⟩
  · exact ⟨_, rfl, rfl⟩

theorem Plain.holds (h : Plain b b') : Holds b b' := by
  cases h with
  | start h =>
    obtain ⟨clocks, log, rfl⟩ := next?_rest h
    exact holds_of_eq rfl
  | addSubscription ht => exact holds_addSubscription b _
  | deactivate h ht => exact holds_deactivate b _
  | close h ha ht => exact holds_deactivate b _
  | addSource temperature c events =>
    exact holds_of_eq (b.addSource_fields temperature c events).2.1
  | attach s o =>
    obtain ⟨teardown, -, hsubscriptions, -⟩ := b.attach_subscriptions s o
    intro r row hrow
    obtain ⟨row', hrow', ht⟩ := holds_addSubscription b teardown r row hrow
    exact ⟨row', by rw [hsubscriptions]; exact hrow', ht⟩
  | register s t a =>
    refine holds_of_eq ?_
    rw [Bench.register]
    split <;> rfl
  | _ => exact holds_of_eq rfl

theorem Change.holds (h : Change b b') : Holds b b' := by
  cases h with
  | plain h => exact h.holds
  | _ => exact holds_of_eq rfl

theorem Reaches.holds (h : Reaches b b') : Holds b b' := by
  induction h with
  | refl => exact refl_of Holds b
  | tail _ hstep ih => exact trans_of Holds ih hstep.holds

/-- The bench on which a subscription is over that ends quietly. -/
def severed (b : Bench α σ) (r : SubscriptionRef) : Teardown σ → Bench α σ
  | .leave s e => b.discharge r s e
  | _ => b.deactivate r

theorem link_quiet (b : Bench α σ) (base : Base α) : (b.link base).isQuiet := by
  cases base with
  | source s =>
    rw [link]
    cases b.sources.get? s <;> rfl
  | _ => rfl

/-- Whatever has been done since, to dispose a subscription to a base ends that subscription and no
other. -/
theorem dispose_opened {E : Engine α σ} (h : Reaches (b.opened base o).2 b') :
    E.dispose b.subscriptions.next b' =
      (.done (), if b'.isActive b.subscriptions.next then
        b'.severed b.subscriptions.next (b.link base) else b') := by
  obtain ⟨⟨active, teardown⟩, hrow, rfl⟩ := h.holds _ _ (b.get?_opened base o)
  have hactive : b'.isActive b.subscriptions.next = active := by simp [isActive, hrow]
  have hquiet := b.link_quiet base
  rw [Engine.dispose, Run.read_bind, hrow, hactive]
  cases active with
  | false => rfl
  | true =>
    cases hlink : b.link base with
    | call f => simp [hlink, Teardown.isQuiet] at hquiet
    | _ => rfl

theorem isActive_severed (b : Bench α σ) (r : SubscriptionRef) (t : Teardown σ)
    (r' : SubscriptionRef) : (b.severed r t).isActive r' = (b.isActive r' && r' != r) := by
  cases t <;> exact isActive_deactivate b r r'

/-- The source of a subscription that is over has closed its log entry, and no other. -/
theorem record?_severed (b : Bench α σ) (r : SubscriptionRef) (t : Teardown σ)
    (s : SourceRef) (e : Nat) : (b.severed r t).record? s e = (b.record? s e).map fun x =>
      if t.leaves? = some (s, e) then { x with unsubscribed := some (b.reading s) } else x := by
  have hsame : ∀ t : Teardown σ, t.leaves? = none → (b.deactivate r).record? s e =
      (b.record? s e).map fun x =>
        if t.leaves? = some (s, e) then { x with unsubscribed := some (b.reading s) } else x := by
    intro t ht
    simp only [ht, reduceCtorEq, ↓reduceIte, Option.map_id']
    rfl
  cases t with
  | leave s' e' =>
    rw [severed, record?_discharge]
    congr 1
    funext x
    simp only [Teardown.leaves?, Option.some.injEq, Prod.mk.injEq]
    by_cases hentry : s = s' ∧ e = e'
    · obtain ⟨rfl, rfl⟩ := hentry
      simp
    · rw [if_neg hentry, if_neg fun h => hentry ⟨h.1.symm, h.2.symm⟩]
  | nothing => exact hsame .nothing rfl
  | call f => exact hsame (.call f) rfl

/-- Whoever has left a source is not attached to it. -/
theorem isAttached_severed (b : Bench α σ) (r : SubscriptionRef) (s : SourceRef) (e : Nat) :
    (b.severed r (.leave s e)).isAttached s e = false := by
  rw [severed, isAttached, get?_discharge, if_pos rfl]
  cases b.sources.get? s with
  | none => rfl
  | some source => simp [Source.isAttached, Source.leave]

/-- A subscription that is over stays so, and nothing is handed on for it any more. -/
theorem Lived.ended (hb : b.Lived) (h : Reaches b b') (hr : r.index < b.subscriptions.next.index)
    (hended : b.isActive r = false) :
    b'.isActive r = false ∧ (∀ o n, b'.handovers (.deliver r o n) = []) ∧
      ∀ s e source, b.leaves? r = some (s, e) → b'.sources.get? s = some source →
        source.temperature = .hot → ∀ o n, b'.stands ⟨some (s, e), o, n⟩ = false := by
  have hretains := Reaches.retains hb.rostered h
  have hover : b'.isActive r = false := by
    by_contra hactive
    rw [Bool.not_eq_false] at hactive
    rw [hretains.active r hr hactive] at hended
    cases hended
  refine ⟨hover, fun o n => by rw [handovers, hover]; rfl, fun s e source hleaves hs hhot o n => ?_⟩
  change b'.isAttached s e = false
  rw [hretains.rostered.isAttached_eq hs hhot ((hretains.leaves r hr).trans hleaves), hover]

/-- What a base that pushes on a clock queues: its items, read from now on. -/
theorem clocks_opened_after (b : Bench α σ) (c : ClockRef) (items : List (Timed (Signal α)))
    (o : Observer α) :
    (b.opened (.after c items) o).2.clocks =
      b.clocks.modify c fun k => k.scheduleAll (.push o) (Timeline.shift k.now items) := by
  have hqueue : ∀ (k : Clock (Action α σ)) (now : VirtualTime), k.now = now →
      items.foldl (fun k e => k.scheduleAfter e.time (.push o e.value)) k =
        k.scheduleAll (.push o) (Timeline.shift now items) := by
    induction items with
    | nil => exact fun _ _ _ => rfl
    | cons e rest ih =>
      intro k now hnow
      subst hnow
      exact ih (k.scheduleAfter e.time (.push o e.value)) k.now rfl
  rw [opened_after]
  change b.clocks.modify c _ = _
  congr 1
  funext k
  exact hqueue k k.now rfl

end Bench

/-! ### Whom the base plays to -/

/-- An action delivers nothing to a subscription but to one observer. -/
def Action.DeliversTo (r : SubscriptionRef) (o : Observer α) (a : Action α σ) : Prop :=
  ∀ o' n, a = .deliver r o' n → o' = o

theorem Action.deliversTo_of_delivery? {a : Action α σ} {r : SubscriptionRef} (o : Observer α)
    (h : a.delivery? r = none) : a.DeliversTo r o := by
  rintro o' n rfl
  simp [delivery?] at h

namespace Bench

variable {b b' : Bench α σ} {base : Base α} {o : Observer α}

theorem moves_opened (b : Bench α σ) (base : Base α) (o : Observer α) :
    Moves b (b.opened base o).2 :=
  Bears.opened b base o

/-- A base that is opened queues deliveries to the observer, or pushes, or nothing. -/
theorem answered_opened (b : Bench α σ) (base : Base α) (o : Observer α) :
    AnsweredBy (Action.DeliversTo b.subscriptions.next o) b (b.opened base o).2 := by
  have hmade (b₁ : Bench α σ) :
      AnsweredBy (Action.DeliversTo b.subscriptions.next o) b₁ (b₁.addSubscription .nothing).2 :=
    answered_of_eq rfl rfl
  cases base with
  | source s =>
    refine answered_attach b s o fun n o' n' ha => ?_
    obtain ⟨-, rfl, -⟩ := Action.deliver.inj ha
    rfl
  | after c items =>
    refine .trans (keeps_foldl (fun b' (e : Timed (Signal α)) => ?_) b items) (hmade _)
    rw [scheduleAfter_eq]
    exact answered_schedule b' c _ fun _ _ ha => by cases ha
  | _ => exact hmade b

/-- Whatever is done, what is queued for a subscription goes to the observer it was made for. -/
theorem Grown.delivers_opened (hb : b.Grown) (h : Moves (b.opened base o).2 b') (c : ClockRef) :
    ∀ p ∈ (b'.clock c).queue, p.action.DeliversTo b.subscriptions.next o := by
  have hmade : b.subscriptions.next.index < (b.opened base o).2.subscriptions.next.index := by
    rw [next_opened]
    exact Nat.lt_succ_self _
  have hopened := (hb.moves (b.moves_opened base o)).lived.rostered
  obtain ⟨_, _, hlater⟩ := (Moves.answeredBy hopened h (Or.inl hmade)).followsBy
  obtain ⟨_, _, hfirst⟩ := (b.answered_opened base o).followsBy
  obtain ⟨evs, htrace, -, hgiven⟩ := hfirst c
  obtain ⟨evs', htrace', -, hgiven'⟩ := hlater c
  intro p hp
  rcases htrace'.mem_queue hp with hp | ⟨-, hnew⟩
  · rcases htrace.mem_queue hp with hp | ⟨-, hnew⟩
    · exact Action.deliversTo_of_delivery? o (hb.free (Nat.le_refl _) c p hp)
    · exact hgiven _ hnew
  · exact Action.deliversTo_of_delivery? o (hgiven' _ hnew)

/-- Who is attached under the log entry of a subscription is on the roster with it. -/
theorem Rostered.mem_roster (h : b.Rostered) {s : SourceRef} {source : Source α}
    (hs : b.sources.get? s = some source) (hhot : source.temperature = .hot) {y : Nat × Observer α}
    (hy : y ∈ source.attached) {r : SubscriptionRef} (hr : b.leaves? r = some (s, y.1)) :
    (r, y.2) ∈ b.roster s := by
  have hmem : (some (s, y.1), y.2) ∈ source.attached.map fun y => (some (s, y.1), y.2) :=
    List.mem_map_of_mem hy
  rw [← h.step hs hhot] at hmem
  obtain ⟨x, hx, heq⟩ := List.mem_map.mp hmem
  obtain ⟨hleaves, hobserver⟩ := Prod.mk.inj heq
  obtain rfl := h.apart x.1 r _ hleaves hr
  rwa [← hobserver]

/-- Whatever is done, the observer that is attached for a subscription is the one it was made
for. -/
theorem Lived.attached_opened (hb : b.Lived) (h : Reaches (b.opened base o).2 b') {s : SourceRef}
    {source : Source α} (hs : b'.sources.get? s = some source) (hhot : source.temperature = .hot)
    {y : Nat × Observer α} (hy : y ∈ source.attached)
    (hr : b'.leaves? b.subscriptions.next = some (s, y.1)) : y.2 = o := by
  have hopened := hb.reaches (Moves.reaches (b.moves_opened base o))
  have hretains := Reaches.retains hopened.rostered h
  have hmade : b.subscriptions.next.index < (b.opened base o).2.subscriptions.next.index := by
    rw [next_opened]
    exact Nat.lt_succ_self _
  have hroster := hretains.rostered.mem_roster hs hhot hy hr
  have hlink : (b.link base).leaves? = some (s, y.1) := by
    rw [hretains.leaves _ hmade, leaves?, get?_opened] at hr
    exact hr
  obtain rfl : base = .source s := by
    cases base with
    | source s' =>
      rw [link] at hlink
      cases hs' : b.sources.get? s' with
      | none => simp [hs', Teardown.leaves?] at hlink
      | some source' =>
        obtain ⟨rfl, -⟩ : s' = s ∧ _ := by simpa [hs', Teardown.leaves?] using hlink
        rfl
    | _ => simp [link, Teardown.leaves?] at hlink
  cases hfirst : b.sources.get? s with
  | none => simp [link, hfirst, Teardown.leaves?] at hlink
  | some first =>
    obtain ⟨second, hsecond, hkept⟩ := (retaining_attach b s o hb.rostered).source s first hfirst
    obtain ⟨third, hthird, hkept'⟩ := hretains.source s second hsecond
    obtain rfl : third = source := Option.some.inj (hthird.symm.trans hs)
    have hfirsthot : first.temperature = .hot := by rw [← hkept, ← hkept', hhot]
    obtain ⟨later, heq, hnew⟩ := hretains.roster s second hsecond (hkept.trans hfirsthot)
    rw [heq] at hroster
    rcases List.mem_append.mp hroster with hold | hlate
    · have hmem := (List.mem_filter.mp hold).1
      rw [opened, (roster_attach hb.rostered hfirst hfirsthot o).2] at hmem
      rcases List.mem_append.mp hmem with hbefore | hlast
      · exact absurd (lt_next_of_mem_roster hbefore) (Nat.lt_irrefl _)
      · exact congrArg Prod.snd (List.mem_singleton.mp hlast)
    · exact absurd hmade (Nat.not_lt.mpr (hnew _ hlate))

end Bench

namespace Scenario

variable [Shown α]

/-- What holds of sequences behind pipelines under an engine. Stages map values, drop them, or look
on. -/
structure PointwisePipelines (E : Engine α (Callback α)) : Prop where
  /-- The values of a timeline come through a pipeline as the stages say, one after the other; -/
  values (stages : List (Stage α)) (tl : List (Timed (Signal α))) :
    Timeline.values (Timeline.through stages tl) =
      (Timeline.values tl).filterMap (Stage.act stages)
  /-- terminals come through as they are; -/
  terminals (stages : List (Stage α)) (tl : List (Timed (Signal α))) :
    (Timeline.through stages tl).filter (·.value.isTerminal) = tl.filter (·.value.isTerminal)
  /-- order and times stay. -/
  times (stages : List (Stage α)) (tl : List (Timed (Signal α))) :
    ((Timeline.through stages tl).map (·.time)).Sublist (tl.map (·.time))
  /-- A pipeline behind a pipeline acts on what the first one leaves, -/
  composes (before after : List (Stage α)) (tl : List (Timed (Signal α))) (v : α) :
    Stage.act (before ++ after) v = (Stage.act before v).bind (Stage.act after) ∧
      Timeline.through (before ++ after) tl = Timeline.through after (Timeline.through before tl)
  /-- and an inspecting stage notes exactly what the stages before it leave, once, ahead of whatever
  is noted behind it. -/
  inspects (before after : List (Stage α)) (name : String) (n : Signal α) :
    Stage.marks (before ++ .inspect name :: after) n = Stage.marks before n ++
      (Stage.through before n).elim [] fun m => .inspected name m :: Stage.marks after m
  /-- A stage hands what it leaves to the rest of the pipeline. -/
  stage (stage : Stage α) (rest : List (Stage α)) (k : Sink) (n : Signal α)
    (b : Bench α (Callback α)) :
    E.notify ⟨stage :: rest, k⟩ n b =
      (stage.transform n).elim (pure ()) (E.notify ⟨rest, k⟩) (b.witness stage n)
  /-- To hand a notification to an observer is one change of the bench, after which the callbacks
  run that it brings about. -/
  notifies (o : Observer α) (n : Signal α) (b : Bench α (Callback α)) :
    E.notify o n b = Run.each E.fire (b.echoes o n) (b.receive o n)
  /-- Nothing changes then but the log, the probes that a stage rings, and the sink. -/
  touches (o : Observer α) (n : Signal α) (b : Bench α (Callback α)) :
    (∃ log probes listeners recorders,
      b.receive o n = { b with log, probes, listeners, recorders }) ∧
    ((∀ stage ∈ o.stages, stage.rings = false) → (b.receive o n).probes = b.probes)
  /-- Whoever subscribes behind a pipeline is told what the base announces, and then opens the
  base, -/
  subscribes (q : Sequence α) (stages : List (Stage α)) (k : Sink) :
    E.subscribe (q.pipe stages) k =
      Run.each (E.notify ⟨q.stages ++ stages, k⟩) q.base.announces >>= fun _ =>
        Run.change (·.opened q.base ⟨q.stages ++ stages, k⟩)
  /-- which makes one subscription, whatever the pipeline; -/
  opens (b : Bench α (Callback α)) (base : Base α) (o : Observer α) :
    (b.opened base o).1 = b.subscriptions.next ∧ Moves b (b.opened base o).2 ∧
      (b.opened base o).2.subscriptions = b.subscriptions.push { teardown := b.link base }
  /-- a source has one more log entry and plays its timeline to the observer, from now on if it is
  cold and as it comes if it is hot; -/
  enters {b : Bench α (Callback α)} {s : SourceRef} {source : Source α}
    (hs : b.sources.get? s = some source) (o : Observer α) :
    b.link (.source s) = .leave s source.log.length ∧
    (∀ t e, (b.opened (.source s) o).2.record? t e =
      if t = s ∧ e = source.log.length then some ⟨b.now source.clock, none⟩ else b.record? t e) ∧
    (b.opened (.source s) o).2.clocks = b.clocks.modify source.clock
      (·.scheduleAll (.deliver b.subscriptions.next o) (source.replay (b.now source.clock))) ∧
    ∀ t, (b.opened (.source s) o).2.attached t = b.attached t ++ posted (b.place? s) o t
  /-- any other base leaves the sources alone, and queues what it has to push later. -/
  queues (b : Bench α (Callback α)) (o : Observer α) :
    (∀ base : Base α, (∀ s, base ≠ .source s) → (b.opened base o).2.sources = b.sources) ∧
    ∀ c items, (b.opened (.after c items) o).2.clocks =
      b.clocks.modify c fun k => k.scheduleAll (.push o) (Timeline.shift k.now items)
  /-- Whatever is done from then on, what is queued for the subscription goes to the observer that
  was given, and so does what a hot source plays to it. -/
  bound {b b' : Bench α (Callback α)} {base : Base α} {o : Observer α} (hb : b.Grown)
    (h : Moves (b.opened base o).2 b') :
    (∀ c, ∀ p ∈ (b'.clock c).queue, p.action.DeliversTo b.subscriptions.next o) ∧
    ∀ s source, b'.sources.get? s = some source → source.temperature = .hot → ∀ y ∈ source.attached,
      b'.leaves? b.subscriptions.next = some (s, y.1) → y.2 = o
  /-- What a base announces is handed on as it comes, all of it unless a callback breaks off; -/
  announces {o : Observer α} {items : List (Signal α)} (b : Bench α (Callback α)) :
    (∃ xs, E.Handing (items.map (.plain o)) b xs (Run.each (E.notify o) items b)) ∧
    ∀ {xs b'}, E.Handing (items.map (.plain o)) b xs (.done (), b') →
      xs.map (fun x => (x.observer, x.notification)) = items.map fun n => (o, n)
  /-- an action that comes from a base hands on what it brings, to each observer once and in
  turn. -/
  performs {a : Action α (Callback α)} (ha : a.hands) (b : Bench α (Callback α)) :
    ∃ xs, E.Handing (b.handovers a) b xs (E.perform a b) ∧
      (xs.map fun x => (x.observer, x.notification)).Sublist
        ((b.handovers a).map fun x => (x.observer, x.notification))
  /-- Whatever is done are moves and takes its course, be it a command, -/
  command (c : Command α) (b : Bench α (Callback α)) :
    Moves b (perform E c b).2 ∧ Hears b (perform E c b).2
  /-- a callback, wherever it is called, -/
  callback (f : Callback α) (b : Bench α (Callback α)) :
    Moves b (E.call f b).2 ∧ Hears b (E.call f b).2
  /-- or an action whose time has come: what it brings is handed on before the rest, -/
  action (a : Action α (Callback α)) (todo : List (Handover α)) (b : Bench α (Callback α)) :
    ∃ xs, Course (b.handovers a ++ todo) b xs todo (E.perform a b).2
  /-- and before any other action starts. -/
  turn {b b' : Bench α (Callback α)} {c : ClockRef} {limit : VirtualTime} {fuel : Nat}
    {a : Action α (Callback α)} (h : b.next? c limit = some (a, b')) :
    E.drainWith c limit (fuel + 1) b = (E.perform a >>= fun _ => E.drainWith c limit fuel) b'
  /-- In the course of things the log tells of all that is handed on, in that order: of what each
  stage sees and then of what comes out at the end. It tells of nothing else. -/
  told {todo todo' : List (Handover α)} {b b' : Bench α (Callback α)}
    {xs : List (Push α (Callback α))} (h : Course todo b xs todo' b') :
    b'.tidings = b.tidings ++ xs.flatMap Push.tidings
  /-- A recorder takes in what is handed on for it as the pipeline leaves it, in that order, at the
  times it is handed on and up to the first terminal. It takes in nothing else, and misses something
  only if it has been told to stop. -/
  recorded {todo todo' : List (Handover α)} {b b' : Bench α (Callback α)}
    {xs : List (Push α (Callback α))} (h : Course todo b xs todo' b') {r : RecorderRef}
    {row : Recorder α} (hrow : b.recorders.get? r = some row) {stages : List (Stage α)}
    (hserved : ∀ x ∈ xs, x.observer.sink = .recorder r → x.observer.stages = stages) :
    ∃ row' taken, b'.recorders.get? r = some row' ∧
      taken <+: Timeline.through stages (handed r row.clock xs) ∧
      row'.messages.toList = row.outlook taken ∧
      (taken = Timeline.through stages (handed r row.clock xs) ∨
        row.state = .listening ∧ row'.state = .detached)
  /-- Whatever has been done since, to dispose what has been got by subscribing ends the
  subscription to the base, unless it has ended before: -/
  disposes {b b' : Bench α (Callback α)} {base : Base α} {o : Observer α}
    (h : Moves (b.opened base o).2 b') :
    E.dispose b.subscriptions.next b' =
      (.done (), if b'.isActive b.subscriptions.next then
        b'.severed b.subscriptions.next (b.link base) else b')
  /-- that one and no other; the source closes that log entry and no other, and lets go of that
  observer. -/
  severs (b : Bench α (Callback α)) (r : SubscriptionRef) (t : Teardown (Callback α)) :
    (∀ r', (b.severed r t).isActive r' = (b.isActive r' && r' != r)) ∧
    (∀ s e, (b.severed r t).record? s e = (b.record? s e).map fun x =>
      if t.leaves? = some (s, e) then { x with unsubscribed := some (b.reading s) } else x) ∧
    ∀ s e, (b.severed r (.leave s e)).isAttached s e = false
  /-- From then on nothing is handed on for it, neither what is still queued nor what is yet to
  come. -/
  ended {b b' : Bench α (Callback α)} (hb : b.Grown) (h : Moves b b') {r : SubscriptionRef}
    (hr : r.index < b.subscriptions.next.index) (hended : b.isActive r = false) :
    b'.isActive r = false ∧ (∀ o n, b'.handovers (.deliver r o n) = []) ∧
      ∀ s e source, b.leaves? r = some (s, e) → b'.sources.get? s = some source →
        source.temperature = .hot → ∀ o n, b'.stands ⟨some (s, e), o, n⟩ = false
  /-- The benches spoken of are all those that scripts come to. -/
  script (script : Script α) : (after E script fresh).Grown

/-- Behind a pipeline one gets one subscription to the base, and what the base hands on, in the same
order and at the same times, with the values mapped and dropped as the stages say and the terminals
as they are. Inspecting stages see what comes to them, and the end of the subscription is the end of
that to the base. -/
theorem pointwisePipelines (fuel : Nat) : PointwisePipelines (Callback.engine (α := α) fuel) := by
  have hE := Callback.permits_engine (α := α) (R := Hears) fuel
  have hM := Callback.permits_engine (α := α) (R := Moves) fuel
  exact {
    values := Timeline.values_through
    terminals := Timeline.terminals_through
    times := Timeline.times_through
    composes := fun before after tl v =>
      ⟨Stage.act_append before after v, Timeline.through_append_stages before after tl⟩
    inspects := Stage.marks_inspect
    stage := fun _ _ _ n b => Engine.notify_cons _ rfl n b
    notifies := fun o n b => Engine.notify_eq _ o n b
    touches := fun o n b => ⟨b.receive_eq o n, b.probes_receive o n⟩
    subscribes := fun q stages k => Engine.subscribe_eq _ (q.pipe stages) k
    opens := fun b base o => ⟨b.opened_fst base o, b.moves_opened base o,
      b.opened_subscriptions base o⟩
    enters := fun hs o => enters_opened hs o
    queues := fun b o =>
      ⟨fun _ h => sources_opened h, fun c items => b.clocks_opened_after c items o⟩
    bound := fun hb h => ⟨fun c => hb.delivers_opened h c, fun _ _ hs hhot _ hy hr =>
      hb.lived.attached_opened h.reaches hs hhot hy hr⟩
    announces := fun b => ⟨Engine.handing_items _ _ _ b, fun h => h.plain⟩
    performs := fun ha b => by
      obtain ⟨xs, hxs⟩ := Engine.handing_perform (Callback.engine fuel) ha b
      exact ⟨xs, hxs, hxs.sublist⟩
    command := fun c b => ⟨lawful_perform hM c b, lawful_perform hE c b⟩
    callback := fun f b => ⟨hM f b, hE f b⟩
    action := fun a todo b => Engine.course_perform hE a todo b
    turn := fun h => Engine.drainWith_turn h
    told := fun h => h.tidings
    recorded := fun h _ _ hrow _ hserved => by
      obtain ⟨row', hrow', htakes⟩ := h.takes hrow
      obtain ⟨taken, htaken⟩ := htakes.messages
      rw [arrivals_eq_through hserved] at htaken
      exact ⟨row', taken, hrow', htaken⟩
    disposes := fun h => dispose_opened h.reaches
    severs := fun b r t => ⟨b.isActive_severed r t, b.record?_severed r t, b.isAttached_severed r⟩
    ended := fun hb h _ hr hended => hb.lived.ended h.reaches hr hended
    script := fun script =>
      grown_fresh.moves (keeps_foldl (fun b c => lawful_perform hM c b) fresh script) }

end Scenario

end Marble
