import Marble.Proofs.Airing

/-! An event of a hot source goes round the subscriptions there are when it comes. Whatever is done
on the way, each that is still there when its turn comes is told once, and nobody else is. -/
namespace Marble

variable {α σ : Type} {b b' : Bench α σ} {s : SourceRef} {r : SubscriptionRef} {source : Source α}
  {n : Signal α} {told : List SubscriptionRef} {result : Outcome Unit × Bench α σ}
  {roster : List (SubscriptionRef × Observer α)} {e : Nat}

namespace Bench

theorem isActive_iff_mem_subscribers (hr : b.leaves? r = some (s, e)) :
    b.isActive r ↔ r ∈ b.subscribers s := by
  rw [mem_subscribers]
  exact ⟨fun ha => ⟨ha, e, hr⟩, fun h => h.1⟩

/-- An observer is attached as long as its subscription has not been disposed. -/
theorem Rostered.isAttached_eq (h : b.Rostered) (hs : b.sources.get? s = some source)
    (hhot : source.temperature = .hot) (hr : b.leaves? r = some (s, e)) :
    b.isAttached s e = b.isActive r := by
  have hattached := h.attached s source hs hhot
  rw [isAttached, hs, Bool.eq_iff_iff, isActive_iff_mem_subscribers hr]
  simp only [Option.map_some, Option.getD_some, Source.isAttached, List.any_eq_true, beq_iff_eq]
  constructor
  · rintro ⟨x, hx, rfl⟩
    have hmem : some (s, x.1) ∈ (b.subscribers s).map b.leaves? := by
      rw [hattached]
      exact List.mem_map_of_mem hx
    obtain ⟨r', hr', heq⟩ := List.mem_map.mp hmem
    rwa [h.apart r r' _ hr heq]
  · intro hmem
    have hentry : some (s, e) ∈ source.attached.map fun x => some (s, x.1) := by
      rw [← hattached]
      exact List.mem_map.mpr ⟨r, hmem, hr⟩
    obtain ⟨x, hx, heq⟩ := List.mem_map.mp hentry
    exact ⟨x, hx, (Prod.mk.inj (Option.some.inj heq)).2⟩

/-- A roster and the observers that are attached are in step. -/
theorem Rostered.step (h : b.Rostered) (hs : b.sources.get? s = some source)
    (hhot : source.temperature = .hot) :
    (b.roster s).map (fun x => (b.leaves? x.1, x.2)) =
      source.attached.map fun y => (some (s, y.1), y.2) := by
  rw [Bench.roster, observers_of_source hs]
  exact map_zip_step (·.2) (h.attached s source hs hhot)

/-- A subscription to a hot source is entered at the end of its roster. -/
theorem roster_attach (h : b.Rostered) (hs : b.sources.get? s = some source)
    (hhot : source.temperature = .hot) (o : Observer α) :
    (b.attach s o).1 = b.subscriptions.next ∧
      (b.attach s o).2.roster s = b.roster s ++ [(b.subscriptions.next, o)] := by
  have hattach : b.attach s o = (b.subscriptions.next, b.enlist s source
      { source with
        log := source.log ++ [⟨b.now source.clock, none⟩]
        attached := source.attached ++ [(source.log.length, o)] }) := by
    simp only [attach, hs, hhot]
    rfl
  rw [hattach]
  exact ⟨rfl, roster_enlist h hs hhot ⟨by simp, rfl, fun _ => rfl⟩⟩

end Bench

namespace Engine

open Bench

variable {E : Engine α σ}

/-- A notification goes round a roster: each subscription that is still active when its turn comes
is told, and the others are not. Whatever breaks off while one is told ends the round. -/
inductive Round (E : Engine α σ) (n : Signal α) : List (SubscriptionRef × Observer α) →
    Bench α σ → List SubscriptionRef → Outcome Unit × Bench α σ → Prop
  | nil (b : Bench α σ) : Round E n [] b [] (.done (), b)
  | tell {r : SubscriptionRef} {o : Observer α} {rest : List (SubscriptionRef × Observer α)}
    {b b' : Bench α σ} {told : List SubscriptionRef} {result : Outcome Unit × Bench α σ}
    (ha : b.isActive r) (hrun : E.notify o n b = (.done (), b'))
    (h : Round E n rest b' told result) :
    Round E n ((r, o) :: rest) b (r :: told) result
  | skip {r : SubscriptionRef} {o : Observer α} {rest : List (SubscriptionRef × Observer α)}
    {b : Bench α σ} {told : List SubscriptionRef} {result : Outcome Unit × Bench α σ}
    (ha : b.isActive r = false) (h : Round E n rest b told result) :
    Round E n ((r, o) :: rest) b told result
  | broken {r : SubscriptionRef} {o : Observer α} {rest : List (SubscriptionRef × Observer α)}
    {b : Bench α σ} (ha : b.isActive r) (hne : (E.notify o n b).1 ≠ .done ()) :
    Round E n ((r, o) :: rest) b [r] (E.notify o n b)

/-- Nobody is told twice, nor out of turn, nor without being on the roster. -/
theorem Round.sublist (h : E.Round n roster b told result) : told.Sublist (roster.map (·.1)) := by
  induction h with
  | nil => exact .slnil
  | tell _ _ _ ih => exact ih.cons_cons _
  | skip _ _ ih => exact ih.cons _
  | broken => exact (List.nil_sublist _).cons_cons _

/-- Tells an observer that is still attached. -/
def offer (E : Engine α σ) (s : SourceRef) (n : Signal α) (o : Nat × Observer α) :
    Run α σ Unit := do
  if ← Run.read (·.isAttached s o.1) then E.notify o.2 n else return ()

theorem offer_attached {o : Observer α} (h : b.isAttached s e = true) :
    E.offer s n (e, o) b = E.notify o n b := by
  rw [offer, Run.read_bind, h]
  rfl

theorem offer_detached {o : Observer α} (h : b.isAttached s e = false) :
    E.offer s n (e, o) b = (.done (), b) := by
  rw [offer, Run.read_bind, h]
  rfl

/-- From any point of a round on, the attached observers are gone through as the roster has them. -/
theorem round_each (hE : E.Lawful) (hs : b.sources.get? s = some source)
    (hhot : source.temperature = .hot) {attached : List (Nat × Observer α)}
    (hstep : roster.map (fun x => (b.leaves? x.1, x.2)) =
      attached.map fun y => (some (s, y.1), y.2))
    (hmade : ∀ x ∈ roster, x.1.index < b.subscriptions.next.index) (hb : Retains b b') :
    ∃ told, E.Round n roster b' told (Run.each (E.offer s n) attached b') := by
  induction roster generalizing attached b' with
  | nil =>
    obtain rfl : attached = [] := by simpa using hstep.symm
    exact ⟨[], .nil b'⟩
  | cons x roster ih =>
    obtain ⟨r, o⟩ := x
    cases attached with
    | nil => simp at hstep
    | cons y attached =>
      obtain ⟨e, o'⟩ := y
      obtain ⟨hhead, hrest⟩ := List.cons.inj hstep
      obtain ⟨hr, rfl⟩ := Prod.mk.inj hhead
      have hmadeRest : ∀ x ∈ roster, x.1.index < b.subscriptions.next.index :=
        fun x hx => hmade x (List.mem_cons_of_mem _ hx)
      obtain ⟨source', hs', ht'⟩ := hb.source s source hs
      have hr' : b'.leaves? r = some (s, e) := (hb.leaves r (hmade (r, o) (by simp))).trans hr
      have hturn := hb.rostered.isAttached_eq hs' (ht'.trans hhot) hr'
      rw [Run.each]
      cases ha : b'.isActive r with
      | false =>
        obtain ⟨told, hround⟩ := ih hrest hmadeRest hb
        refine ⟨told, .skip ha ?_⟩
        rw [Run.bind_done (offer_detached (hturn.trans ha))]
        exact hround
      | true =>
        have htell := offer_attached (E := E) (n := n) (o := o) (hturn.trans ha)
        by_cases hdone : (E.notify o n b').1 = .done ()
        · have hrun : E.notify o n b' = (.done (), (E.notify o n b').2) := Prod.ext hdone rfl
          have hkept : Retains b (E.notify o n b').2 :=
            hb.trans (Reaches.retains hb.rostered (respects_notify hE o n b'))
          obtain ⟨told, hround⟩ := ih hrest hmadeRest hkept
          refine ⟨r :: told, .tell ha hrun ?_⟩
          rw [Run.bind_done (htell.trans hrun)]
          exact hround
        · refine ⟨[r], ?_⟩
          rw [Run.bind_of_ne_done (by rw [htell]; exact fun _ => hdone), htell]
          exact .broken ha hdone

/-- An event of a hot source goes round its roster. -/
theorem round_multicast (hE : E.Lawful) (hb : b.Rostered) (hs : b.sources.get? s = some source)
    (hhot : source.temperature = .hot) (n : Signal α) :
    ∃ told, E.Round n (b.roster s) b told (E.multicast s n b) := by
  have hround := round_each (n := n) hE hs hhot (hb.step hs hhot)
    (fun _ => lt_next_of_mem_roster) (.refl hb)
  rw [multicast, Run.read_bind, hs]
  exact hround

/-- A subscription is disposed by taking it off the roster. -/
theorem dispose_subscriber (h : b.Rostered) (hs : b.sources.get? s = some source)
    (hhot : source.temperature = .hot) (hr : r ∈ b.subscribers s) :
    ∃ b', E.dispose r b = (.done (), b') ∧
      b'.roster s = (b.roster s).filter fun x => x.1 != r := by
  obtain ⟨hactive, e, he⟩ := mem_subscribers.mp hr
  exact ⟨b.discharge r s e, by rw [dispose_leaving he, if_pos hactive],
    roster_discharge h he hs hhot⟩

end Engine

namespace Scenario

open Bench

theorem lived_fresh : (fresh : Bench α (Callback α)).Lived :=
  (Change.plain (.addClock {})).reaches.tail (.plain (.rename _ rfl))

variable [Shown α]

/-- What holds of the events of hot sources and their subscriptions under an engine. -/
structure HotMulticast (E : Engine α (Callback α)) : Prop where
  /-- The benches spoken of are all those that scripts come to, -/
  script (script : Script α) : (after E script fresh).Lived
  /-- or callbacks, wherever they are called. -/
  callback {b : Bench α (Callback α)} (f : Callback α) (hb : b.Lived) : (E.call f b).2.Lived
  /-- Of a new hot source, the events that are not past start once, each at its own time; no other
  does. -/
  airing {b b' : Bench α (Callback α)} {c : ClockRef} {k : Clock (Action α (Callback α))}
    (hb : b.Lived) (hk : b.clocks.get? c = some k) (events : List (Timed (Signal α)))
    (h : Reaches (b.addSource .hot c events).2 b') :
    ∃ added, b'.log.toList = b.log.toList ++ added ∧ ∀ c', ∃ evs,
      Clock.Trace ((b.addSource .hot c events).2.clock c') evs (b'.clock c') ∧
      evs.filterMap ClockEvent.start? = dispatches c' added ∧
      (∀ due i reading action, .started due i reading action ∈ evs → reading = due) ∧
      aired b.sources.next (evs.filterMap ClockEvent.started?) ++
          aired b.sources.next (b'.clock c').queue =
        (if c' = c then Timeline.sorted (events.filter fun e => decide (b.now c ≤ e.time))
        else []) ∧
      ∀ e ∈ aired b.sources.next (b'.clock c').queue, b'.now c' ≤ e.time
  /-- What starts is carried out before anything else starts. -/
  turn {b b' : Bench α (Callback α)} {c : ClockRef} {limit : VirtualTime} {fuel : Nat}
    {a : Action α (Callback α)} (h : b.next? c limit = some (a, b')) :
    E.drainWith c limit (fuel + 1) b = (E.perform a >>= fun _ => E.drainWith c limit fuel) b'
  /-- An event that is carried out goes round the roster of its source. -/
  round {b : Bench α (Callback α)} {s : SourceRef} {source : Source α} (hb : b.Lived)
    (hs : b.sources.get? s = some source) (hhot : source.temperature = .hot) (n : Signal α) :
    ∃ told, E.Round n (b.roster s) b told (E.perform (.multicast s n) b) ∧
      told.Sublist (b.subscribers s)
  /-- A roster lists the subscriptions that have not been disposed, in the order they were made. -/
  roster {b : Bench α (Callback α)} {s : SourceRef} {source : Source α} (hb : b.Lived)
    (hs : b.sources.get? s = some source) (hhot : source.temperature = .hot) :
    (b.roster s).map (·.1) = b.subscribers s ∧
      (b.subscribers s).Pairwise (fun r r' => r.index < r'.index) ∧
      ∀ r, r ∈ b.subscribers s ↔ b.isActive r ∧ ∃ e, b.leaves? r = some (s, e)
  /-- Whatever is done, who is on the roster stays there with the same observer until disposed, who
  has been disposed never comes back, and only subscriptions that are made meanwhile are added. -/
  meanwhile {b b' : Bench α (Callback α)} {s : SourceRef} {source : Source α} (hb : b.Lived)
    (h : Reaches b b') (hs : b.sources.get? s = some source) (hhot : source.temperature = .hot) :
    (∃ later, b'.roster s = ((b.roster s).filter fun x => b'.isActive x.1) ++ later ∧
      ∀ x ∈ later, x.1 ∉ b.subscriptions.refs) ∧
      ∀ r ∈ b.subscriptions.refs, b'.isActive r → b.isActive r
  /-- Who subscribes is put on the roster, at its end. -/
  subscribes {b : Bench α (Callback α)} {s : SourceRef} {source : Source α} (hb : b.Lived)
    (hs : b.sources.get? s = some source) (hhot : source.temperature = .hot)
    (stages : List (Stage α)) (k : Sink) :
    ∃ r b', E.subscribe ⟨.source s, stages⟩ k b = (.done r, b') ∧
      b'.roster s = b.roster s ++ [(r, ⟨stages, k⟩)]
  /-- Who is disposed is taken off the roster. -/
  disposes {b : Bench α (Callback α)} {s : SourceRef} {source : Source α} {r : SubscriptionRef}
    (hb : b.Lived) (hs : b.sources.get? s = some source) (hhot : source.temperature = .hot)
    (hr : r ∈ b.subscribers s) :
    ∃ b', E.dispose r b = (.done (), b') ∧ b'.roster s = (b.roster s).filter fun x => x.1 != r

/-- An event of a hot source is handed out once, at its own time, to the subscriptions that are
there when it comes and still there when their turn comes, in the order they were made and once to
each, whatever callbacks subscribe or dispose meanwhile. -/
theorem hotMulticast (fuel : Nat) : HotMulticast (Callback.engine (α := α) fuel) := by
  have hE := Callback.lawful_engine (α := α) fuel
  exact {
    script := fun script => lived_fresh.reaches (reaches_after hE script fresh)
    callback := fun f hb => hb.reaches (hE f _)
    airing := fun hb hk events h => hb.airing hk events h
    turn := fun h => Engine.drainWith_turn h
    round := fun hb hs hhot n => by
      obtain ⟨told, hround⟩ := Engine.round_multicast hE hb.rostered hs hhot n
      exact ⟨told, hround, hb.rostered.map_fst hs hhot ▸ hround.sublist⟩
    roster := fun hb hs hhot =>
      ⟨hb.rostered.map_fst hs hhot, pairwise_subscribers _ _, fun _ => mem_subscribers⟩
    meanwhile := fun hb h hs hhot => by
      have hretains := Reaches.retains hb.rostered h
      obtain ⟨later, hroster, hlater⟩ := hretains.roster _ _ hs hhot
      refine ⟨⟨later, hroster, fun x hx hmem => ?_⟩, fun r hr ha => ?_⟩
      · exact Nat.lt_irrefl _ (Nat.lt_of_lt_of_le (Table.mem_refs.mp hmem) (hlater x hx))
      · exact hretains.active r (Table.mem_refs.mp hr) ha
    subscribes := fun hb hs hhot stages k => by
      obtain ⟨href, hroster⟩ := roster_attach hb.rostered hs hhot ⟨stages, k⟩
      exact ⟨_, _, rfl, by rw [href, hroster]⟩
    disposes := fun hb hs hhot hr => Engine.dispose_subscriber hb.rostered hs hhot hr }

end Scenario

end Marble
