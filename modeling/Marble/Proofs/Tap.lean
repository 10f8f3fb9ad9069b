import Marble.Proofs.Listening

/-! A recorder that listens to a source among others that do: what it will have taken in is settled
when it begins to listen, and no turn of the clock, no new source and no new recorder changes it. -/
namespace Marble

variable {α σ : Type} {E : Engine α σ} {b b' b₁ : Bench α σ} {a : Action α σ} {s src : SourceRef}
  {c : ClockRef} {limit target due : VirtualTime} {tl : List (Timed (Signal α))}
  {p : Pending (Action α σ)} {ps ps' rest ran : List (Pending (Action α σ))}
  {stages : List (Stage α)}

/-- A recorder that listens to a source behind some stages: its subscription, and the place of its
observer if the source is hot. -/
structure Tap (α : Type) where
  recorder : RecorderRef
  sub : SubscriptionRef
  stages : List (Stage α)
  place : Option (SourceRef × Nat)

namespace Tap

variable {x : Tap α} {row : Recorder α}

def observer (x : Tap α) : Observer α := ⟨x.stages, .recorder x.recorder⟩

/-- The notification that an action brings from the source. -/
def brings? (x : Tap α) : Action α σ → Option (Signal α)
  | .deliver sub _ n => if sub = x.sub then some n else none
  | .multicast s n => if x.place.any (·.1 == s) then some n else none
  | _ => none

/-- What comes to the recorder of pending actions before one of them ends the recording. -/
def arrivals (x : Tap α) (ps : List (Pending (Action α σ))) : List (Timed (Signal α)) :=
  Timeline.through x.stages
    (picked x.brings? (ps.takeWhile fun p => !p.action.releases x.recorder))

theorem brings?_multicast_of_ne (h : ∀ e, x.place ≠ some (s, e)) (n : Signal α) :
    x.brings? (.multicast s n : Action α σ) = none := by
  refine if_neg fun hany => ?_
  cases hplace : x.place with
  | none => simp [hplace] at hany
  | some y =>
    obtain rfl : y.1 = s := by simpa [hplace] using hany
    exact h y.2 hplace

/-- Those among the observers of a source that serve the recorder. -/
def mine (x : Tap α) (b : Bench α σ) (s : SourceRef) : List (Nat × Observer α) :=
  (b.attached s).filter fun y => decide (y.2.sink = .recorder x.recorder)

/-- What holds while the recorder listens, with some actions pending: they concern it only as far as
they bring something from its source or end the recording, and the end is among them. -/
structure Live (x : Tap α) (limit : VirtualTime) (ps : List (Pending (Action α σ)))
    (b : Bench α σ) : Prop where
  active : b.isActive x.sub
  stop : ∃ p ∈ ps, p.action.releases x.recorder ∧ p.due ≤ limit
  deliver : ∀ p ∈ ps, ∀ sub o n, p.action = .deliver sub o n →
    o.sink = .recorder x.recorder ∨ sub = x.sub → sub = x.sub ∧ o = x.observer
  release : ∀ p ∈ ps, p.action.disposes? = some x.sub → p.action.releases x.recorder
  place : ∀ y, x.place = some y → b.leaves? x.sub = some y
  attached : ∀ p ∈ ps, ∀ s n, p.action = .multicast s n → x.mine b s = posted x.place x.observer s

/-- On its clock, a recorder is going to have taken in a timeline by a limit. -/
structure Tracks (x : Tap α) (c : ClockRef) (limit : VirtualTime) (tl : List (Timed (Signal α)))
    (b : Bench α σ) (row : Recorder α) : Prop where
  recorder : b.recorders.get? x.recorder = some row
  clock : row.clock = c
  outlook : row.outlook (x.arrivals (b.clock c).queue) = tl
  live : row.state = .listening → x.Live limit (b.clock c).queue b

/-! ### What comes of a queue -/

theorem arrivals_cons_releases (h : p.action.releases x.recorder) : x.arrivals (p :: ps) = [] := by
  simp [arrivals, h, Timeline.through, picked]

theorem arrivals_cons (h : p.action.releases x.recorder = false) :
    x.arrivals (p :: ps) =
      ((x.brings? p.action).bind (Stage.through x.stages)).toList.map (⟨p.due, ·⟩) ++
        x.arrivals ps := by
  rw [arrivals, List.takeWhile_cons_of_pos (by simp [h])]
  cases hb : x.brings? p.action with
  | none => simp [picked_cons_none hb, arrivals]
  | some n =>
    rw [picked_cons_some hb, Timeline.through_cons]
    rfl

/-- An action that has nothing to do with the recorder brings nothing. -/
theorem arrivals_enqueue (hb : x.brings? p.action = none)
    (he : p.action.releases x.recorder = false) :
    x.arrivals (Clock.enqueue p ps) = x.arrivals ps := by
  induction ps with
  | nil => simp [Clock.enqueue, arrivals_cons he, hb]
  | cons q rest ih =>
    rw [Clock.enqueue]
    split
    · cases hq : q.action.releases x.recorder with
      | true => rw [arrivals_cons_releases hq, arrivals_cons_releases hq]
      | false => rw [arrivals_cons hq, arrivals_cons hq, ih]
    · simp [arrivals_cons he, hb]

/-- The end of the recording cuts off what is due later. -/
theorem arrivals_enqueue_releases (hps : ps.Pairwise fun p q => p.due ≤ q.due)
    (hp : p.action.releases x.recorder) (hno : ∀ q ∈ ps, q.action.releases x.recorder = false) :
    x.arrivals (Clock.enqueue p ps) = Timeline.through x.stages
      ((picked x.brings? ps).filter fun e => decide (e.time ≤ p.due)) := by
  induction ps with
  | nil => simp [Clock.enqueue, arrivals_cons_releases hp, picked, Timeline.through]
  | cons q rest ih =>
    have hrest := (List.pairwise_cons.mp hps).2
    rw [Clock.enqueue]
    split
    next hle =>
      rw [arrivals_cons (hno q (by simp)), ih hrest fun r hr => hno r (by simp [hr])]
      cases hb : x.brings? q.action with
      | none => rw [picked_cons_none hb]; rfl
      | some n =>
        rw [picked_cons_some hb, List.filter_cons_of_pos (by simpa using hle),
          Timeline.through_cons]
        rfl
    next hle =>
      have hlate := lt_of_mem_picked (f := x.brings?)
        (VirtualTime.lt_of_pairwise hps (not_le.mp hle))
      rw [Timeline.filter_eq_nil_of_lt hlate, arrivals_cons_releases hp]
      rfl

/-! ### Turns of the clock -/

theorem mine_enact (b : Bench α σ) (a : Action α σ) (s : SourceRef) :
    x.mine (b.enact a) s =
      (x.mine b s).filter fun y => decide (a.disposes?.bind b.departs? ≠ some (s, y.1)) := by
  rw [mine, Bench.attached_enact, mine, List.filter_comm]

theorem Live.aside (h : x.Live limit ps b) (hsubscriptions : b'.subscriptions = b.subscriptions)
    (hsources : b'.sources = b.sources) : x.Live limit ps b' where
  active := by
    rw [Bench.isActive, hsubscriptions]
    exact h.active
  stop := h.stop
  deliver := h.deliver
  release := h.release
  place y hy := by
    rw [Bench.leaves?, hsubscriptions]
    exact h.place y hy
  attached p hp s n ha := by
    rw [mine, Bench.attached, hsources]
    exact h.attached p hp s n ha

/-- A mute action tells the recorder what it brings from the source. -/
theorem Live.tells (h : x.Live limit (p :: ps) b) :
    b.tells x.recorder p.action = ((x.brings? p.action).bind (Stage.through x.stages)).toList := by
  cases ha : p.action with
  | deliver sub o n =>
    have hown := h.deliver p (by simp) sub o n ha
    rw [Bench.tells, brings?]
    by_cases hsub : sub = x.sub
    · obtain ⟨-, rfl⟩ := hown (Or.inr hsub)
      simp [hsub, h.active, Observer.told, observer]
    · have hsink : o.sink ≠ .recorder x.recorder := fun hsink => hsub (hown (Or.inl hsink)).1
      simp [hsub, Observer.told, hsink]
  | multicast s n =>
    have hmine : b.tells x.recorder (.multicast s n) =
        (x.mine b s).filterMap fun y => Stage.through y.2.stages n := by
      rw [Bench.tells, mine, List.filterMap_filter]
      change ((b.attached s).map (·.2)).filterMap _ = _
      simp [List.filterMap_map, Observer.told]
    rw [hmine, h.attached p (by simp) s n ha, brings?]
    cases x.place with
    | none => rfl
    | some y =>
      by_cases hs : y.1 = s
      · cases hm : Stage.through x.stages n <;> simp [posted, hs, hm, observer]
      · simp [posted, hs]
  | _ => rfl

/-- An action that does not end the recording leaves it going. -/
theorem Live.turn (hb : b.Rostered) (h : x.Live limit (p :: ps) b)
    (hp : p.action.releases x.recorder = false) : x.Live limit ps (b.enact p.action) := by
  have hother : p.action.disposes? ≠ some x.sub := fun hsub => by
    simp [h.release p (by simp) hsub] at hp
  refine ⟨?_, ?_, fun q hq => h.deliver q (by simp [hq]), fun q hq => h.release q (by simp [hq]),
    fun y hy => (congrFun (Bench.leaves?_enact b _) _).trans (h.place y hy), ?_⟩
  · simp [Bench.isActive_enact, h.active, hother]
  · obtain ⟨q, hq, hends, hdue⟩ := h.stop
    rcases List.mem_cons.mp hq with rfl | hq
    · simp [hp] at hends
    · exact ⟨q, hq, hends, hdue⟩
  · intro q hq s n ha
    rw [mine_enact, h.attached q (by simp [hq]) s n ha, List.filter_eq_self]
    intro y hy
    have hplace := h.place _ (mem_posted hy).1
    simp only [decide_eq_true_eq]
    intro hdeparts
    obtain ⟨sub, hsub, hleaves⟩ := Option.bind_eq_some_iff.mp hdeparts
    rw [Bench.departs?] at hleaves
    split at hleaves
    · obtain rfl := hb.apart sub x.sub _ hleaves hplace
      exact hother hsub
    · cases hleaves

theorem Tracks.turn (hb : b.Quiet c) (h : x.Tracks c limit tl b row)
    (hqueue : (b.clock c).queue = p :: ps) (hn : b.next? c target = some (p.action, b₁)) :
    ∃ row', x.Tracks c limit tl (b₁.enact p.action) row' := by
  obtain ⟨q, rest, k, hqueue', -, -, hrest, hnow, hb₁, hk⟩ := hb.lived.next? hn
  obtain ⟨rfl, rfl⟩ : q = p ∧ rest = ps := List.cons.inj (hqueue'.symm.trans hqueue)
  have hrostered : b₁.Rostered :=
    (hb.lived.reaches (Bench.Change.plain (.start hn)).reaches).rostered
  have hrow : b₁.recorders.get? x.recorder = some row := by rw [hb₁]; exact h.recorder
  have hlive : row.state = .listening → x.Live limit (q :: rest) b₁ := by
    intro hl
    have hl := h.live hl
    rw [hqueue] at hl
    exact hl.aside (by rw [hb₁]; rfl) (by rw [hb₁]; rfl)
  have hreads : b₁.now row.clock = q.due := by
    rw [h.clock]
    change (b₁.clock c).now = q.due
    rw [hk, hnow]
  have hleft : ((b₁.enact q.action).clock c).queue = rest := by
    rw [Bench.clock, Bench.enact_clocks]
    change (b₁.clock c).queue = rest
    rw [hk, hrest]
  have hout := h.outlook
  rw [hqueue] at hout
  cases hends : q.action.releases x.recorder with
  | true =>
    have hstate : (row.detach.takeAll q.due (b₁.tells x.recorder q.action)).state ≠ .listening :=
      fun hl => row.detach_state (Recorder.listening_of_takeAll hl)
    refine ⟨row.detach.takeAll q.due (b₁.tells x.recorder q.action), ?_, by simp [h.clock], ?_,
      fun hl => (hstate hl).elim⟩
    · rw [Bench.get?_enact, hrow]
      simp [hends, hreads]
    · rw [Recorder.outlook_takeAll, Recorder.outlook_detach, ← hout, arrivals_cons_releases hends]
  | false =>
    refine ⟨row.takeAll q.due (b₁.tells x.recorder q.action), ?_, by simp [h.clock], ?_,
      fun hl => ?_⟩
    · rw [Bench.get?_enact, hrow]
      simp [hends, hreads]
    · rw [hleft, Recorder.outlook_takeAll, ← hout]
      by_cases hl : row.state = .listening
      · rw [(hlive hl).tells, arrivals_cons hends]
      · rw [Recorder.outlook_of_ne hl, Recorder.outlook_of_ne hl]
    · rw [hleft]
      exact (hlive (Recorder.listening_of_takeAll hl)).turn hrostered hends

theorem Tracks.runs (hE : E.Lawful) (hb : b.Quiet c) (h : x.Tracks c limit tl b row)
    (hruns : E.Runs c target b ran b') : ∃ row', x.Tracks c limit tl b' row' :=
  (hb.runs_induct hE (P := fun _ b => ∃ row, x.Tracks c limit tl b row) ⟨row, h⟩
    (fun _ _ _ _ _ hquiet ⟨_, h⟩ hqueue hn => h.turn hquiet hqueue hn) hruns).2

/-- With nothing left that is due by the limit, the recorder has taken in its timeline. -/
theorem Tracks.finished (h : x.Tracks c limit tl b row)
    (hlate : ∀ p ∈ (b.clock c).queue, limit < p.due) :
    row.state ≠ .listening ∧ row.messages.toList = tl := by
  have hstate : row.state ≠ .listening := by
    intro hl
    obtain ⟨p, hp, -, hdue⟩ := (h.live hl).stop
    exact not_lt.mpr hdue (hlate p hp)
  exact ⟨hstate, (Recorder.outlook_of_ne hstate).symm.trans h.outlook⟩

/-! ### Whatever else is set up -/

/-- Away from the recorder, what holds while it listens is all that has to stay. -/
theorem Tracks.mono (h : x.Tracks c limit tl b row)
    (hrow : b'.recorders.get? x.recorder = b.recorders.get? x.recorder)
    (hlive : x.Live limit (b.clock c).queue b → x.Live limit (b'.clock c).queue b' ∧
      x.arrivals (b'.clock c).queue = x.arrivals (b.clock c).queue) :
    x.Tracks c limit tl b' row := by
  refine ⟨hrow.trans h.recorder, h.clock, ?_, fun hl => (hlive (h.live hl)).1⟩
  rw [← h.outlook]
  by_cases hl : row.state = .listening
  · rw [(hlive (h.live hl)).2]
  · rw [Recorder.outlook_of_ne hl, Recorder.outlook_of_ne hl]

theorem arrivals_scheduleAll {β : Type} {action : β → Action α σ} (k : Clock (Action α σ))
    (tl : List (Timed β)) (hb : ∀ y, x.brings? (action y) = none)
    (he : ∀ y, (action y).releases x.recorder = false) :
    x.arrivals (k.scheduleAll action tl).queue = x.arrivals k.queue := by
  induction tl using List.reverseRecOn with
  | nil => rfl
  | append_singleton tl e ih =>
    rw [Clock.scheduleAll_concat, Clock.schedule, arrivals_enqueue (hb _) (he _), ih]

theorem Tracks.aside (h : x.Tracks c limit tl b row) (hrecorders : b'.recorders = b.recorders)
    (hsubscriptions : b'.subscriptions = b.subscriptions) (hsources : b'.sources = b.sources)
    (hqueue : (b'.clock c).queue = (b.clock c).queue) : x.Tracks c limit tl b' row := by
  refine h.mono (by rw [hrecorders]) fun hl => ?_
  rw [hqueue]
  exact ⟨hl.aside hsubscriptions hsources, rfl⟩

theorem Tracks.park (h : x.Tracks c limit tl b row) (target : VirtualTime) :
    x.Tracks c limit tl (b.park c target) row :=
  h.aside rfl rfl rfl (Bench.queue_park b c target)

/-- An action that neither brings anything to the recorder nor ends its recording. -/
structure Foreign (x : Tap α) (b : Bench α σ) (a : Action α σ) : Prop where
  deliver : ∀ sub o n, a = .deliver sub o n → o.sink ≠ .recorder x.recorder ∧ sub ≠ x.sub
  disposes : a.disposes? ≠ some x.sub
  multicast : ∀ s n, a = .multicast s n → x.mine b s = posted x.place x.observer s

theorem foreign_deliver {sub : SubscriptionRef} {o : Observer α}
    (hsink : o.sink ≠ .recorder x.recorder) (hsub : sub ≠ x.sub) (n : Signal α) :
    x.Foreign b (.deliver sub o n) where
  deliver _ _ _ ha := by
    obtain ⟨rfl, rfl, -⟩ := Action.deliver.inj ha
    exact ⟨hsink, hsub⟩
  disposes := by simp [Action.disposes?]
  multicast _ _ ha := by cases ha

theorem foreign_release {sub : SubscriptionRef} (hsub : sub ≠ x.sub) (r : RecorderRef) :
    x.Foreign b (.release r sub) where
  deliver _ _ _ ha := by cases ha
  disposes := by simp [Action.disposes?, hsub]
  multicast _ _ ha := by cases ha

theorem foreign_multicast (hplace : ∀ e, x.place ≠ some (s, e)) (hmine : x.mine b s = [])
    (n : Signal α) : x.Foreign b (.multicast s n) where
  deliver _ _ _ ha := by cases ha
  disposes := by simp [Action.disposes?]
  multicast _ _ ha := by
    obtain ⟨rfl, -⟩ := Action.multicast.inj ha
    rw [hmine, posted_of_ne hplace]

theorem Live.mono (h : x.Live limit ps b) (hkept : ∀ p ∈ ps, p ∈ ps')
    (hnew : ∀ p ∈ ps', p ∈ ps ∨ x.Foreign b' p.action)
    (hsub : b'.subscriptions.get? x.sub = b.subscriptions.get? x.sub)
    (hmine : ∀ s, x.mine b' s = x.mine b s) : x.Live limit ps' b' where
  active := by
    rw [Bench.isActive, hsub]
    exact h.active
  stop := by
    obtain ⟨p, hp, hends⟩ := h.stop
    exact ⟨p, hkept p hp, hends⟩
  deliver p hp sub o n ha hown := by
    rcases hnew p hp with hp | hforeign
    · exact h.deliver p hp sub o n ha hown
    · obtain ⟨hsink, hne⟩ := hforeign.deliver sub o n ha
      exact (hown.elim hsink hne).elim
  release p hp hdisposes := by
    rcases hnew p hp with hp | hforeign
    · exact h.release p hp hdisposes
    · exact (hforeign.disposes hdisposes).elim
  place y hy := by
    rw [Bench.leaves?, hsub]
    exact h.place y hy
  attached p hp s n ha := by
    rcases hnew p hp with hp | hforeign
    · rw [hmine, h.attached p hp s n ha]
    · exact hforeign.multicast s n ha

/-- A new source is not the one that the recorder listens to. -/
theorem Tracks.addSource (hb : b.Quiet c) (h : x.Tracks c limit tl b row)
    (temperature : Temperature) (c' : ClockRef) (events : List (Timed (Signal α))) :
    x.Tracks c limit tl (b.addSource temperature c' events).2 row := by
  obtain ⟨hrecorders, hsubscriptions, -⟩ := b.addSource_fields temperature c' events
  refine h.mono (by rw [hrecorders]) fun hl => ?_
  have hplace : ∀ e, x.place ≠ some (b.sources.next, e) := by
    intro e hplace
    obtain ⟨source, hsource, -⟩ := hb.lived.rostered.entries _ _ _ (hl.place _ hplace)
    simp [Table.get?_next] at hsource
  have hmine : ∀ s, x.mine (b.addSource temperature c' events).2 s = x.mine b s := fun s => by
    rw [mine, Bench.attached_addSource, mine]
  have hnobody : x.mine (b.addSource temperature c' events).2 b.sources.next = [] := by
    rw [hmine, mine, Bench.attached, Table.get?_next]
    rfl
  rw [Bench.clock_addSource hb.clock]
  refine ⟨hl.mono (fun p hp => Clock.mem_scheduleAll_of_mem hp) (fun p hp => ?_)
    (by rw [hsubscriptions]) hmine,
    arrivals_scheduleAll _ _ (brings?_multicast_of_ne hplace) fun _ => rfl⟩
  rcases Clock.mem_scheduleAll hp with hp | ⟨⟨e, -, ha⟩, -⟩
  · exact Or.inl hp
  · exact Or.inr (ha ▸ foreign_multicast hplace hnobody e.value)

/-- A new recorder listens for itself alone. -/
theorem Tracks.listen (hb : b.Quiet c) (h : x.Tracks c limit tl b row) (src : SourceRef)
    (stages : List (Stage α)) (due : VirtualTime) :
    x.Tracks c limit tl (b.listen c src stages due) row := by
  obtain ⟨teardown, -, hsubscriptions, -⟩ := b.listen_subscriptions c src stages due
  have hrecorder : b.recorders.next ≠ x.recorder := by
    intro hr
    simpa [← hr, Table.get?_next] using h.recorder
  refine h.mono (by rw [Bench.listen_recorders, Table.get?_push, if_neg (Ne.symm hrecorder)])
    fun hl => ?_
  have hsub : b.subscriptions.next ≠ x.sub :=
    Ne.symm (Table.ne_next (Bench.lt_next_of_isActive hl.active))
  have hmine : ∀ s, x.mine (b.listen c src stages due) s = x.mine b s := by
    intro s
    have hnone : (posted (b.place? src) ⟨stages, .recorder b.recorders.next⟩ s).filter
        (fun y => decide (y.2.sink = .recorder x.recorder)) = [] :=
      List.filter_eq_nil_iff.mpr fun y hy => by simp [(mem_posted hy).2, hrecorder]
    rw [mine, Bench.attached_listen, List.filter_append, hnone, List.append_nil, mine]
  have hreleases : (Action.release b.recorders.next b.subscriptions.next : Action α σ).releases
      x.recorder = false := by simp [Action.releases, hrecorder]
  refine ⟨hl.mono (fun p hp => Bench.mem_listen_of_mem hb.clock hp) (fun p hp => ?_)
    (by rw [hsubscriptions, Table.get?_push, if_neg (Ne.symm hsub)]) hmine, ?_⟩
  · rcases Bench.mem_listen hb.clock hp with hp | ha | ⟨n, ha⟩
    · exact Or.inl hp
    · exact Or.inr (ha ▸ foreign_release hsub _)
    · exact Or.inr (ha ▸ foreign_deliver (by simp [hrecorder]) hsub n)
  · rw [Bench.clock_listen hb.clock, Clock.schedule, arrivals_enqueue rfl hreleases]
    exact arrivals_scheduleAll (b.clock c) _ (fun _ => if_neg hsub) fun _ => rfl

end Tap

end Marble
