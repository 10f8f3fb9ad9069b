import Marble.Proofs.ColdRuns
import Marble.Proofs.Ending
import Marble.Proofs.Mute

/-! A clock with nothing but mute actions in its queue. It can be driven to any instant, and it
stays like this when sources are made and recorders begin to listen. -/
namespace Marble

variable {α σ : Type} {E : Engine α σ} {b b' b'' b₁ : Bench α σ} {a : Action α σ} {s : SourceRef}
  {c : ClockRef} {r : RecorderRef} {o : Observer α} {limit : VirtualTime}
  {ran : List (Pending (Action α σ))}

namespace Bench

/-! ### Staying mute -/

/-- What is mute on one bench is mute on the other: recorders stay, subscriptions keep their
teardowns, and whoever is attached serves a recorder or has been attached before. -/
structure Maintains (b b' : Bench α σ) : Prop where
  recorder : ∀ r, (b.recorders.get? r).isSome → (b'.recorders.get? r).isSome
  teardown : ∀ sub row, b.subscriptions.get? sub = some row →
    ∃ row', b'.subscriptions.get? sub = some row' ∧ row'.teardown = row.teardown
  observer : ∀ s, ∀ o ∈ b'.observers s, o ∈ b.observers s ∨ b'.Serves o

theorem maintains_of_eq (hrecorders : b'.recorders = b.recorders)
    (hsubscriptions : b'.subscriptions = b.subscriptions) (hsources : b'.sources = b.sources) :
    Maintains b b' where
  recorder r hr := by rwa [hrecorders]
  teardown sub row hrow := ⟨row, by rwa [hsubscriptions], rfl⟩
  observer s o ho := Or.inl (by rwa [observers, hsources] at ho)

theorem Serves.maintained (h : b.Serves o) (hb : Maintains b b') : b'.Serves o := by
  obtain ⟨r, hsink, hr⟩ := h.recorder
  exact ⟨h.silent, r, hsink, hb.recorder r hr⟩

theorem Maintains.trans (h : Maintains b b') (h' : Maintains b' b'') : Maintains b b'' where
  recorder r hr := h'.recorder r (h.recorder r hr)
  teardown sub row hrow := by
    obtain ⟨row', hrow', ht'⟩ := h.teardown sub row hrow
    obtain ⟨row'', hrow'', ht''⟩ := h'.teardown sub row' hrow'
    exact ⟨row'', hrow'', ht''.trans ht'⟩
  observer s o ho := by
    rcases h'.observer s o ho with ho | ho
    · exact (h.observer s o ho).imp_right fun hserves => hserves.maintained h'
    · exact Or.inr ho

theorem Mute.maintained (h : b.Mute a) (hb : Maintains b b') : b'.Mute a := by
  cases a with
  | deliver sub o n =>
    obtain ⟨hsub, hserves⟩ := h
    obtain ⟨row, hrow⟩ := Option.isSome_iff_exists.mp hsub
    obtain ⟨row', hrow', -⟩ := hb.teardown sub row hrow
    exact ⟨by simp [hrow'], hserves.maintained hb⟩
  | multicast s n =>
    intro o ho
    rcases hb.observer s o ho with ho | ho
    · exact (h o ho).maintained hb
    · exact ho
  | release r sub =>
    obtain ⟨hr, row, hrow, hquiet⟩ := h
    obtain ⟨row', hrow', ht⟩ := hb.teardown sub row hrow
    exact ⟨hb.recorder r hr, row', hrow', ht ▸ hquiet⟩
  | invoke e => exact h.elim
  | push o n => exact h.elim
  | openRun r f => exact h.elim
  | closeRun r => exact h.elim

theorem maintains_tell (b : Bench α σ) (os : List (Observer α)) (n : Signal α) :
    Maintains b (b.tell os n) where
  recorder r hr := by simpa [get?_tell] using hr
  teardown sub row hrow := ⟨row, hrow, rfl⟩
  observer s o ho := Or.inl ho

theorem maintains_retire (b : Bench α σ) (sub : SubscriptionRef) : Maintains b (b.retire sub) where
  recorder r hr := hr
  teardown sub' row hrow := by
    change ∃ row', (b.subscriptions.modify sub _).get? sub' = some row' ∧ _
    rw [Table.get?_modify, hrow]
    split
    · exact ⟨_, rfl, rfl⟩
    · exact ⟨_, rfl, rfl⟩
  observer s o ho := by
    obtain ⟨x, hx, rfl⟩ := List.mem_map.mp ho
    have hx : x ∈ (b.retire sub).attached s := hx
    rw [attached_retire] at hx
    exact Or.inl (List.mem_map_of_mem (List.mem_of_mem_filter hx))

theorem maintains_enact (b : Bench α σ) (a : Action α σ) : Maintains b (b.enact a) := by
  cases a with
  | deliver sub o n =>
    rw [enact]
    split
    · exact maintains_tell b [o] n
    · exact maintains_of_eq rfl rfl rfl
  | multicast s n => exact maintains_tell b _ n
  | release r sub =>
    have hdetach : Maintains b (b.detach r) :=
      ⟨fun r' hr' => by rwa [detach, Table.isSome_get?_modify],
        fun sub row hrow => ⟨row, hrow, rfl⟩, fun s o ho => Or.inl ho⟩
    exact hdetach.trans (maintains_retire _ sub)
  | invoke e => exact maintains_of_eq rfl rfl rfl
  | push o n => exact maintains_of_eq rfl rfl rfl
  | openRun r f => exact maintains_of_eq rfl rfl rfl
  | closeRun r => exact maintains_of_eq rfl rfl rfl

/-! ### Driving a quiet clock -/

/-- A clock there is, with nothing but mute actions in its queue. -/
structure Quiet (c : ClockRef) (b : Bench α σ) : Prop where
  lived : b.Lived
  clock : (b.clocks.get? c).isSome
  mute : ∀ p ∈ (b.clock c).queue, b.Mute p.action

/-- The head of a queue starts, at its own time. -/
theorem Lived.next? (h : b.Lived) (hn : b.next? c limit = some (a, b₁)) :
    ∃ p rest k, (b.clock c).queue = p :: rest ∧ a = p.action ∧ p.due ≤ limit ∧
      k.queue = rest ∧ k.now = p.due ∧ b₁ = ({ b with clocks := b.clocks.modify c fun _ => k } :
        Bench α σ).note (.report (.dispatching c p.due p.sequence)) ∧ b₁.clock c = k := by
  have hord := h.ordered c
  obtain ⟨row, hrow⟩ := exists_clock hn
  rw [Bench.clock, hrow, Option.getD_some] at hord
  obtain ⟨p, k, hnext, rfl, rfl⟩ := next?_eq_some hrow hn
  have hnow := hord.now_next? hnext
  obtain ⟨rest, hqueue, hdue, hk⟩ := Clock.next?_eq_some hnext
  refine ⟨p, rest, k, by rw [Bench.clock, hrow, Option.getD_some, hqueue], rfl, hdue, ?_,
    hnow, rfl, ?_⟩
  · rw [hk]
  · change ((b.clocks.modify c fun _ => k).get? c).getD {} = k
    rw [Table.get?_modify, hrow]
    simp

/-- The first action of a quiet clock gets done, and leaves the clock quiet. -/
theorem Quiet.turn (hE : E.Lawful) (h : b.Quiet c) (hn : b.next? c limit = some (a, b₁)) :
    E.perform a b₁ = (.done (), b₁.enact a) ∧ (b₁.enact a).Quiet c := by
  have hreaches : Reaches b b₁ := (Change.plain (.start hn)).reaches
  obtain ⟨p, rest, k, hqueue, rfl, -, hrest, -, hb₁, hk⟩ := h.lived.next? hn
  have hstart : Maintains b b₁ := by
    rw [hb₁]
    exact maintains_of_eq rfl rfl rfl
  have hmute : b₁.Mute p.action := (h.mute p (by simp [hqueue])).maintained hstart
  have hrun := hmute.perform (E := E)
  have hperform := Engine.respects_perform hE p.action b₁
  rw [hrun] at hperform
  refine ⟨hrun, h.lived.reaches (hreaches.trans hperform), ?_, ?_⟩
  · rw [enact_clocks, hb₁]
    change ((b.clocks.modify c fun _ => k).get? c).isSome
    rw [Table.isSome_get?_modify]
    exact h.clock
  · intro q hq
    rw [Bench.clock, enact_clocks] at hq
    change q ∈ (b₁.clock c).queue at hq
    rw [hk, hrest] at hq
    exact (h.mute q (by simp [hqueue, hq])).maintained (hstart.trans (maintains_enact b₁ _))

/-- What every turn of a quiet clock keeps up, any number of turns do. -/
theorem Quiet.runs_induct (hE : E.Lawful) {P : List (Pending (Action α σ)) → Bench α σ → Prop}
    (h : b.Quiet c) (hstart : P [] b)
    (hturn : ∀ ran b p rest b₁, b.Quiet c → P ran b → (b.clock c).queue = p :: rest →
      b.next? c limit = some (p.action, b₁) → P (ran ++ [p]) (b₁.enact p.action))
    (hruns : E.Runs c limit b ran b') : b'.Quiet c ∧ P ran b' := by
  induction hruns with
  | rest => exact ⟨h, hstart⟩
  | @turn ran p rest b₁ b₂ b₃ hruns hqueue hnext hrun ih =>
    obtain ⟨hquiet, hP⟩ := ih
    obtain ⟨hperform, hquiet₃⟩ := hquiet.turn hE hnext
    obtain rfl : b₂.enact p.action = b₃ := congrArg Prod.snd (hperform.symm.trans hrun)
    exact ⟨hquiet₃, hturn ran b₁ p rest b₂ hquiet hP hqueue hnext⟩

/-- How turns of a quiet clock leave things: what has run stood first in the queue, and the scopes
and the timelines of the sources are as they were. -/
structure Played (c : ClockRef) (limit : VirtualTime) (ran : List (Pending (Action α σ)))
    (b b' : Bench α σ) : Prop where
  queue : (b.clock c).queue = ran ++ (b'.clock c).queue
  due : ∀ p ∈ ran, p.due ≤ limit
  now : b'.now c ≤ max (b.now c) limit
  later : b.now c ≤ b'.now c
  scopes : b'.scopes = b.scopes
  stack : b'.stack = b.stack
  sources : ∀ s, (b'.sources.get? s).map Source.bare = (b.sources.get? s).map Source.bare
  next : b'.sources.next = b.sources.next

theorem Quiet.runs (hE : E.Lawful) (h : b.Quiet c) (hruns : E.Runs c limit b ran b') :
    b'.Quiet c ∧ Played c limit ran b b' := by
  refine h.runs_induct hE (P := fun ran b' => Played c limit ran b b')
    ⟨rfl, by simp, le_max_left _ _, le_refl _, rfl, rfl, fun _ => rfl, rfl⟩ ?_ hruns
  intro ran b₁ p rest b₂ hquiet hplayed hqueue hnext
  obtain ⟨q, rest', k, hqueue', hq, hdue, hrest, hnow, hb₂, hk⟩ := hquiet.lived.next? hnext
  obtain ⟨rfl, rfl⟩ : q = p ∧ rest' = rest := List.cons.inj (hqueue'.symm.trans hqueue)
  have hclock : (b₂.enact q.action).clock c = k := by rw [Bench.clock, enact_clocks]; exact hk
  have hreading : (b₂.enact q.action).now c = q.due := by
    change ((b₂.enact q.action).clock c).now = q.due
    rw [hclock, hnow]
  have hordered := (hquiet.lived.ordered c).due q (by simp [hqueue])
  refine ⟨?_, ?_, ?_, ?_, ?_, ?_, fun s => ?_, ?_⟩
  · rw [hplayed.queue, hqueue, hclock, hrest]
    simp
  · intro p hp
    rcases List.mem_append.mp hp with hp | hp
    · exact hplayed.due p hp
    · rwa [List.mem_singleton.mp hp]
  · rw [hreading]
    exact le_trans hdue (le_max_right _ _)
  · rw [hreading]
    exact le_trans hplayed.later hordered
  · rw [enact_scopes, hb₂]
    exact hplayed.scopes
  · rw [enact_stack, hb₂]
    exact hplayed.stack
  · rw [bare_enact, hb₂]
    exact hplayed.sources s
  · rw [enact_next, hb₂]
    exact hplayed.next

/-- With fuel for all that is queued, every action of a quiet clock gets done. -/
theorem Quiet.eachTurn (hE : E.Lawful) (h : b.Quiet c) (hfuel : (b.clock c).queue.length < E.fuel)
    (limit : VirtualTime) : E.EachTurn (fun _ _ => True) c limit E.fuel b := by
  intro ran b₁ hruns
  obtain ⟨hquiet, hplayed⟩ := h.runs hE hruns
  refine ⟨?_, fun a b₂ hnext => ⟨b₂.enact a, (hquiet.turn hE hnext).1, trivial⟩⟩
  have hlength := congrArg List.length hplayed.queue
  rw [List.length_append] at hlength
  omega

/-- A quiet clock gets to any instant. -/
theorem Quiet.advanceTo (hE : E.Lawful) (h : b.Quiet c) (hfuel : (b.clock c).queue.length < E.fuel)
    (target : VirtualTime) :
    ∃ ran b₁, E.Runs c target b ran b₁ ∧ b₁.next? c target = none ∧
      E.advanceTo c target b = (.done (), b₁.park c target) :=
  (h.eachTurn hE hfuel target).advanceTo

theorem queue_park (b : Bench α σ) (c : ClockRef) (target : VirtualTime) :
    ((b.park c target).clock c).queue = (b.clock c).queue := by
  rw [Bench.park, clock_modify]
  split <;> rfl

theorem now_park (hc : (b.clocks.get? c).isSome) (target : VirtualTime) :
    (b.park c target).now c = max (b.now c) target := by
  change ((b.park c target).clock c).now = _
  rw [Bench.park, clock_modify, if_pos ⟨rfl, hc⟩]
  rfl

theorem Quiet.park (h : b.Quiet c) (hn : b.next? c limit = none) : (b.park c limit).Quiet c := by
  refine ⟨h.lived.reaches (Change.plain (.park hn)).reaches, ?_, ?_⟩
  · simpa [Bench.park] using h.clock
  · intro p hp
    rw [queue_park] at hp
    exact (h.mute p hp).maintained (maintains_of_eq rfl rfl rfl)

end Bench

end Marble
