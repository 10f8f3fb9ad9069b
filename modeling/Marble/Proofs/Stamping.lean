import Marble.Proofs.Errands
import Marble.Proofs.Listening
import Marble.Proofs.Passing

/-! What comes to a recorder, told in the order it comes: a recorder keeps all that arrives up to
the first terminal, unless it is told to stop first. -/
namespace Marble

variable {α σ : Type}

/-- What happens to a recorder: a notification arrives at a time, or it is told to stop. -/
inductive Visit (α : Type) where
  | heard (e : Timed (Signal α))
  | stopped

namespace Visit

variable {vs : List (Visit α)} {e : Timed (Signal α)}

/-- Whether a terminal notification arrives. -/
def isTerminal : Visit α → Bool
  | .heard e => e.value.isTerminal
  | .stopped => false

/-- What arrives before a recorder is first told to stop. -/
def early : List (Visit α) → List (Timed (Signal α))
  | .heard e :: rest => e :: early rest
  | _ => []

/-- A recorder is told to stop before any terminal notification arrives. -/
def StoppedFirst (vs : List (Visit α)) : Prop :=
  ∃ before after, vs = before ++ .stopped :: after ∧ ∀ v ∈ before, v.isTerminal = false

theorem not_stoppedFirst_nil : ¬StoppedFirst ([] : List (Visit α)) := by
  rintro ⟨before, after, heq, -⟩
  simp at heq

theorem stoppedFirst_cons_heard :
    StoppedFirst (.heard e :: vs) ↔ e.value.isTerminal = false ∧ StoppedFirst vs := by
  constructor
  · rintro ⟨before, after, heq, hbefore⟩
    cases before with
    | nil => cases heq
    | cons v before =>
      obtain ⟨rfl, rfl⟩ := List.cons.inj heq
      obtain ⟨hv, hbefore⟩ := List.forall_mem_cons.mp hbefore
      exact ⟨hv, before, after, rfl, hbefore⟩
  · rintro ⟨he, before, after, rfl, hbefore⟩
    exact ⟨.heard e :: before, after, rfl, List.forall_mem_cons.mpr ⟨he, hbefore⟩⟩

theorem stoppedFirst_cons_stopped : StoppedFirst (.stopped :: vs) := ⟨[], vs, rfl, by simp⟩

/-- What a visit brings, if it is an arrival. -/
def arrival? : Visit α → Option (Timed (Signal α))
  | .heard e => some e
  | .stopped => none

theorem prefix_early (vs : List (Visit α)) : early vs <+: vs.filterMap arrival? := by
  induction vs with
  | nil => exact List.prefix_rfl
  | cons v rest ih =>
    cases v with
    | heard e => exact (List.prefix_cons_inj e).mpr ih
    | stopped => exact List.nil_prefix

end Visit

open Visit (early arrival? StoppedFirst)

/-! ### Up to the first terminal -/

namespace Timeline

variable {ε : Type} {tl : List (Event α ε)}

theorem isWhole_untilTerminal (tl : List (Event α ε)) : IsWhole (untilTerminal tl) := by
  apply untilTerminal_eq_self.mp
  induction tl with
  | nil => rfl
  | cons e rest ih =>
    rw [untilTerminal]
    split
    next he => simp [untilTerminal, he]
    next he => simp [untilTerminal, he, ih]

/-- What comes up to the first terminal ends with one if there is any. -/
theorem last_untilTerminal : (∃ e, (untilTerminal tl).getLast? = some e ∧ e.value.isTerminal) ↔
    ∃ e ∈ tl, e.value.isTerminal := by
  induction tl with
  | nil => simp [untilTerminal]
  | cons x rest ih =>
    rw [untilTerminal]
    cases hx : x.value.isTerminal with
    | true => simp [hx]
    | false =>
      simp only [Bool.false_eq_true, ↓reduceIte, List.mem_cons, exists_eq_or_imp, hx,
        false_or, ← ih]
      cases hrest : untilTerminal rest with
      | nil => simp [hx]
      | cons y tail => simp [List.getLast?_cons_cons]

end Timeline

/-! ### One recorder -/

namespace Recorder

variable {row : Recorder α}

/-- What a visit does to a recorder. -/
def visit (row : Recorder α) : Visit α → Recorder α
  | .heard e => row.record e.time e.value
  | .stopped => row.detach

/-- What several visits do, one after the other. -/
def visits (row : Recorder α) (vs : List (Visit α)) : Recorder α := vs.foldl visit row

/-- A recorder apart from the subscription it holds. -/
def bare (row : Recorder α) : Recorder α := { row with held := none }

theorem fields_of_bare {row' : Recorder α} (h : row'.bare = row.bare) :
    row'.state = row.state ∧ row'.messages = row.messages := by
  simp only [bare, mk.injEq] at h
  exact ⟨h.2.1, h.2.2.1⟩

/-- Once it listens no more, nothing that happens to a recorder changes it. -/
theorem visit_of_ne (h : row.state ≠ .listening) (v : Visit α) : row.visit v = row := by
  cases v with
  | heard e => exact if_neg h
  | stopped => exact if_neg h

theorem visits_of_ne (h : row.state ≠ .listening) (vs : List (Visit α)) : row.visits vs = row := by
  induction vs with
  | nil => rfl
  | cons v rest ih =>
    rw [visits, List.foldl_cons, visit_of_ne h]
    exact ih

theorem visits_concat (row : Recorder α) (vs : List (Visit α)) (v : Visit α) :
    row.visits (vs ++ [v]) = (row.visits vs).visit v := by
  simp [visits]

theorem bare_visit (row : Recorder α) (v : Visit α) : (row.visit v).bare = row.bare.visit v := by
  by_cases h : row.state = .listening
  · cases v <;> simp [visit, record, detach, bare, h]
  · have hbare : row.bare.state ≠ .listening := h
    rw [visit_of_ne h, visit_of_ne hbare]

theorem clock_visits (row : Recorder α) (vs : List (Visit α)) :
    (row.visits vs).clock = row.clock := by
  induction vs generalizing row with
  | nil => rfl
  | cons v rest ih =>
    have hv : (row.visit v).clock = row.clock := by
      cases v with
      | heard e => exact row.record_clock e.time e.value
      | stopped => exact row.detach_clock
    exact (ih (row.visit v)).trans hv

theorem record_listening (h : row.state = .listening) (t : VirtualTime) {n : Signal α}
    (hn : n.isTerminal = false) : (row.record t n).state = .listening := by
  simp [record, h, hn]

theorem record_terminated (h : row.state = .listening) (t : VirtualTime) {n : Signal α}
    (hn : n.isTerminal) : (row.record t n).state = .terminated := by
  simp [record, h, hn]

theorem detach_detached (h : row.state = .listening) : row.detach.state = .detached := by
  simp [detach, h]

/-- What has been taken in is what has arrived in time. -/
theorem messages_visits (row : Recorder α) (vs : List (Visit α)) :
    (row.visits vs).messages.toList = row.outlook (early vs) := by
  induction vs generalizing row with
  | nil => exact row.outlook_nil.symm
  | cons v rest ih =>
    cases v with
    | heard e => exact (ih (row.record e.time e.value)).trans (row.outlook_record e.time e.value)
    | stopped =>
      have hover : row.detach.visits rest = row.detach := visits_of_ne row.detach_state rest
      change (row.detach.visits rest).messages.toList = row.outlook []
      rw [hover, ← outlook_nil, outlook_detach]

/-- What has come first decides in which state a recorder ends up. -/
theorem state_visits (h : row.state = .listening) (vs : List (Visit α)) :
    ((row.visits vs).state = .terminated ↔ ∃ e ∈ early vs, e.value.isTerminal) ∧
      ((row.visits vs).state = .detached ↔ StoppedFirst vs) := by
  induction vs generalizing row with
  | nil =>
    change (row.state = .terminated ↔ _) ∧ (row.state = .detached ↔ _)
    simp [h, early, Visit.not_stoppedFirst_nil]
  | cons v rest ih =>
    cases v with
    | heard e =>
      change (((row.record e.time e.value).visits rest).state = .terminated ↔ _) ∧
        (((row.record e.time e.value).visits rest).state = .detached ↔ _)
      rw [Visit.stoppedFirst_cons_heard]
      cases he : e.value.isTerminal with
      | true =>
        have hover := record_terminated h e.time he
        rw [visits_of_ne (by simp [hover]), hover]
        simp [early, he]
      | false =>
        simpa [early, he] using ih (record_listening h e.time he)
    | stopped =>
      have hover := detach_detached h
      change ((row.detach.visits rest).state = .terminated ↔ _) ∧
        ((row.detach.visits rest).state = .detached ↔ _)
      rw [visits_of_ne row.detach_state, hover]
      simp [early, Visit.stoppedFirst_cons_stopped]

/-- What a recorder has to show for what has happened to it, when its clock reads `now`: all that
arrived up to the first terminal, or until it was told to stop if that came first, with the times of
arrival. -/
structure Shows (row : Recorder α) (vs : List (Visit α)) (now : VirtualTime) : Prop where
  messages : row.messages.toList = Timeline.untilTerminal (early vs)
  ordered : row.messages.toList.Pairwise fun x y => x.time ≤ y.time
  past : ∀ e ∈ row.messages.toList, e.time ≤ now
  last : Timeline.IsWhole row.messages.toList
  terminated : row.state = .terminated ↔
    ∃ e, row.messages.toList.getLast? = some e ∧ e.value.isTerminal
  detached : row.state = .detached ↔ StoppedFirst vs

theorem shows_visits {c : ClockRef} {vs : List (Visit α)} {now : VirtualTime}
    (hordered : (vs.filterMap arrival?).Pairwise fun x y => x.time ≤ y.time)
    (hpast : ∀ e ∈ vs.filterMap arrival?, e.time ≤ now) :
    (visits { clock := c } vs).Shows vs now := by
  have hmessages : (visits { clock := c } vs).messages.toList = Timeline.untilTerminal (early vs) :=
    (messages_visits _ vs).trans (outlook_fresh c (early vs))
  have hsub : (Timeline.untilTerminal (early vs)).Sublist (vs.filterMap arrival?) :=
    ((Timeline.prefix_untilTerminal _).trans (Visit.prefix_early vs)).sublist
  have hfresh : ({ clock := c } : Recorder α).state = .listening := rfl
  obtain ⟨hterminated, hdetached⟩ := state_visits hfresh vs
  constructor
  case messages => exact hmessages
  case ordered =>
    rw [hmessages]
    exact hordered.sublist hsub
  case past =>
    rw [hmessages]
    intro e he
    exact hpast e (hsub.subset he)
  case last =>
    rw [hmessages]
    exact Timeline.isWhole_untilTerminal (early vs)
  case terminated => rw [hterminated, hmessages, Timeline.last_untilTerminal]
  case detached => exact hdetached

/-- What is shown does not depend on the subscription that is held. -/
theorem Shows.of_bare {vs : List (Visit α)} {now : VirtualTime} (h : row.bare.Shows vs now) :
    row.Shows vs now :=
  ⟨h.messages, h.ordered, h.past, h.last, h.terminated, h.detached⟩

end Recorder

/-! ### On a bench -/

namespace Bench

variable {b b' b₁ b₂ : Bench α σ} {r : RecorderRef} {c : ClockRef} {vs ws : List (Visit α)}
  {row : Recorder α}

/-- A recorder of a bench, apart from the subscription it holds. -/
def bare? (b : Bench α σ) (r : RecorderRef) : Option (Recorder α) :=
  (b.recorders.get? r).map (·.bare)

/-- Something happens to a recorder that goes by a clock. A notification that arrives does so at the
time the clock reads then. -/
inductive Visits (r : RecorderRef) (c : ClockRef) : Visit α → Bench α σ → Bench α σ → Prop
  | heard (b : Bench α σ) (n : Signal α) : Visits r c (.heard ⟨b.now c, n⟩) b (b.record r n)
  | stopped (b : Bench α σ) : Visits r c .stopped b (b.detach r)

/-- Any number of changes, with what happens to a recorder meanwhile, in order. -/
abbrev Visited (r : RecorderRef) (c : ClockRef) : Bench α σ → List (Visit α) → Bench α σ → Prop :=
  Recounted (Visits r c) fun b b' => b'.bare? r = b.bare? r

theorem bare?_modify (b : Bench α σ) (r r' : RecorderRef) {f : Recorder α → Recorder α}
    (hf : r' = r → ∀ row, (f row).bare = row.bare) :
    ({ b with recorders := b.recorders.modify r' f } : Bench α σ).bare? r = b.bare? r := by
  simp only [bare?, Table.get?_modify]
  split
  next hr =>
    rw [Option.map_map]
    congr 1
    funext row
    exact hf hr row
  · rfl

theorem bare?_addRecorder (hr : (b.recorders.get? r).isSome) (c : ClockRef) :
    (b.addRecorder c).2.bare? r = b.bare? r := by
  have hne : r ≠ b.recorders.next := by
    rintro rfl
    simp [Table.get?_next] at hr
  simp only [bare?, addRecorder, Table.get?_push, if_neg hne]

/-- One change is something that happens to a recorder, or it leaves the recorder alone. -/
theorem Change.visited (h : Change b b') (hr : (b.recorders.get? r).isSome) (c : ClockRef) :
    ∃ vs, Visited r c b vs b' := by
  have hchange := h
  cases h with
  | plain h =>
    cases h with
    | record r' n =>
      by_cases hsame : r' = r
      · subst hsame
        exact ⟨_, .one (.heard b n)⟩
      · exact ⟨[], .nothing hchange (bare?_modify b r r' fun h => absurd h hsame)⟩
    | detach r' =>
      by_cases hsame : r' = r
      · subst hsame
        exact ⟨_, .one (.stopped b)⟩
      · exact ⟨[], .nothing hchange (bare?_modify b r r' fun h => absurd h hsame)⟩
    | hold r' s => exact ⟨[], .nothing hchange (bare?_modify b r r' fun _ _ => rfl)⟩
    | addRecorder c' => exact ⟨[], .nothing hchange (bare?_addRecorder hr c')⟩
    | start h =>
      obtain ⟨clocks, log, rfl⟩ := next?_rest h
      exact ⟨[], .nothing hchange rfl⟩
    | addSource temperature c' events =>
      refine ⟨[], .nothing hchange ?_⟩
      rw [bare?, (b.addSource_fields temperature c' events).1, bare?]
    | attach s o =>
      refine ⟨[], .nothing hchange ?_⟩
      rw [bare?, attach_recorders, bare?]
    | register s t a =>
      refine ⟨[], .nothing hchange ?_⟩
      rw [Bench.register]
      split <;> rfl
    | _ => exact ⟨[], .nothing hchange rfl⟩
  | _ => exact ⟨[], .nothing hchange rfl⟩

theorem isSome_of_bare? (h : b'.bare? r = b.bare? r) (hr : (b.recorders.get? r).isSome) :
    (b'.recorders.get? r).isSome := by
  have hsome := congrArg Option.isSome h
  simp only [bare?, Option.isSome_map] at hsome
  rw [hsome, hr]

theorem Visits.isSome {v : Visit α} (h : Visits r c v b b') (hr : (b.recorders.get? r).isSome) :
    (b'.recorders.get? r).isSome := by
  cases h with
  | heard n => rwa [record, Table.isSome_get?_modify]
  | stopped => rwa [detach, Table.isSome_get?_modify]

/-- Whatever is done, it is something that happens to a recorder, time and again, and changes that
leave it alone. -/
theorem Reaches.visited (h : Reaches b b') (hr : (b.recorders.get? r).isSome) (c : ClockRef) :
    ∃ vs, Visited r c b vs b' :=
  h.recounted (P := fun b => (b.recorders.get? r).isSome) Visits.isSome isSome_of_bare?
    (fun hchange hr => hchange.visited hr c) hr

/-- A recorder becomes what a visit makes of it. -/
theorem Visits.bare {v : Visit α} (h : Visits r c v b b') (hrow : b.bare? r = some row)
    (hclock : row.clock = c) : b'.bare? r = some (row.visit v) := by
  obtain ⟨row₁, hrow₁, rfl⟩ := Option.map_eq_some_iff.mp hrow
  cases h with
  | heard n =>
    simp only [bare?, record, Table.get?_modify, if_pos, hrow₁, Option.map_some]
    rw [← hclock, ← row₁.bare_visit]
    rfl
  | stopped =>
    simp only [bare?, detach, Table.get?_modify, if_pos, hrow₁, Option.map_some]
    rw [← row₁.bare_visit]
    rfl

theorem Visited.bare (h : Visited r c b vs b') (hrow : b.bare? r = some row)
    (hclock : row.clock = c) : b'.bare? r = some (row.visits vs) := by
  induction h with
  | refl => exact hrow
  | @tell _ _ vs v _ hv ih =>
    rw [hv.bare ih ((row.clock_visits vs).trans hclock), Recorder.visits_concat]
  | aside _ haside ih => rw [haside.2, ih]

/-- Arrivals are told in the order of their times, and none of them is yet to come. -/
theorem Visited.ordered (h : Visited r c b vs b') :
    (vs.filterMap arrival?).Pairwise (fun x y => x.time ≤ y.time) ∧
      ∀ e ∈ vs.filterMap arrival?, e.time ≤ b'.now c := by
  induction h with
  | refl => exact ⟨.nil, by simp⟩
  | @tell b₁ _ vs v _ hv ih =>
    obtain ⟨hordered, hpast⟩ := ih
    rw [List.filterMap_append]
    cases hv with
    | heard n =>
      constructor
      · refine List.pairwise_append.mpr ⟨hordered, List.pairwise_singleton _ _, ?_⟩
        intro x hx y hy
        obtain rfl := List.mem_singleton.mp hy
        exact hpast x hx
      · intro e he
        rcases List.mem_append.mp he with he | he
        · exact hpast e he
        · obtain rfl := List.mem_singleton.mp he
          exact le_refl (b₁.now c)
    | stopped =>
      rw [List.filterMap_cons, arrival?, List.filterMap_nil, List.append_nil]
      exact ⟨hordered, hpast⟩
  | aside _ haside ih =>
    exact ⟨ih.1, fun e he => le_trans (ih.2 e he) (haside.1.follows.now_le c)⟩

/-- A new recorder shows what has happened to it since. -/
theorem Visited.shows (h : Visited b.recorders.next c (b.addRecorder c).2 vs b') :
    ∃ row, b'.recorders.get? b.recorders.next = some row ∧ row.Shows vs (b'.now c) := by
  have hfresh : (b.addRecorder c).2.bare? b.recorders.next = some { clock := c } := by
    simp only [bare?, addRecorder, Table.get?_push, if_pos, Option.map_some]
    rfl
  obtain ⟨row, hrow, hbare⟩ := Option.map_eq_some_iff.mp (h.bare hfresh rfl)
  obtain ⟨hordered, hpast⟩ := h.ordered
  have hshows : row.bare.Shows vs (b'.now c) := hbare ▸ Recorder.shows_visits hordered hpast
  exact ⟨row, hrow, hshows.of_bare⟩

/-- What a recorder that listens no more has to show is final. -/
theorem Reaches.final (h : Reaches b b') (hrow : b.recorders.get? r = some row)
    (hover : row.state ≠ .listening) :
    ∃ row', b'.recorders.get? r = some row' ∧ row'.state = row.state ∧
      row'.messages = row.messages := by
  obtain ⟨vs, hvisited⟩ := h.visited (r := r) (by simp [hrow]) row.clock
  have hbare : b.bare? r = some row.bare := by rw [bare?, hrow, Option.map_some]
  have hstate : row.bare.state ≠ .listening := hover
  have hkept : row.bare.visits vs = row.bare := Recorder.visits_of_ne hstate vs
  obtain ⟨row', hrow', hsame⟩ := Option.map_eq_some_iff.mp (hvisited.bare hbare rfl)
  exact ⟨row', hrow', Recorder.fields_of_bare (hsame.trans hkept)⟩

/-! ### Who visits -/

/-- What stages leave behind is nothing that happens to a recorder. -/
theorem visited_pass (b : Bench α σ) (stages : List (Stage α)) (n : Signal α) :
    Visited r c b [] (b.pass stages n).2 := by
  have hwitness (b : Bench α σ) (stage : Stage α) (n : Signal α) :
      Visited r c b [] (b.witness stage n) := by
    cases stage with
    | inspect name => exact .nothing (.plain (.note b (.inspected name n) rfl)) rfl
    | stamp p =>
      cases n with
      | next v => exact .nothing (.plain (.stamp b p)) rfl
      | _ => exact .refl b
    | _ => exact .refl b
  induction stages generalizing b n with
  | nil => exact .refl b
  | cons stage rest ih =>
    rw [Bench.pass]
    split
    · exact hwitness b stage n
    · exact (hwitness b stage n).trans (ih _ _)

/-- A notification that an observer hands on arrives as its stages leave it, if they do. -/
theorem visited_receive (b : Bench α σ) (stages : List (Stage α)) (n : Signal α) :
    Visited r c b ((Stage.through stages n).toList.map fun m => .heard ⟨b.now c, m⟩)
      (b.receive ⟨stages, .recorder r⟩ n) := by
  have hpassed : Visited r c b [] (b.pass stages n).2 := visited_pass b stages n
  obtain ⟨probes, hpass, -⟩ := b.pass_eq stages n
  rw [receive, hpass]
  rw [hpass] at hpassed
  cases Stage.through stages n with
  | none => exact hpassed
  | some m =>
    have hheard := Visits.heard (r := r) (c := c)
      { b with log := b.log ++ (Stage.marks stages n).toArray, probes } m
    exact hpassed.tell hheard

/-- Notifications that come straight to a recorder arrive in their order. -/
theorem visited_foldl_record (b : Bench α σ) (items : List (Signal α)) :
    Visited r c b (items.map fun n => .heard ⟨b.now c, n⟩)
      (items.foldl (fun b n => b.record r n) b) := by
  induction items generalizing b with
  | nil => exact .refl b
  | cons n rest ih => exact (Tracked.one (.heard b n)).trans (ih (b.record r n))

end Bench

namespace Scenario

open Bench

variable [Shown α]

/-- What holds of the recorders of a bench under an engine. -/
structure StampedPrefix (E : Engine α (Callback α)) : Prop where
  /-- All that scripts do with a recorder there is, each part of them, each command and each
  callback that they set off, is that notifications arrive and that it is told to stop, in any order
  and any number of times, with other changes in between, to clocks among others. -/
  comes {b : Bench α (Callback α)} {r : RecorderRef} (hr : (b.recorders.get? r).isSome)
    (c : ClockRef) :
    (∀ script, ∃ vs, Visited r c b vs (after E script b)) ∧
      (∀ script, ∃ vs, Visited r c b vs (runScript E script b).2) ∧
      (∀ command, ∃ vs, Visited r c b vs (perform E command b).2) ∧
      ∀ f, ∃ vs, Visited r c b vs (E.call f b).2
  /-- Whichever observer of the recorder gets a notification, it arrives there and then as its
  stages leave it, -/
  observer (b : Bench α (Callback α)) (r : RecorderRef) (c : ClockRef) (stages : List (Stage α))
    (n : Signal α) : ∃ b', E.notify ⟨stages, .recorder r⟩ n b = (.done (), b') ∧
      Visited r c b ((Stage.through stages n).toList.map fun m => .heard ⟨b.now c, m⟩) b'
  /-- and so does what comes straight to it. -/
  notify {b : Bench α (Callback α)} {r : RecorderRef} {name : String} (c : ClockRef)
    (items : List (Signal α)) (hname : b.names.recorders.lookup name = some r) :
    Visited r c b (items.map fun n => .heard ⟨b.now c, n⟩) (perform E (.notify name items) b).2
  /-- To detach it is to tell it to stop. -/
  detach {b : Bench α (Callback α)} {r : RecorderRef} {name : String} (c : ClockRef)
    (hname : b.names.recorders.lookup name = some r) :
    Visited r c b [.stopped] (perform E (.detach name) b).2
  /-- Whatever has happened to a recorder since it was made, it shows that and nothing else. -/
  shows {b b' : Bench α (Callback α)} {c : ClockRef} {vs : List (Visit α)}
    (h : Visited b.recorders.next c (b.addRecorder c).2 vs b') :
    ∃ row, b'.recorders.get? b.recorders.next = some row ∧ row.Shows vs (b'.now c)
  /-- Once it listens no more, that is final. -/
  final {b b' : Bench α (Callback α)} {r : RecorderRef} {row : Recorder α} (h : Reaches b b')
    (hrow : b.recorders.get? r = some row) (hover : row.state ≠ .listening) :
    ∃ row', b'.recorders.get? r = some row' ∧ row'.state = row.state ∧ row'.messages = row.messages

/-- Through whichever observers notifications come, whenever it is told to stop and however clocks
move: a recorder keeps what arrived up to the first terminal, or until it was told to stop if that
came first, in order and with the times of arrival, and its state tells which of them came first. -/
theorem stampedPrefix (fuel : Nat) : StampedPrefix (Callback.engine (α := α) fuel) := by
  have hE := Callback.lawful_engine (α := α) fuel
  constructor
  case comes =>
    intro b r hr c
    refine ⟨fun script => ?_, fun script => ?_, fun command => ?_, fun f => ?_⟩
    · exact (reaches_after hE script b).visited hr c
    · exact Reaches.visited (respects_runScript (lawful_perform hE) script b) hr c
    · exact Reaches.visited (lawful_perform hE command b) hr c
    · exact Reaches.visited (hE f b) hr c
  case observer =>
    intro b r c stages n
    refine ⟨b.receive ⟨stages, .recorder r⟩ n, ?_, visited_receive b stages n⟩
    have hnobody : b.echoes ⟨stages, .recorder r⟩ n = [] := by
      rw [echoes]
      cases Stage.through stages n <;> rfl
    rw [Engine.notify_eq, hnobody]
    rfl
  case notify =>
    intro b r name c items hname
    rw [perform, Attempt.bind_ok (find_eq hname), Run.each_update]
    exact visited_foldl_record b items
  case detach =>
    intro b r name c hname
    rw [perform, Attempt.bind_ok (find_eq hname)]
    exact .one (.stopped b)
  case shows => exact fun h => h.shows
  case final => exact fun h hrow hover => h.final hrow hover

end Scenario

end Marble
