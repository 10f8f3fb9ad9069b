import Mathlib.Data.List.Perm.Basic
import Marble.Proofs.Stepwise

/-! A clock is driven until nothing is pending, while its actions queue further ones. As long as
only finitely many come of those that are queued, each of them runs exactly once, wherever they are
due. -/
namespace Marble

variable {α : Type}

mutual

/-- The actions that a command queues on a clock, each followed by those that it queues in turn. -/
def Command.offspring (names : Names α) (c : ClockRef) : Command α → List (Action α (Callback α))
  | .scheduleAt clock _ label script =>
    if names.clocks.lookup clock = some c then
      .invoke (.call (.action c label script)) :: scriptOffspring names c script
    else []
  | .scheduleAfter clock _ label script =>
    if names.clocks.lookup clock = some c then
      .invoke (.call (.action c label script)) :: scriptOffspring names c script
    else []
  | _ => []

def scriptOffspring (names : Names α) (c : ClockRef) :
    List (Command α) → List (Action α (Callback α))
  | [] => []
  | command :: rest => command.offspring names c ++ scriptOffspring names c rest

end

namespace Action

/-- The actions that come of one on a clock, without itself. -/
def offspring (names : Names α) (c : ClockRef) :
    Action α (Callback α) → List (Action α (Callback α))
  | .invoke (.call (.action _ _ script)) => scriptOffspring names c script
  | .invoke (.call (.script script)) => scriptOffspring names c script
  | _ => []

/-- The tree of an action: itself and all that come of it. -/
def lineage (names : Names α) (c : ClockRef) (a : Action α (Callback α)) :
    List (Action α (Callback α)) := a :: a.offspring names c

end Action

namespace Bench

variable {b b' b'' : Bench α (Callback α)} {c c' : ClockRef} {a : Action α (Callback α)}
  {as as' : List (Action α (Callback α))}

/-- What is queued on a clock, with all that comes of it. -/
def lineage (c : ClockRef) (b : Bench α (Callback α)) : List (Action α (Callback α)) :=
  (b.clock c).queue.flatMap fun p => p.action.lineage b.names c

/-- The trees of some actions have been added to what is to run on a clock. -/
structure Adds (c : ClockRef) (as : List (Action α (Callback α))) (b b' : Bench α (Callback α)) :
    Prop where
  names : b'.names = b.names
  clock : (b.clocks.get? c).isSome → (b'.clocks.get? c).isSome
  lineage : (b.clocks.get? c).isSome → (b'.lineage c).Perm (b.lineage c ++ as)

theorem Adds.trans (h : Adds c as b b') (h' : Adds c as' b' b'') : Adds c (as ++ as') b b'' where
  names := h'.names.trans h.names
  clock hc := h'.clock (h.clock hc)
  lineage hc := by
    rw [← List.append_assoc]
    exact (h'.lineage (h.clock hc)).trans ((h.lineage hc).append_right as')

theorem adds_aside (c : ClockRef) (hclocks : b'.clocks = b.clocks) (hnames : b'.names = b.names) :
    Adds c [] b b' where
  names := hnames
  clock hc := by rwa [hclocks]
  lineage _ := by simp [Bench.lineage, Bench.clock, hclocks, hnames]

theorem adds_schedule (b : Bench α (Callback α)) (c : ClockRef) (due : VirtualTime)
    (a : Action α (Callback α)) : Adds c (a.lineage b.names c) b (b.schedule c due a) where
  names := rfl
  clock hc := by rwa [schedule, Table.isSome_get?_modify]
  lineage hc := by
    have hclock : (b.schedule c due a).clock c = (b.clock c).schedule due a := by
      rw [schedule, clock_modify, if_pos ⟨rfl, hc⟩]
    have hqueue := (Clock.perm_enqueue ⟨max due (b.clock c).now, (b.clock c).scheduled, a⟩
      (b.clock c).queue).flatMap_right fun p => p.action.lineage b.names c
    rw [Bench.lineage, hclock]
    exact hqueue.trans List.perm_append_comm

theorem adds_schedule_of_ne (b : Bench α (Callback α)) (hc : c' ≠ c) (due : VirtualTime)
    (a : Action α (Callback α)) : Adds c [] b (b.schedule c' due a) where
  names := rfl
  clock hc := by rwa [schedule, Table.isSome_get?_modify]
  lineage _ := by
    have hclock : (b.schedule c' due a).clock c = b.clock c := by
      rw [schedule, clock_modify, if_neg fun h => hc h.1]
    rw [Bench.lineage, hclock, List.append_nil]
    exact .refl _

/-- An action that a script queues brings its tree with it. -/
theorem adds_scheduled (b : Bench α (Callback α)) (c c' : ClockRef) (due : VirtualTime)
    (label : Json) (script : Script α) :
    Adds c (if some c' = some c then
        .invoke (.call (.action c label script)) :: scriptOffspring b.names c script else []) b
      (b.schedule c' due (.invoke (.call (.action c' label script)))) := by
  by_cases hc : c' = c
  · subst hc
    rw [if_pos rfl]
    exact adds_schedule b c' due _
  · rw [if_neg fun h => hc (Option.some.inj h)]
    exact adds_schedule_of_ne b hc due _

end Bench

namespace Scenario

open Bench

variable [Shown α] {E : Engine α (Callback α)} {b b₁ : Bench α (Callback α)} {c c' : ClockRef}
  {script rest : Script α} {command : Command α} {reply : Reply α}

theorem adds_cons (h : perform E command b = (.done (.ok reply), b₁))
    (hfirst : Adds c (command.offspring b.names c) b b₁)
    (hrest : ∀ b₂ : Bench α (Callback α), b₂.names = b.names →
      Adds c (scriptOffspring b.names c rest) b₂ (runScript E rest b₂).2) :
    Adds c (scriptOffspring b.names c (command :: rest)) b (runScript E (command :: rest) b).2 := by
  have hnote : Adds c [] b₁ (b₁.note (.performed command.name (.ok reply))) :=
    adds_aside c rfl rfl
  rw [runScript_cons h, scriptOffspring]
  exact hfirst.trans (hnote.trans (hrest _ (hnote.names.trans hfirst.names)))

/-- A script that only schedules adds the trees of what it queues. -/
theorem adds_runScript (E : Engine α (Callback α)) (c : ClockRef) (h : Schedules b.names script) :
    Adds c (scriptOffspring b.names c script) b (runScript E script b).2 := by
  generalize hnames : b.names = names at h ⊢
  induction h generalizing b with
  | nil => exact adds_aside c rfl rfl
  | look hclock _ ih =>
    subst hnames
    obtain ⟨c', hc'⟩ := Option.isSome_iff_exists.mp hclock
    exact adds_cons (perform_clockText hc') (adds_aside c rfl rfl) fun _ => ih
  | @scheduleAt _ due label script _ hclock _ _ _ ih =>
    subst hnames
    obtain ⟨c', hc'⟩ := Option.isSome_iff_exists.mp hclock
    refine adds_cons (perform_scheduleAt due label script hc') ?_ fun _ => ih
    rw [Command.offspring, hc']
    exact adds_scheduled b c c' _ label script
  | @scheduleAfter _ delay label script _ hclock _ _ _ ih =>
    subst hnames
    obtain ⟨c', hc'⟩ := Option.isSome_iff_exists.mp hclock
    refine adds_cons (perform_scheduleAfter delay label script hc') ?_ fun _ => ih
    rw [Command.offspring, hc']
    exact adds_scheduled b c c' _ label script

end Scenario

namespace Engine

open Bench

section

variable {σ : Type} {E : Engine α σ} {b b' : Bench α σ} {c : ClockRef} {limit : VirtualTime}
  {ran : List (Pending (Action α σ))} {n : Nat}

/-- A clock that its actions do not drive reads when the last of them was due. -/
theorem Runs.reading (hE : E.Lawful) (hb : b.Lived) (hcalm : E.Calm c limit n b)
    (h : E.Runs c limit b ran b') : b'.now c = (ran.getLast?.map Pending.due).getD (b.now c) := by
  cases h with
  | rest => rfl
  | @turn ran p _ b₁ b₂ _ hruns hqueue hnext hrun =>
    obtain ⟨b₃, hrun', hundriven⟩ := (hcalm ran b₁ hruns).2 _ b₂ hnext
    obtain rfl : b' = b₃ := congrArg Prod.snd (hrun.symm.trans hrun')
    obtain ⟨q, _, k, hqueue', -, -, -, hnow, -, hk⟩ := (hb.reaches (hruns.respects hE)).next? hnext
    obtain rfl : p = q := (List.cons.inj (hqueue.symm.trans hqueue')).1
    calc b'.now c = b₂.now c := hundriven.now
      _ = k.now := congrArg Clock.now hk
      _ = p.due := hnow
      _ = _ := by simp

/-- The actions of a run start in order, and none of them twice. -/
theorem Runs.once (hE : E.Lawful) (hb : b.Lived) (hc : (b.clocks.get? c).isSome)
    (hcalm : E.Calm c limit n b) (h : E.Runs c limit b ran b') :
    (ran.map Pending.rank).Pairwise Before ∧ (ran.map Pending.sequence).Nodup ∧
      (b'.clock c).dispatched = (b.clock c).dispatched + ran.length := by
  obtain ⟨k, hk⟩ := Option.isSome_iff_exists.mp hc
  obtain ⟨k', evs, hk', htrace, rfl, -⟩ :=
    h.trace (fun f b => (hE f b).follows) hcalm hk
  obtain ⟨before, hbefore⟩ := hb.history c
  rw [clock_eq hk] at hbefore ⊢
  have haccounts := (hbefore.trans htrace).accounts
  have hstarts : evs.filterMap ClockEvent.start? =
      (evs.filterMap ClockEvent.started?).map Pending.rank := by
    rw [List.map_filterMap]
    congr 1
    funext e
    cases e <;> rfl
  have hnodup := haccounts.nodup
  have hsorted := haccounts.sorted
  rw [List.filterMap_append, hstarts] at hnodup hsorted
  refine ⟨(List.pairwise_append.mp hsorted).2.1, ?_, by rw [clock_eq hk', htrace.dispatched]⟩
  rw [List.map_append, List.map_map] at hnodup
  exact (List.nodup_append.mp hnodup).2.1

end

variable [Shown α] {b b' b₁ : Bench α (Callback α)} {c : ClockRef} {limit : VirtualTime}
  {a : Action α (Callback α)} {fuel n : Nat} {ran : List (Pending (Action α (Callback α)))}

/-- An errand adds the trees of what it queues. -/
theorem adds_perform (fuel : Nat) (c : ClockRef) (h : a.Errand b.names) :
    Adds c (a.offspring b.names c) b ((Callback.engine (fuel + 1)).perform a b).2 := by
  cases h with
  | @action c' label script h =>
    have hnote : Adds c [] b (b.note (.ran label (b.now c'))) := adds_aside c rfl rfl
    rw [perform, invoke, fire_snd]
    exact hnote.trans (Scenario.adds_runScript (b := b.note _) (Callback.engine fuel) c h)
  | script h =>
    rw [perform, invoke, fire_snd]
    exact Scenario.adds_runScript (Callback.engine fuel) c h
  | note payload => exact adds_aside c rfl rfl
  | stamp p => exact adds_aside c rfl rfl

/-- A turn takes one action away from what is to run, and puts in the trees that come of it. -/
theorem lineage_turn (fuel : Nat) (hc : (b.clocks.get? c).isSome) (h : b.Errands c)
    (hnext : b.next? c limit = some (a, b₁)) :
    Adds c (a.offspring b.names c) b₁ ((Callback.engine (fuel + 1)).perform a b₁).2 ∧
      b₁.names = b.names ∧ (b₁.clocks.get? c).isSome ∧
      (a.lineage b.names c ++ b₁.lineage c).Perm (b.lineage c) := by
  obtain ⟨p, k, hstart, rfl, hk, -, -⟩ := clock_next? hnext
  obtain ⟨rest, hqueue, -, rfl⟩ := Clock.next?_eq_some hstart
  have hnames : b₁.names = b.names := names_next? hnext
  have hreaches : Reaches b b₁ := (Change.plain (.start hnext)).reaches
  refine ⟨hnames ▸ adds_perform fuel c (h.next? hnext), hnames, hreaches.clocks_isSome hc, ?_⟩
  rw [Bench.lineage, Bench.lineage, hk, hqueue, hnames]
  exact .refl _

/-- What has run and what is still to run are the trees that were there at the start. -/
theorem Runs.lineage (hc : (b.clocks.get? c).isSome) (h : b.Errands c)
    (hruns : (Callback.engine (fuel + 1)).Runs c limit b ran b') :
    b'.Errands c ∧ b'.names = b.names ∧ (b'.clocks.get? c).isSome ∧
      (ran.map Pending.action ++ b'.lineage c).Perm (b.lineage c) := by
  induction hruns with
  | rest => exact ⟨h, rfl, hc, .refl _⟩
  | @turn ran p _ b₁ b₂ b₃ _ _ hnext hrun ih =>
    obtain ⟨herrands, hnames, hclock, hperm⟩ := ih
    obtain ⟨b₃', hrun', -, herrands', -⟩ := errands_turn fuel herrands hnext
    obtain rfl : b₃ = b₃' := congrArg Prod.snd (hrun.symm.trans hrun')
    obtain ⟨hadds, hnames₂, hclock₂, hperm₂⟩ := lineage_turn fuel hclock herrands hnext
    rw [hrun] at hadds
    refine ⟨herrands', hadds.names.trans (hnames₂.trans hnames), hadds.clock hclock₂, ?_⟩
    have hadded : (b₃.lineage c).Perm (p.action.offspring b₁.names c ++ b₂.lineage c) :=
      (hadds.lineage hclock₂).trans List.perm_append_comm
    rw [List.map_append, List.append_assoc]
    exact (((hadded.cons p.action).trans hperm₂).append_left _).trans hperm

/-- A clock with errands is not driven by them, and all of them get done. -/
theorem calm_lineage (hc : (b.clocks.get? c).isSome) (h : b.Errands c)
    (hfuel : (b.lineage c).length < n) : (Callback.engine (fuel + 1)).Calm c limit n b := by
  intro ran b₁ hruns
  obtain ⟨herrands, -, -, hperm⟩ := hruns.lineage hc h
  have hcount := hperm.length_eq
  rw [List.length_append, List.length_map] at hcount
  refine ⟨by omega, fun a b₂ hnext => ?_⟩
  obtain ⟨b₃, hrun, hundriven, -⟩ := errands_turn fuel herrands hnext
  exact ⟨b₃, hrun, hundriven⟩

/-- A clock has been driven until nothing was pending, by running some actions. -/
structure Drained {σ : Type} (E : Engine α σ) (c : ClockRef) (trees : List (Action α σ))
    (b : Bench α σ) (ran : List (Pending (Action α σ))) (b' : Bench α σ) : Prop where
  /-- The call comes to its end: -/
  done : E.runUntilIdle c b = (.done (), b')
  /-- actions start one after the other, and each gets done, -/
  turns : E.Runs c .never b ran b'
  /-- until nothing is pending. -/
  idle : (b'.clock c).queue = []
  /-- What has run is what stood in the trees, as often as it stood there, -/
  all : (ran.map Pending.action).Perm trees
  /-- in the order in which it was due, with nothing that was queued once started twice. -/
  ordered : (ran.map Pending.rank).Pairwise Before
  once : (ran.map Pending.sequence).Nodup
  counted : (b'.clock c).dispatched = (b.clock c).dispatched + trees.length
  /-- The clock reads when the last action was due, or what it did if there was none. -/
  reading : b'.now c = (ran.getLast?.map Pending.due).getD (b.now c)

/-- A clock on which nothing is queued but actions that queue others, finitely many in all, can be
driven until nothing is pending: each action of all their trees runs exactly once. -/
theorem runUntilIdle_drained (hb : b.Lived) (hc : (b.clocks.get? c).isSome) (h : b.Errands c)
    (hfuel : (b.lineage c).length < fuel) :
    ∃ ran b', Drained (Callback.engine fuel) c (b.lineage c) b ran b' := by
  obtain ⟨fuel, rfl⟩ := Nat.exists_eq_add_one_of_ne_zero (Nat.ne_zero_of_lt hfuel)
  have hE : (Callback.engine (fuel + 1) : Engine α (Callback α)).Lawful := Callback.lawful_engine _
  have hcalm : (Callback.engine (fuel + 1)).Calm c .never (fuel + 1) b := calm_lineage hc h hfuel
  obtain ⟨ran, b', hruns, hdone⟩ := EachTurn.drain (R := Undriven c) hcalm
  have hidle : (b'.clock c).queue = [] := by
    have hnone := clock_next?_eq_none (next?_of_drainWith hdone)
    rcases Clock.next?_eq_none hnone with hq | ⟨p, _, -, hlt⟩
    · exact hq
    · exact absurd (VirtualTime.le_never p.due) (not_le.mpr hlt)
  obtain ⟨-, -, -, hperm⟩ := hruns.lineage hc h
  have hall : (ran.map Pending.action).Perm (b.lineage c) := by
    simpa [Bench.lineage, hidle] using hperm
  obtain ⟨hordered, honce, hcount⟩ := hruns.once hE hb hc hcalm
  refine ⟨ran, b', hdone, hruns, hidle, hall, hordered, honce, ?_, hruns.reading hE hb hcalm⟩
  rw [hcount, ← hall.length_eq, List.length_map]

end Engine

namespace Scenario

open Bench

/-- A clock that is already late, with an action that queues one for an instant that is past, which
queues one for later in turn. Another action is due in between. -/
def branching : Bench Int64 (Callback Int64) :=
  ((fresh.park ⟨0⟩ (.clamp 2)).schedule ⟨0⟩ (.clamp 1) (.invoke (.call (.action ⟨0⟩ (.string "x")
    [.scheduleAt "main" .zero (.string "y") [.scheduleAfter "main" (.clamp 3) (.string "z") []]])))
  ).schedule ⟨0⟩ (.clamp 4) (.invoke (.call (.action ⟨0⟩ (.string "w") [])))

theorem runUntilIdle_drained_branching :
    (branching.lineage ⟨0⟩).length = 4 ∧
      ∃ ran b', (Callback.engine 5).Drained ⟨0⟩ (branching.lineage ⟨0⟩) branching ran b' := by
  refine ⟨rfl, Engine.runUntilIdle_drained (lived_fresh.reaches ?_) rfl ?_ (by decide)⟩
  · exact ((Change.plain (.park rfl)).reaches.tail (.plain (.schedule _ _ _ rfl))).tail
      (.plain (.schedule _ _ _ rfl))
  · intro p hp
    rcases List.mem_cons.mp hp with rfl | hp
    · exact .action _ _ (.scheduleAt rfl (.scheduleAfter rfl .nil .nil) .nil)
    · obtain rfl := List.mem_singleton.mp hp
      exact .action _ _ .nil

end Scenario

end Marble
