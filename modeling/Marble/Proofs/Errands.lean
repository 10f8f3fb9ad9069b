import Mathlib.Data.List.Perm.Basic
import Marble.Proofs.ColdRuns
import Marble.Proofs.Ending

/-! Actions that at most take notes and queue further actions of the same kind. A clock with nothing
else in its queue is not driven by its actions, and comes to rest once they have all run. -/
namespace Marble

variable {α : Type}

mutual

/-- How many actions come of a command that queues one: the action itself and those it leads to. -/
def Command.errands : Command α → Nat
  | .scheduleAt _ _ _ script => scriptErrands script + 1
  | .scheduleAfter _ _ _ script => scriptErrands script + 1
  | _ => 0

def scriptErrands : List (Command α) → Nat
  | [] => 0
  | command :: rest => command.errands + scriptErrands rest

end

/-- Scripts that do nothing but look at clocks and queue actions that carry out such scripts. The
clocks they name are there. -/
inductive Schedules (names : Names α) : Script α → Prop
  | nil : Schedules names []
  | look {clock : String} {rest : Script α} (hclock : (names.clocks.lookup clock).isSome)
    (hrest : Schedules names rest) : Schedules names (.clockText clock :: rest)
  | scheduleAt {clock : String} {due : VirtualTime} {label : Json} {script rest : Script α}
    (hclock : (names.clocks.lookup clock).isSome) (hscript : Schedules names script)
    (hrest : Schedules names rest) : Schedules names (.scheduleAt clock due label script :: rest)
  | scheduleAfter {clock : String} {delay : VirtualTime} {label : Json} {script rest : Script α}
    (hclock : (names.clocks.lookup clock).isSome) (hscript : Schedules names script)
    (hrest : Schedules names rest) :
    Schedules names (.scheduleAfter clock delay label script :: rest)

namespace Action

/-- How many actions come of one, itself included. -/
def errands : Action α (Callback α) → Nat
  | .invoke (.call (.action _ _ script)) => scriptErrands script + 1
  | .invoke (.call (.script script)) => scriptErrands script + 1
  | _ => 1

/-- Actions that take a note, stamp a probe, or carry out a script that only schedules. -/
inductive Errand (names : Names α) : Action α (Callback α) → Prop
  | action (c : ClockRef) (label : Json) {script : Script α} (h : Schedules names script) :
    Errand names (.invoke (.call (.action c label script)))
  | script {script : Script α} (h : Schedules names script) :
    Errand names (.invoke (.call (.script script)))
  | note (payload : Json) : Errand names (.invoke (.call (.note payload)))
  | stamp (p : ProbeRef) : Errand names (.invoke (.stamp p))

end Action

namespace Clock

/-- How many actions come of those that are queued. -/
def load (k : Clock (Action α (Callback α))) : Nat :=
  k.queue.foldr (fun p n => p.action.errands + n) 0

theorem load_schedule (k : Clock (Action α (Callback α))) (due : VirtualTime)
    (a : Action α (Callback α)) : (k.schedule due a).load = k.load + a.errands := by
  have hcomm : LeftCommutative
      fun (p : Pending (Action α (Callback α))) n => p.action.errands + n :=
    ⟨fun _ _ _ => Nat.add_left_comm _ _ _⟩
  calc (k.schedule due a).load
    _ = a.errands + k.load := (perm_enqueue ⟨max due k.now, k.scheduled, a⟩ k.queue).foldr_eq 0
    _ = k.load + a.errands := Nat.add_comm _ _

end Clock

namespace Bench

variable {b b' b'' : Bench α (Callback α)} {c : ClockRef} {limit : VirtualTime} {n m : Nat}
  {a : Action α (Callback α)} {script : Script α}

/-- Nothing but errands is queued on a clock. -/
def Errands (c : ClockRef) (b : Bench α (Callback α)) : Prop :=
  ∀ p ∈ (b.clock c).queue, p.action.Errand b.names

/-- A clock is not driven, and at most `n` errands and what comes of them are queued on it. -/
structure Sends (c : ClockRef) (n : Nat) (b b' : Bench α (Callback α)) : Prop where
  names : b'.names = b.names
  undriven : Undriven c b b'
  errands : b.Errands c → b'.Errands c
  load : (b'.clock c).load ≤ (b.clock c).load + n

theorem Sends.trans (h : Sends c n b b') (h' : Sends c m b' b'') : Sends c (n + m) b b'' where
  names := h'.names.trans h.names
  undriven := Eq.trans h'.undriven h.undriven
  errands hb := h'.errands (h.errands hb)
  load := Nat.le_trans h'.load (by have := h.load; omega)

/-- What leaves the clocks and the names alone sends nothing. -/
theorem sends_aside (c : ClockRef) (hclocks : b'.clocks = b.clocks) (hnames : b'.names = b.names) :
    Sends c 0 b b' := by
  have hclock : b'.clock c = b.clock c := by rw [clock, clock, hclocks]
  refine ⟨hnames, by rw [Undriven, hclocks], fun hb => ?_, by rw [hclock]; exact Nat.le_refl _⟩
  intro p hp
  rw [hclock] at hp
  rw [hnames]
  exact hb p hp

theorem sends_after_note {e : Entry α} (h : Sends c n (b.note e) b') : Sends c n b b' := by
  have hnote : Sends c 0 b (b.note e) := sends_aside c rfl rfl
  simpa using hnote.trans h

theorem sends_schedule (c' : ClockRef) (due : VirtualTime) (ha : a.Errand b.names) :
    Sends c a.errands b (b.schedule c' due a) := by
  have hclock : (b.schedule c' due a).clock c = b.clock c ∨
      (b.schedule c' due a).clock c = (b.clock c).schedule due a := by
    rw [schedule, clock_modify]
    split
    · exact Or.inr rfl
    · exact Or.inl rfl
  refine ⟨rfl, ?_, fun hb p hp => ?_, ?_⟩
  · rw [Undriven, schedule, Table.get?_modify]
    split
    · cases b.clocks.get? c <;> rfl
    · rfl
  · rcases hclock with hclock | hclock <;> rw [hclock] at hp
    · exact hb p hp
    · rcases Clock.mem_enqueue.mp hp with rfl | hp
      · exact ha
      · exact hb p hp
  · rcases hclock with hclock | hclock <;> rw [hclock]
    · exact Nat.le_add_right _ _
    · exact Nat.le_of_eq (Clock.load_schedule _ _ _)

theorem names_next? (h : b.next? c limit = some (a, b')) : b'.names = b.names := by
  obtain ⟨clocks, log, rfl⟩ := next?_rest h
  rfl

theorem Errands.next? (h : b.Errands c) (hnext : b.next? c limit = some (a, b')) :
    a.Errand b'.names := by
  obtain ⟨p, k, hstart, rfl, -⟩ := clock_next? hnext
  obtain ⟨rest, hqueue, -⟩ := Clock.next?_eq_some hstart
  exact (names_next? hnext).symm ▸ h p (by simp [hqueue])

end Bench

namespace Scenario

open Bench

variable {E : Engine α (Callback α)} {b : Bench α (Callback α)} {c c' : ClockRef} {clock : String}
  {script : Script α}

theorem find_eq {β : Type} {what : Names α → Option β} {x : β} (h : what b.names = some x) :
    (Task.find what : Task α β) b = (.done (.ok x), b) := by
  rw [Task.find, Attempt.read_bind, h]
  rfl

variable [Shown α]

theorem perform_clockText (h : b.names.clocks.lookup clock = some c') :
    perform E (.clockText clock) b = (.done (.ok (.text (b.clock c').text)), b) := by
  rw [perform, Task.clock, Attempt.bind_ok (find_eq h)]
  rfl

theorem perform_scheduleAt (due : VirtualTime) (label : Json) (script : Script α)
    (h : b.names.clocks.lookup clock = some c') :
    perform E (.scheduleAt clock due label script) b =
      (.done (.ok .nothing), b.schedule c' due (.invoke (.call (.action c' label script)))) := by
  rw [perform, Task.clock, Attempt.bind_ok (find_eq h)]
  rfl

theorem perform_scheduleAfter (delay : VirtualTime) (label : Json) (script : Script α)
    (h : b.names.clocks.lookup clock = some c') :
    perform E (.scheduleAfter clock delay label script) b = (.done (.ok .nothing),
      b.schedule c' (b.now c' + delay) (.invoke (.call (.action c' label script)))) := by
  rw [perform, Task.clock, Attempt.bind_ok (find_eq h), ← scheduleAfter_eq]
  rfl

/-- A command that gets done is noted, and the script goes on. -/
theorem runScript_cons {command : Command α} {reply : Reply α} {rest : Script α}
    {b₁ : Bench α (Callback α)} (h : perform E command b = (.done (.ok reply), b₁)) :
    runScript E (command :: rest) b =
      runScript E rest (b₁.note (.performed command.name (.ok reply))) := by
  rw [runScript, Attempt.bind_ok (Attempt.lift_done (m := (perform E command).result) h)]
  rfl

theorem sends_cons {command : Command α} {reply : Reply α} {rest : Script α}
    {b₁ : Bench α (Callback α)} {n m : Nat}
    (h : perform E command b = (.done (.ok reply), b₁)) (hfirst : Sends c n b b₁)
    (hrest : ∀ b₂ : Bench α (Callback α), b.names = b₂.names →
      ∃ b', runScript E rest b₂ = (.done (.ok ()), b') ∧ Sends c m b₂ b') :
    ∃ b', runScript E (command :: rest) b = (.done (.ok ()), b') ∧ Sends c (n + m) b b' := by
  obtain ⟨b', hrun, hsends⟩ :=
    hrest (b₁.note (.performed command.name (.ok reply))) hfirst.names.symm
  exact ⟨b', by rw [runScript_cons h, hrun], hfirst.trans (sends_after_note hsends)⟩

/-- A script that only schedules gets done. -/
theorem sends_runScript (c : ClockRef) (h : Schedules b.names script) :
    ∃ b', runScript E script b = (.done (.ok ()), b') ∧ Sends c (scriptErrands script) b b' := by
  generalize hnames : b.names = names at h
  induction h generalizing b with
  | nil => exact ⟨b, rfl, sends_aside c rfl rfl⟩
  | look hclock _ ih =>
    subst hnames
    obtain ⟨c', hc'⟩ := Option.isSome_iff_exists.mp hclock
    exact sends_cons (perform_clockText hc') (sends_aside c rfl rfl) fun _ hnames => ih hnames.symm
  | scheduleAt hclock hscript _ _ ih =>
    subst hnames
    obtain ⟨c', hc'⟩ := Option.isSome_iff_exists.mp hclock
    exact sends_cons (perform_scheduleAt _ _ _ hc') (sends_schedule c' _ (.action c' _ hscript))
      fun _ hnames => ih hnames.symm
  | scheduleAfter hclock hscript _ _ ih =>
    subst hnames
    obtain ⟨c', hc'⟩ := Option.isSome_iff_exists.mp hclock
    exact sends_cons (perform_scheduleAfter _ _ _ hc') (sends_schedule c' _ (.action c' _ hscript))
      fun _ hnames => ih hnames.symm

end Scenario

namespace Engine

open Bench

theorem fire_done {σ : Type} {E : Engine α σ} {f : σ} {b b' : Bench α σ}
    (h : E.call f b = (.done (.ok ()), b')) : E.fire f b = (.done (), b') := by
  rw [fire, Run.bind_done (m := (E.call f).result) h]
  rfl

variable [Shown α] {b b₁ : Bench α (Callback α)} {c : ClockRef} {limit : VirtualTime}
  {a : Action α (Callback α)} {fuel n : Nat}

/-- An errand gets done. -/
theorem sends_perform (fuel : Nat) (c : ClockRef) (h : a.Errand b.names) :
    ∃ b' n, (Callback.engine (fuel + 1)).perform a b = (.done (), b') ∧ n < a.errands ∧
      Sends c n b b' := by
  cases h with
  | @action c' label script h =>
    obtain ⟨b', hrun, hsends⟩ := Scenario.sends_runScript (E := Callback.engine fuel)
      (b := b.note (.ran label (b.now c'))) c h
    exact ⟨b', _, fire_done hrun, Nat.lt_succ_self _, sends_after_note hsends⟩
  | @script script h =>
    obtain ⟨b', hrun, hsends⟩ := Scenario.sends_runScript (E := Callback.engine fuel) c h
    exact ⟨b', _, fire_done hrun, Nat.lt_succ_self _, hsends⟩
  | note payload => exact ⟨_, 0, rfl, Nat.one_pos, sends_aside c rfl rfl⟩
  | stamp p => exact ⟨_, 0, rfl, Nat.one_pos, sends_aside c rfl rfl⟩

/-- A clock with errands takes its turn: the first gets done, and fewer are still to come. -/
theorem errands_turn (fuel : Nat) (h : b.Errands c) (hnext : b.next? c limit = some (a, b₁)) :
    ∃ b₂, (Callback.engine (fuel + 1)).perform a b₁ = (.done (), b₂) ∧ Undriven c b₁ b₂ ∧
      b₂.Errands c ∧ (b₂.clock c).load < (b.clock c).load := by
  obtain ⟨p, k, hstart, rfl, hk, -, -⟩ := clock_next? hnext
  obtain ⟨rest, hqueue, -, rfl⟩ := Clock.next?_eq_some hstart
  have hnames : b₁.names = b.names := names_next? hnext
  obtain ⟨b₂, n, hrun, hlt, hsends⟩ := sends_perform fuel c (h.next? hnext)
  refine ⟨b₂, hrun, hsends.undriven, hsends.errands fun q hq => ?_, ?_⟩
  · rw [hk] at hq
    exact hnames ▸ h q (by simp [hqueue, hq])
  · have hload := hsends.load
    simp only [hk, Clock.load, hqueue, List.foldr_cons] at hload ⊢
    omega

/-- Errands drive no clock, and come to an end. -/
theorem calm_errands (h : b.Errands c) (hload : (b.clock c).load < n) :
    (Callback.engine (fuel + 1)).Calm c limit n b := by
  -- By induction on the turns: what has run and what is still to come never exceed the first load.
  have hruns : ∀ ran b₁, (Callback.engine (fuel + 1)).Runs c limit b ran b₁ →
      b₁.Errands c ∧ ran.length + (b₁.clock c).load ≤ (b.clock c).load := by
    intro ran b₁ hruns
    induction hruns with
    | rest => exact ⟨h, by simp⟩
    | @turn _ p _ _ _ b₃ _ _ hnext hrun ih =>
      obtain ⟨herrands, hle⟩ := ih
      obtain ⟨b₄, hrun₄, -, herrands₄, hlt⟩ := errands_turn fuel herrands hnext
      obtain rfl : b₃ = b₄ := congrArg Prod.snd (hrun.symm.trans hrun₄)
      exact ⟨herrands₄, by simp only [List.length_append, List.length_singleton]; omega⟩
  intro ran b₁ hran
  obtain ⟨herrands, hle⟩ := hruns ran b₁ hran
  refine ⟨by omega, fun a b₂ hnext => ?_⟩
  obtain ⟨b₃, hrun, hundriven, -⟩ := errands_turn fuel herrands hnext
  exact ⟨b₃, hrun, hundriven⟩

end Engine

end Marble
