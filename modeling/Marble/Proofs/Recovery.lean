import Marble.Proofs.Stepwise

/-! An action that panics costs no more than what it had still to do. The clock has been moved to it
and it has been counted before it starts, so that an advance can be made again from where it left
off. -/
namespace Marble

variable {α : Type}

/-! ### Actions that panic -/

/-- Of all the actions that a script leads to, itself included, one panics, after any of its
commands. The second script is the same, but there that action returns. -/
inductive Breaks : Script α → Script α → Prop
  | here (message : String) (rest : Script α) : Breaks (.panic message :: rest) []
  | later (command : Command α) {rest rest' : Script α} (h : Breaks rest rest') :
    Breaks (command :: rest) (command :: rest')
  | scheduleAt (clock : String) (due : VirtualTime) (label : Json) (rest : Script α)
    {script script' : Script α} (h : Breaks script script') :
    Breaks (.scheduleAt clock due label script :: rest)
      (.scheduleAt clock due label script' :: rest)
  | scheduleAfter (clock : String) (delay : VirtualTime) (label : Json) (rest : Script α)
    {script script' : Script α} (h : Breaks script script') :
    Breaks (.scheduleAfter clock delay label script :: rest)
      (.scheduleAfter clock delay label script' :: rest)

namespace Action

/-- One of the actions that come of an action, itself included, panics, and returns in the second
one. -/
inductive Breaks : Action α (Callback α) → Action α (Callback α) → Prop
  | action (c : ClockRef) (label : Json) {script script' : Script α}
    (h : Marble.Breaks script script') :
    Breaks (.invoke (.call (.action c label script))) (.invoke (.call (.action c label script')))
  | script {script script' : Script α} (h : Marble.Breaks script script') :
    Breaks (.invoke (.call (.script script))) (.invoke (.call (.script script')))

end Action

namespace Clock

variable {p : Pending (Action α (Callback α))} {a' : Action α (Callback α)}
  {ps ps' : List (Pending (Action α (Callback α)))}

/-- Two queues are the same, but for at most one action that breaks off where it returns in the
second. -/
inductive Breaks : List (Pending (Action α (Callback α))) →
    List (Pending (Action α (Callback α))) → Prop
  | same (ps : List (Pending (Action α (Callback α)))) : Breaks ps ps
  | here (p : Pending (Action α (Callback α))) {a' : Action α (Callback α)} (h : p.action.Breaks a')
    (ps : List (Pending (Action α (Callback α)))) : Breaks (p :: ps) ({ p with action := a' } :: ps)
  | later (p : Pending (Action α (Callback α))) {ps ps' : List (Pending (Action α (Callback α)))}
    (h : Breaks ps ps') : Breaks (p :: ps) (p :: ps')

theorem Breaks.length_eq (h : Breaks ps ps') : ps'.length = ps.length := by
  induction h with
  | same ps => rfl
  | here p h ps => rfl
  | later p h ih => rw [List.length_cons, ih, List.length_cons]

/-- The text of a clock tells how much is pending, and not what. -/
theorem text_congr {k : Clock (Action α (Callback α))} (h : ps.length = k.queue.length) :
    ({ k with queue := ps } : Clock (Action α (Callback α))).text = k.text := by
  have hpending : ({ k with queue := ps } : Clock (Action α (Callback α))).pending = k.pending := h
  unfold text
  rw [hpending]

/-- What is first on both clocks starts on both; either nothing else differs then, or it does
itself. -/
theorem Breaks.next? {k : Clock (Action α (Callback α))} (h : Breaks k.queue ps)
    (limit : VirtualTime) :
    (k.next? limit = none ∧
        ({ k with queue := ps } : Clock (Action α (Callback α))).next? limit = none) ∨
      ∃ p a' k₁ k₁', k.next? limit = some (p, k₁) ∧
        ({ k with queue := ps } : Clock (Action α (Callback α))).next? limit =
          some ({ p with action := a' }, k₁') ∧
        (a' = p.action ∧ (∃ rest, Breaks k₁.queue rest ∧ k₁' = { k₁ with queue := rest }) ∨
          p.action.Breaks a' ∧ k₁' = k₁) := by
  obtain ⟨now, scheduled, dispatched, queue⟩ := k
  cases h with
  | same =>
    cases hn :
        (⟨now, scheduled, dispatched, queue⟩ : Clock (Action α (Callback α))).next? limit with
    | none => exact .inl ⟨rfl, rfl⟩
    | some next => exact .inr ⟨next.1, _, next.2, next.2, rfl, rfl, .inl ⟨rfl, _, .same _, rfl⟩⟩
  | here p hbreaks rest =>
    by_cases hdue : p.due ≤ limit
    · exact .inr ⟨p, _, _, _, if_pos hdue, if_pos hdue, .inr ⟨hbreaks, rfl⟩⟩
    · exact .inl ⟨if_neg hdue, if_neg hdue⟩
  | later p hrest =>
    by_cases hdue : p.due ≤ limit
    · exact .inr ⟨p, _, _, _, if_pos hdue, if_pos hdue, .inl ⟨rfl, _, hrest, rfl⟩⟩
    · exact .inl ⟨if_neg hdue, if_neg hdue⟩

theorem Breaks.enqueue (h : Breaks ps ps') (p : Pending (Action α (Callback α))) :
    Breaks (enqueue p ps) (enqueue p ps') := by
  induction h with
  | same ps => exact .same _
  | here q h ps =>
    simp only [Clock.enqueue]
    split
    · exact .here q h _
    · exact .later p (.here q h ps)
  | later q h ih =>
    simp only [Clock.enqueue]
    split
    · exact .later q ih
    · exact .later p (.later q h)

/-- It makes no difference to the place of an action whether it panics. -/
theorem breaks_enqueue (h : p.action.Breaks a') (ps : List (Pending (Action α (Callback α)))) :
    Breaks (enqueue p ps) (enqueue { p with action := a' } ps) := by
  induction ps with
  | nil => exact .here p h []
  | cons q rest ih =>
    simp only [Clock.enqueue]
    split
    · exact .later q ih
    · exact .here p h (q :: rest)

end Clock

namespace Bench

variable {b b' : Bench α (Callback α)} {c d : ClockRef} {limit : VirtualTime}
  {a a' : Action α (Callback α)}
  {f g : Clock (Action α (Callback α)) → Clock (Action α (Callback α))}

/-- Two benches are the same, but for at most one action pending on a clock that breaks off where it
returns on the second. -/
structure BreaksAt (d : ClockRef) (b b' : Bench α (Callback α)) : Prop where
  here : ∃ queue, Clock.Breaks (b.clock d).queue queue ∧
    b'.clocks.get? d = (b.clocks.get? d).map fun k => { k with queue }
  others : ∀ c, c ≠ d → b'.clocks.get? c = b.clocks.get? c
  rest : ∃ clocks, b' = { b with clocks }

/-- Two benches are the same, but for at most one action that panics on the first and returns on the
second. -/
def Breaks (b b' : Bench α (Callback α)) : Prop := ∃ d, BreaksAt d b b'

theorem breaksAt_self (d : ClockRef) (b : Bench α (Callback α)) : BreaksAt d b b := by
  refine ⟨⟨_, .same _, ?_⟩, fun _ _ => rfl, b.clocks, rfl⟩
  cases hd : b.clocks.get? d <;> simp [clock, hd]

theorem Breaks.names (h : Breaks b b') : b'.names = b.names := by
  obtain ⟨d, -, -, clocks, rfl⟩ := h
  rfl

/-- A clock differs at most in its queue, which is as long. -/
theorem Breaks.clock (h : Breaks b b') (c : ClockRef) :
    ∃ queue, queue.length = (b.clock c).queue.length ∧ b'.clock c = { b.clock c with queue } := by
  obtain ⟨d, ⟨queue, hqueue, hd⟩, hothers, -⟩ := h
  by_cases hc : c = d
  · subst hc
    refine ⟨queue, hqueue.length_eq, ?_⟩
    rw [Bench.clock, hd]
    cases hrow : b.clocks.get? c with
    | none =>
      have hnil : queue = [] := List.length_eq_zero_iff.mp (by
        simpa [Bench.clock, hrow] using hqueue.length_eq)
      simp [Bench.clock, hrow, hnil]
    | some k => simp [Bench.clock, hrow]
  · exact ⟨_, rfl, by rw [Bench.clock, hothers c hc, Bench.clock]⟩

theorem Breaks.now (h : Breaks b b') (c : ClockRef) : b'.now c = b.now c := by
  obtain ⟨queue, -, hc⟩ := h.clock c
  change (b'.clock c).now = (b.clock c).now
  rw [hc]

theorem Breaks.text (h : Breaks b b') (c : ClockRef) : (b'.clock c).text = (b.clock c).text := by
  obtain ⟨queue, hlength, hc⟩ := h.clock c
  exact (congrArg Clock.text hc).trans (Clock.text_congr hlength)

theorem Breaks.note (h : Breaks b b') (e : Entry α) : Breaks (b.note e) (b'.note e) := by
  obtain ⟨d, hhere, hothers, clocks, rfl⟩ := h
  exact ⟨d, hhere, hothers, clocks, rfl⟩

theorem Breaks.stamp (h : Breaks b b') (p : ProbeRef) : Breaks (b.stamp p) (b'.stamp p) := by
  have hnow : b'.now = b.now := funext h.now
  obtain ⟨d, hhere, hothers, clocks, rfl⟩ := h
  exact ⟨d, hhere, hothers, clocks, by simp only [Bench.stamp, hnow]⟩

/-- A clock is changed on both benches, alike but for the queue. -/
theorem BreaksAt.modify (h : BreaksAt d b b')
    (hhere : c = d → ∀ k queue, b.clocks.get? d = some k →
      b'.clocks.get? d = some { k with queue } → Clock.Breaks k.queue queue →
      ∃ queue', Clock.Breaks (f k).queue queue' ∧ g { k with queue } = { f k with queue := queue' })
    (hothers : c ≠ d → ∀ k, b.clocks.get? c = some k → g k = f k) :
    BreaksAt d { b with clocks := b.clocks.modify c f }
      { b' with clocks := b'.clocks.modify c g } := by
  obtain ⟨⟨queue, hqueue, hd⟩, hsame, clocks, rfl⟩ := h
  refine ⟨?_, fun c' hc' => ?_, _, rfl⟩
  · by_cases hc : c = d
    · subst hc
      cases hk : b.clocks.get? c with
      | none =>
        refine ⟨[], ?_, by simp [Table.get?_modify, hd, hk]⟩
        simpa [Bench.clock, Table.get?_modify, hk] using .same []
      | some k =>
        rw [hk, Option.map_some] at hd
        obtain ⟨queue', hqueue', heq⟩ :=
          hhere rfl k queue hk hd (by simpa [Bench.clock, hk] using hqueue)
        refine ⟨queue', by simpa [Bench.clock, Table.get?_modify, hk] using hqueue', ?_⟩
        simp [Table.get?_modify, hd, hk, heq]
    · refine ⟨queue, ?_, by simp [Table.get?_modify, hc, hd]⟩
      simpa [Bench.clock, Table.get?_modify, hc] using hqueue
  · rw [Table.get?_modify, Table.get?_modify, hsame c' hc']
    split
    next hc =>
      subst hc
      cases hk : b.clocks.get? c with
      | none => rfl
      | some k => simp [hothers hc' k hk]
    · rfl

theorem Breaks.schedule (h : Breaks b b') (c : ClockRef) (due : VirtualTime)
    (a : Action α (Callback α)) : Breaks (b.schedule c due a) (b'.schedule c due a) := by
  obtain ⟨d, h⟩ := h
  exact ⟨d, h.modify (fun _ k queue _ _ hqueue => ⟨_, hqueue.enqueue _, rfl⟩) fun _ _ _ => rfl⟩

theorem breaks_schedule (b : Bench α (Callback α)) (c : ClockRef) (due : VirtualTime)
    (h : a.Breaks a') : Breaks (b.schedule c due a) (b.schedule c due a') := by
  refine ⟨c, (breaksAt_self c b).modify (fun _ k queue hk hk' _ => ?_) fun hc => (hc rfl).elim⟩
  obtain rfl : k.queue = queue := congrArg Clock.queue (Option.some.inj (hk.symm.trans hk'))
  exact ⟨_, Clock.breaks_enqueue h _, rfl⟩

theorem Breaks.park (h : Breaks b b') (c : ClockRef) (target : VirtualTime) :
    Breaks (b.park c target) (b'.park c target) := by
  obtain ⟨d, h⟩ := h
  exact ⟨d, h.modify (fun _ k queue _ _ hqueue => ⟨_, hqueue, rfl⟩) fun _ _ _ => rfl⟩

/-- With another clock in place of those that differ, nothing does any more. -/
theorem BreaksAt.overwrite (h : BreaksAt d b b') (k : Clock (Action α (Callback α))) :
    ({ b' with clocks := b'.clocks.modify d fun _ => k } : Bench α (Callback α)) =
      { b with clocks := b.clocks.modify d fun _ => k } := by
  obtain ⟨⟨queue, -, hd⟩, hothers, clocks, rfl⟩ := h
  have hclocks : clocks.modify d (fun _ => k) = b.clocks.modify d fun _ => k := by
    refine Table.ext_get? fun c => ?_
    rw [Table.get?_modify, Table.get?_modify]
    split
    next hc =>
      subst hc
      rw [hd, Option.map_map]
      rfl
    next hc => exact hothers c (Ne.symm hc)
  rw [hclocks]

theorem next?_of_row {k k₁ : Clock (Action α (Callback α))} {p : Pending (Action α (Callback α))}
    (hk : b.clocks.get? c = some k) (h : k.next? limit = some (p, k₁)) :
    b.next? c limit = some (p.action,
      ({ b with clocks := b.clocks.modify c fun _ => k₁ } : Bench α (Callback α)).note
        (.report (.dispatching c p.due p.sequence))) := by
  simp only [Bench.next?, hk, Option.bind_some, h]

/-- What is first on a clock starts on both benches: the same action, or the one that differs. -/
def Meets (c : ClockRef) (limit : VirtualTime) (b b' : Bench α (Callback α)) : Prop :=
  (b.next? c limit = none ∧ b'.next? c limit = none) ∨
    ∃ a a' b₁ b₁', b.next? c limit = some (a, b₁) ∧ b'.next? c limit = some (a', b₁') ∧
      (a' = a ∧ Breaks b₁ b₁' ∨ a.Breaks a' ∧ b₁' = b₁)

theorem BreaksAt.meets_of_ne (h : BreaksAt d b b') (hc : c ≠ d) (limit : VirtualTime) :
    Meets c limit b b' := by
  have hrows : b'.clocks.get? c = b.clocks.get? c := h.others c hc
  cases hk : b.clocks.get? c with
  | none => exact .inl ⟨by simp [Bench.next?, hk], by simp [Bench.next?, hrows, hk]⟩
  | some k =>
    rw [hk] at hrows
    cases hn : k.next? limit with
    | none => exact .inl ⟨by simp [Bench.next?, hk, hn], by simp [Bench.next?, hrows, hn]⟩
    | some next =>
      have hmodify := h.modify (f := fun _ => next.2) (g := fun _ => next.2)
        (fun hcd => (hc hcd).elim) fun _ _ _ => rfl
      exact .inr ⟨_, _, _, _, next?_of_row hk hn, next?_of_row hrows hn,
        .inl ⟨rfl, Breaks.note ⟨d, hmodify⟩ _⟩⟩

theorem BreaksAt.meets (h : BreaksAt c b b') (limit : VirtualTime) : Meets c limit b b' := by
  obtain ⟨queue, hqueue, hk'⟩ := h.here
  cases hk : b.clocks.get? c with
  | none =>
    rw [hk, Option.map_none] at hk'
    exact .inl ⟨by simp [Bench.next?, hk], by simp [Bench.next?, hk']⟩
  | some k =>
    rw [hk, Option.map_some] at hk'
    rcases Clock.Breaks.next? (k := k) (by simpa [Bench.clock, hk] using hqueue) limit with
      ⟨hn, hn'⟩ | ⟨p, a', k₁, k₁', hn, hn', hdiffer⟩
    · exact .inl ⟨by simp [Bench.next?, hk, hn], by simp [Bench.next?, hk', hn']⟩
    · refine .inr ⟨_, _, _, _, next?_of_row hk hn, next?_of_row hk' hn', ?_⟩
      rcases hdiffer with ⟨rfl, rest, hrest, rfl⟩ | ⟨hbreaks, rfl⟩
      · have hmodify := h.modify (f := fun _ => k₁) (g := fun _ => { k₁ with queue := rest })
          (fun _ _ _ _ _ _ => ⟨rest, hrest, rfl⟩) fun hc => (hc rfl).elim
        exact .inl ⟨rfl, Breaks.note ⟨c, hmodify⟩ _⟩
      · refine .inr ⟨hbreaks, ?_⟩
        rw [h.overwrite]

theorem Breaks.meets (h : Breaks b b') (c : ClockRef) (limit : VirtualTime) :
    Meets c limit b b' := by
  obtain ⟨d, h⟩ := h
  by_cases hc : c = d
  · subst hc
    exact h.meets limit
  · exact h.meets_of_ne hc limit

end Bench

namespace Scenario

open Bench

variable [Shown α] {E : Engine α (Callback α)} {b b' b₁ b₁' : Bench α (Callback α)}
  {script script' rest : Script α} {command : Command α} {reply : Reply α}

theorem perform_of_schedules (h : Schedules b.names (command :: rest)) :
    ∃ reply b₁, perform E command b = (.done (.ok reply), b₁) ∧ b₁.names = b.names ∧
      Schedules b.names rest := by
  cases h with
  | look hclock hrest =>
    obtain ⟨c, hc⟩ := Option.isSome_iff_exists.mp hclock
    exact ⟨_, _, perform_clockText hc, rfl, hrest⟩
  | scheduleAt hclock _ hrest =>
    obtain ⟨c, hc⟩ := Option.isSome_iff_exists.mp hclock
    exact ⟨_, _, perform_scheduleAt _ _ _ hc, rfl, hrest⟩
  | scheduleAfter hclock _ hrest =>
    obtain ⟨c, hc⟩ := Option.isSome_iff_exists.mp hclock
    exact ⟨_, _, perform_scheduleAfter _ _ _ hc, rfl, hrest⟩

/-- A script that only schedules does the same on both benches. -/
theorem breaks_runScript (E : Engine α (Callback α)) (h : Bench.Breaks b b')
    (hscript : Schedules b.names script) :
    ∃ b₁ b₁', runScript E script b = (.done (.ok ()), b₁) ∧
      runScript E script b' = (.done (.ok ()), b₁') ∧ Bench.Breaks b₁ b₁' := by
  generalize hnames : b.names = names at hscript
  induction hscript generalizing b b' with
  | nil => exact ⟨b, b', rfl, rfl, h⟩
  | @look clock _ hclock _ ih =>
    subst hnames
    obtain ⟨c, hc⟩ := Option.isSome_iff_exists.mp hclock
    rw [runScript_cons (perform_clockText hc),
      runScript_cons (perform_clockText (h.names.symm ▸ hc)), h.text c]
    exact ih (h.note _) rfl
  | @scheduleAt clock due label script rest hclock _ _ _ ih =>
    subst hnames
    obtain ⟨c, hc⟩ := Option.isSome_iff_exists.mp hclock
    rw [runScript_cons (perform_scheduleAt due label script hc),
      runScript_cons (perform_scheduleAt due label script (h.names.symm ▸ hc))]
    exact ih ((h.schedule _ _ _).note _) rfl
  | @scheduleAfter clock delay label script rest hclock _ _ _ ih =>
    subst hnames
    obtain ⟨c, hc⟩ := Option.isSome_iff_exists.mp hclock
    rw [runScript_cons (perform_scheduleAfter delay label script hc),
      runScript_cons (perform_scheduleAfter delay label script (h.names.symm ▸ hc)), h.now c]
    exact ih ((h.schedule _ _ _).note _) rfl

/-- A run panics on the bench on which another one is done, or both are done and differ in an action
that is still pending. -/
def BreaksOff {ρ : Type} (r : ρ) (m m' : Outcome ρ × Bench α (Callback α)) : Prop :=
  ∃ b₁ b₁', m' = (.done r, b₁') ∧
    ((∃ message, m = (.panicked message, b₁')) ∨ m = (.done r, b₁) ∧ Bench.Breaks b₁ b₁')

theorem runScript_panic (message : String) (rest : Script α) :
    runScript E (.panic message :: rest) b = (.panicked message, b) := rfl

/-- After a command that queues the action that differs, the scripts are the same. -/
theorem breaksOff_cons {command' : Command α} (hname : command'.name = command.name)
    (hrun : perform E command b = (.done (.ok reply), b₁))
    (hrun' : perform E command' b = (.done (.ok reply), b₁')) (h : Bench.Breaks b₁ b₁')
    (hrest : Schedules b₁.names rest) :
    BreaksOff (.ok ()) (runScript E (command :: rest) b) (runScript E (command' :: rest) b) := by
  obtain ⟨b₂, b₂', hdone, hdone', hb₂⟩ :=
    breaks_runScript E (h.note (.performed command.name (.ok reply))) hrest
  rw [runScript_cons hrun, runScript_cons hrun', hname]
  exact ⟨b₂, b₂', hdone', .inr ⟨hdone, hb₂⟩⟩

/-- A script that breaks off does what the one that returns there does, up to there. -/
theorem breaksOff_runScript (E : Engine α (Callback α)) (h : Marble.Breaks script script')
    (hscript : Schedules b.names script') :
    BreaksOff (.ok ()) (runScript E script b) (runScript E script' b) := by
  generalize hnames : b.names = names at hscript
  induction h generalizing b with
  | here message rest => exact ⟨b, b, rfl, .inl ⟨message, runScript_panic message rest⟩⟩
  | later command h ih =>
    subst hnames
    obtain ⟨reply, b₁, hrun, hnames₁, hrest⟩ := perform_of_schedules (E := E) hscript
    rw [runScript_cons hrun, runScript_cons hrun]
    exact ih hnames₁ hrest
  | scheduleAt clock due label rest h =>
    subst hnames
    cases hscript with
    | scheduleAt hclock _ hrest =>
      obtain ⟨c, hc⟩ := Option.isSome_iff_exists.mp hclock
      exact breaksOff_cons rfl (perform_scheduleAt _ _ _ hc) (perform_scheduleAt _ _ _ hc)
        (Bench.breaks_schedule b c due (.action c label h)) hrest
  | scheduleAfter clock delay label rest h =>
    subst hnames
    cases hscript with
    | scheduleAfter hclock _ hrest =>
      obtain ⟨c, hc⟩ := Option.isSome_iff_exists.mp hclock
      exact breaksOff_cons rfl (perform_scheduleAfter _ _ _ hc) (perform_scheduleAfter _ _ _ hc)
        (Bench.breaks_schedule b c (b.now c + delay) (.action c label h)) hrest

end Scenario

namespace Engine

open Bench Scenario

variable {b b' : Bench α (Callback α)} {c : ClockRef} {target : VirtualTime}
  {a a' : Action α (Callback α)} {f f' : Callback α} {fuel n : Nat}

theorem BreaksOff.fire {E : Engine α (Callback α)}
    (h : BreaksOff (.ok ()) (E.call f b) (E.call f' b')) :
    BreaksOff () (E.fire f b) (E.fire f' b') := by
  obtain ⟨b₁, b₁', hdone, hbreaks⟩ := h
  refine ⟨b₁, b₁', fire_done hdone, ?_⟩
  rcases hbreaks with ⟨message, hpanic⟩ | ⟨hdone, hbreaks⟩
  · refine .inl ⟨message, ?_⟩
    have hcall : (E.call f).result b = (.panicked message, b₁') := hpanic
    simp only [Engine.fire, bind, hcall]
  · exact .inr ⟨fire_done hdone, hbreaks⟩

/-- A run that panics on the first bench comes, made again, to where it comes on the second one at
once. Where it is done on both, they are as alike as before. -/
inductive Recovers (run : Run α (Callback α) Unit) (b b' : Bench α (Callback α)) : Prop
  | again {message : String} {b₁ b₂ : Bench α (Callback α)}
    (hpanic : run b = (.panicked message, b₁))
    (hagain : run b₁ = (.done (), b₂)) (hdone : run b' = (.done (), b₂))
  | never {b₁ b₁' : Bench α (Callback α)} (hdone : run b = (.done (), b₁))
    (hdone' : run b' = (.done (), b₁')) (h : Bench.Breaks b₁ b₁')

theorem Recovers.done {run : Run α (Callback α) Unit} (h : Recovers run b b') :
    ∃ b₁, run b' = (.done (), b₁) := by
  cases h with
  | again _ _ hdone => exact ⟨_, hdone⟩
  | never _ hdone _ => exact ⟨_, hdone⟩

theorem advanceWith_succ_of_done {σ : Type} {E : Engine α σ} {b b' : Bench α σ}
    (h : E.advanceWith c target n b = (.done (), b')) :
    E.advanceWith c target (n + 1) b = (.done (), b') := by
  rw [advanceWith_mono (Nat.le_succ n) (by rw [h]; simp), h]

variable [Shown α]

/-- An action that comes to break off does what the one that returns there does, up to there. -/
theorem breaksOff_perform (fuel : Nat) (h : a.Breaks a') (ha : a'.Errand b.names) :
    BreaksOff () ((Callback.engine (fuel + 1)).perform a b)
      ((Callback.engine (fuel + 1)).perform a' b) := by
  cases h with
  | action c label h =>
    cases ha with
    | action _ _ hscript =>
      exact BreaksOff.fire (breaksOff_runScript (b := b.note (.ran label (b.now c))) _ h hscript)
  | script h =>
    cases ha with
    | script hscript => exact BreaksOff.fire (breaksOff_runScript _ h hscript)

/-- An errand does the same on both benches. -/
theorem breaks_perform (fuel : Nat) (h : Bench.Breaks b b') (ha : a.Errand b.names) :
    ∃ b₁ b₁', (Callback.engine (fuel + 1)).perform a b = (.done (), b₁) ∧
      (Callback.engine (fuel + 1)).perform a b' = (.done (), b₁') ∧ Bench.Breaks b₁ b₁' := by
  cases ha with
  | action c label hscript =>
    have hnoted := h.note (.ran label (b.now c))
    obtain ⟨b₁, b₁', hrun, hrun', hbreaks⟩ :=
      breaks_runScript (Callback.engine fuel) hnoted hscript
    rw [← h.now c] at hrun'
    exact ⟨b₁, b₁', fire_done hrun, fire_done hrun', hbreaks⟩
  | script hscript =>
    obtain ⟨b₁, b₁', hrun, hrun', hbreaks⟩ := breaks_runScript (Callback.engine fuel) h hscript
    exact ⟨b₁, b₁', fire_done hrun, fire_done hrun', hbreaks⟩
  | note payload => exact ⟨_, _, rfl, rfl, h.note _⟩
  | stamp p => exact ⟨_, _, rfl, rfl, h.stamp p⟩

/-- What starts on both benches gets done on the second one, and on the first one as far as it
goes. -/
theorem breaksOff_turn (fuel : Nat) (ha' : a'.Errand b'.names)
    (h : a' = a ∧ Bench.Breaks b b' ∨ a.Breaks a' ∧ b' = b) :
    BreaksOff () ((Callback.engine (fuel + 1)).perform a b)
      ((Callback.engine (fuel + 1)).perform a' b') := by
  rcases h with ⟨rfl, hb⟩ | ⟨hbreaks, rfl⟩
  · obtain ⟨b₁, b₁', hrun, hrun', hb₁⟩ := breaks_perform fuel hb (hb.names ▸ ha')
    exact ⟨b₁, b₁', hrun', .inr ⟨hrun, hb₁⟩⟩
  · exact breaksOff_perform fuel hbreaks ha'

/-- An action that panics has started: the clock is at it, and it is counted. What is left is what
comes after it, which the second bench has before it as well. -/
theorem advanceWith_recovers (fuel : Nat) (h : Bench.Breaks b b') (herrands : b'.Errands c)
    (hload : (b'.clock c).load < n) :
    Recovers ((Callback.engine (fuel + 1)).advanceWith c target n) b b' := by
  induction n generalizing b b' with
  | zero => omega
  | succ n ih =>
    rcases h.meets c target with ⟨hidle, hidle'⟩ | ⟨a, a', b₁, b₁', hnext, hnext', hdiffer⟩
    · exact .never (advanceWith_idle hidle) (advanceWith_idle hidle') (h.park c target)
    obtain ⟨b₂, b₂', hrun', hoff⟩ := breaksOff_turn fuel (herrands.next? hnext') hdiffer
    obtain ⟨b₃, hrun₃, -, herrands₂, hless⟩ := errands_turn fuel herrands hnext'
    obtain rfl : b₃ = b₂' := congrArg Prod.snd (hrun₃.symm.trans hrun')
    have hload₂ : (b₃.clock c).load < n := by omega
    have hturn' : (Callback.engine (fuel + 1)).advanceWith c target (n + 1) b' =
        (Callback.engine (fuel + 1)).advanceWith c target n b₃ := by
      rw [advanceWith_turn hnext', Run.bind_done hrun']
    rcases hoff with ⟨message, hpanic⟩ | ⟨hrun, hb₂⟩
    · obtain ⟨b₄, hdone⟩ := (ih ⟨c, breaksAt_self c b₃⟩ herrands₂ hload₂).done
      have hturn : (Callback.engine (fuel + 1)).advanceWith c target (n + 1) b =
          (.panicked message, b₃) := by
        rw [advanceWith_turn hnext, Run.bind_of_ne_done (by rw [hpanic]; simp), hpanic]
      exact .again hturn (advanceWith_succ_of_done hdone) (hturn'.trans hdone)
    · have hturn : (Callback.engine (fuel + 1)).advanceWith c target (n + 1) b =
          (Callback.engine (fuel + 1)).advanceWith c target n b₂ := by
        rw [advanceWith_turn hnext, Run.bind_done hrun]
      cases ih hb₂ herrands₂ hload₂ with
      | again hpanic hagain hdone =>
        exact .again (hturn.trans hpanic) (advanceWith_succ_of_done hagain) (hturn'.trans hdone)
      | never hdone hdone' h => exact .never (hturn.trans hdone) (hturn'.trans hdone') h

/-- An action that panics costs only itself. Nothing but errands is to run on a clock, but for one
of them, or of those that come of them, that panics after any of its commands. An advance that it
breaks off is made again: that leaves the same bench as if the action had returned there, with the
same log, the clock at the same instant, and as much done and pending. -/
theorem advanceTo_recovers (h : Bench.Breaks b b') (herrands : b'.Errands c)
    (hfuel : (b'.clock c).load < fuel) :
    Recovers ((Callback.engine fuel).advanceTo c target) b b' := by
  obtain ⟨fuel, rfl⟩ := Nat.exists_eq_add_one_of_ne_zero (Nat.ne_zero_of_lt hfuel)
  exact advanceWith_recovers fuel h herrands hfuel

end Engine

namespace Scenario

open Bench

/-- A clock that is already late, with an action that queues one for an instant that is past, and
another one behind them. -/
def relaying (script : Script Int64) : Bench Int64 (Callback Int64) :=
  ((fresh.park ⟨0⟩ (.clamp 2)).schedule ⟨0⟩ (.clamp 1) (.invoke (.call (.action ⟨0⟩ (.string "x")
    [.scheduleAt "main" .zero (.string "y") script, .clockText "main"])))
  ).schedule ⟨0⟩ (.clamp 4) (.invoke (.call (.action ⟨0⟩ (.string "w") [])))

/-- The action that is queued on the way queues another one, and panics before it queues a
second. -/
theorem advanceTo_recovers_relaying :
    ∃ b₁ b₂, (Callback.engine 5).advanceTo ⟨0⟩ (.clamp 9)
        (relaying [.scheduleAfter "main" (.clamp 3) (.string "z") [], .panic "boom",
          .scheduleAfter "main" (.clamp 4) (.string "v") []]) = (.panicked "boom", b₁) ∧
      (Callback.engine 5).advanceTo ⟨0⟩ (.clamp 9) b₁ = (.done (), b₂) ∧
      (Callback.engine 5).advanceTo ⟨0⟩ (.clamp 9)
        (relaying [.scheduleAfter "main" (.clamp 3) (.string "z") []]) = (.done (), b₂) := by
  have hbreaks : Marble.Breaks (α := Int64)
      [.scheduleAfter "main" (.clamp 3) (.string "z") [], .panic "boom",
        .scheduleAfter "main" (.clamp 4) (.string "v") []]
      [.scheduleAfter "main" (.clamp 3) (.string "z") []] := .later _ (.here _ _)
  have hrelaying := (breaks_schedule (fresh.park ⟨0⟩ (.clamp 2)) ⟨0⟩ (.clamp 1)
    (.action ⟨0⟩ (.string "x") (.scheduleAt "main" .zero (.string "y") [.clockText "main"] hbreaks))
    ).schedule ⟨0⟩ (.clamp 4) (.invoke (.call (.action ⟨0⟩ (.string "w") [])))
  have herrands : Errands ⟨0⟩
      (relaying [.scheduleAfter "main" (.clamp 3) (.string "z") []]) := by
    intro p hp
    rcases List.mem_cons.mp hp with rfl | hp
    · exact .action _ _ (.scheduleAt rfl (.scheduleAfter rfl .nil .nil) (.look rfl .nil))
    · obtain rfl := List.mem_singleton.mp hp
      exact .action _ _ .nil
  have hpanics : ((Callback.engine 5).advanceTo ⟨0⟩ (.clamp 9)
      (relaying [.scheduleAfter "main" (.clamp 3) (.string "z") [], .panic "boom",
        .scheduleAfter "main" (.clamp 4) (.string "v") []])).1 = .panicked "boom" := rfl
  have hrecovers : Engine.Recovers ((Callback.engine 5).advanceTo ⟨0⟩ (.clamp 9)) _ _ :=
    Engine.advanceTo_recovers hrelaying herrands (by decide)
  cases hrecovers with
  | again hpanic hagain hdone =>
    obtain rfl := Outcome.panicked.inj ((congrArg Prod.fst hpanic).symm.trans hpanics)
    exact ⟨_, _, hpanic, hagain, hdone⟩
  | never hdone => exact nomatch hpanics.symm.trans (congrArg Prod.fst hdone)

end Scenario

end Marble
