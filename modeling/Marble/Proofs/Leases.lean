import Marble.Proofs.Custody
import Marble.Proofs.Punctuality

/-! What becomes of the subscription that an expectation makes: it is held on a lease, which nobody
can end or prolong, and which runs out at the release time of the expectation, whoever drives the
clock. A scope does not end before the last of its leases. -/
namespace Marble

variable {α σ : Type}

namespace Bench

variable {b b' b'' : Bench α σ} {s : ScopeRef} {scope : Scope α σ}

/-! ### Scopes and their clocks -/

/-- Scopes stay on their clocks, their horizons do not draw in, and a new one has a clock. -/
structure Extends (b b' : Bench α σ) : Prop where
  row : ∀ s scope, b.scopes.get? s = some scope → ∃ scope', b'.scopes.get? s = some scope' ∧
    scope'.clock = scope.clock ∧ scope.horizon ≤ scope'.horizon
  origin : ∀ s scope', b'.scopes.get? s = some scope' →
    (∃ scope, b.scopes.get? s = some scope ∧ scope.clock = scope'.clock) ∨
      (b'.clocks.get? scope'.clock).isSome

theorem extends_of_eq (h : b'.scopes = b.scopes) : Extends b b' where
  row s scope hs := ⟨scope, by rw [h, hs], rfl, le_refl _⟩
  origin s scope' hs := Or.inl ⟨scope', by rw [← h, hs], rfl⟩

theorem extends_modifyScope {f : Scope α σ → Scope α σ} (b : Bench α σ) (s : ScopeRef)
    (h : ∀ scope, (f scope).clock = scope.clock ∧ scope.horizon ≤ (f scope).horizon) :
    Extends b (b.modifyScope s f) where
  row t scope ht := by
    simp only [modifyScope, Table.get?_modify, ht]
    split
    · exact ⟨f scope, rfl, h scope⟩
    · exact ⟨scope, rfl, rfl, le_refl _⟩
  origin t scope' ht := by
    simp only [modifyScope, Table.get?_modify] at ht
    split at ht
    · obtain ⟨scope, hscope, rfl⟩ := Option.map_eq_some_iff.mp ht
      exact Or.inl ⟨scope, hscope, (h scope).1.symm⟩
    · exact Or.inl ⟨scope', ht, rfl⟩

theorem extends_beginScope (b : Bench α σ) (options : ScopeOptions) :
    Extends b (b.beginScope options).2 where
  row t scope ht := by
    have hne : t ≠ b.scopes.next := by
      rintro rfl
      simp [Table.get?_next] at ht
    exact ⟨scope, by rw [get?_beginScope_of_ne options hne, ht], rfl, le_refl _⟩
  origin t scope' ht := by
    by_cases hne : t = b.scopes.next
    · subst hne
      rw [beginScope_row] at ht
      obtain rfl := Option.some.inj ht
      exact Or.inr (by rw [Scope.begun, beginScope_clock]; rfl)
    · rw [get?_beginScope_of_ne options hne] at ht
      exact Or.inl ⟨scope', ht, rfl⟩

theorem Change.extends (h : Change b b') : Extends b b' := by
  cases h with
  | plain h =>
    cases h with
    | beginScope options => exact extends_beginScope b options
    | @extend s _ h t =>
      refine extends_modifyScope b s fun scope => ?_
      exact ⟨rfl, le_max_left scope.horizon t⟩
    | register s t a =>
      rw [Bench.register]
      split
      · exact extends_of_eq rfl
      · have htaken : Extends b (b.modifyScope s (·.take t a)) :=
          extends_modifyScope b s fun scope => ⟨rfl, le_max_left scope.horizon t⟩
        exact ⟨htaken.row, htaken.origin⟩
    | start h =>
      obtain ⟨clocks, log, rfl⟩ := next?_rest h
      exact extends_of_eq rfl
    | addSource temperature c events =>
      exact extends_of_eq (b.addSource_fields temperature c events).2.2.2.1
    | attach source o => exact extends_of_eq (b.attach_scopes source o)
    | _ => exact extends_of_eq rfl
  | enterPhase s phase => exact extends_modifyScope b s fun scope => ⟨rfl, le_refl _⟩
  | takePending s => exact extends_modifyScope b s fun scope => ⟨rfl, le_refl _⟩
  | abandon s reason hr =>
    have hdisposed : Extends b (b.modifyScope s fun scope =>
        { scope with phase := .disposed, pending := [] }) :=
      extends_modifyScope b s fun scope => ⟨rfl, le_refl _⟩
    exact ⟨hdisposed.row, hdisposed.origin⟩
  | _ => exact extends_of_eq rfl

/-- A scope keeps its clock, and its horizon is not drawn in. -/
theorem Reaches.horizon (h : Reaches b b') (hs : b.scopes.get? s = some scope) :
    ∃ scope', b'.scopes.get? s = some scope' ∧ scope'.clock = scope.clock ∧
      scope.horizon ≤ scope'.horizon := by
  induction h with
  | refl => exact ⟨scope, hs, rfl, le_refl _⟩
  | tail _ hstep ih =>
    obtain ⟨scope₁, hs₁, hclock₁, hle₁⟩ := ih
    obtain ⟨scope₂, hs₂, hclock₂, hle₂⟩ := hstep.extends.row s scope₁ hs₁
    exact ⟨scope₂, hs₂, hclock₂.trans hclock₁, le_trans hle₁ hle₂⟩

/-- Every scope has a clock. -/
theorem Lived.isSome_clock (h : b.Lived) (hs : b.scopes.get? s = some scope) :
    (b.clocks.get? scope.clock).isSome := by
  induction h generalizing scope with
  | refl => simp [Table.get?] at hs
  | tail _ hstep ih =>
    rcases hstep.extends.origin s scope hs with ⟨scope₁, hs₁, hclock⟩ | hsome
    · rw [← hclock]
      exact hstep.clocks_isSome (ih hs₁)
    · exact hsome

end Bench

/-- The subscription of an expectation: the entry that it has in the log of a source, when it was
made and when it is to end, and the recorder that is detached with its end. -/
structure Lease where
  sub : SubscriptionRef
  recorder : RecorderRef
  clock : ClockRef
  source : SourceRef
  entry : Nat
  opened : VirtualTime
  due : VirtualTime

namespace Lease

open Bench

variable {x : Lease} {b b' : Bench α σ} {c : ClockRef} {limit : VirtualTime} {r : RecorderRef}

/-- A lease runs as long as its subscription is active and nobody has got hold of it. Its entry is
open, and the one release that is queued for it is due on the clock of the source. -/
structure Runs (x : Lease) (b : Bench α σ) : Prop where
  secluded : b.Secluded x.sub
  active : b.isActive x.sub
  leaves : b.leaves? x.sub = some (x.source, x.entry)
  opened : b.record? x.source x.entry = some ⟨x.opened, none⟩
  home : ∃ source, b.sources.get? x.source = some source ∧ source.clock = x.clock
  queued : ∀ c, b.releases x.sub c =
    if x.clock = c then [⟨x.due, .release x.recorder x.sub⟩] else []

/-- A lease has run out: its subscription is over, and its entry was closed just when it was due. -/
structure Expired (x : Lease) (b : Bench α σ) : Prop where
  lived : b.Lived
  leaves : b.leaves? x.sub = some (x.source, x.entry)
  ended : b.isActive x.sub = false
  closed : b.record? x.source x.entry = some ⟨x.opened, some x.due⟩

/-- What has run out is not taken up again. -/
theorem Expired.reaches (h : x.Expired b) (hreaches : Reaches b b') : x.Expired b' where
  lived := h.lived.reaches hreaches
  leaves := ((Reaches.retains h.lived.rostered hreaches).leaves x.sub
    (lt_next_of_leaves? h.leaves)).trans h.leaves
  ended := by
    refine Bool.eq_false_iff.mpr fun hactive => ?_
    have hbefore := (Reaches.retains h.lived.rostered hreaches).active x.sub
      (lt_next_of_leaves? h.leaves) hactive
    rw [h.ended] at hbefore
    cases hbefore
  closed := by
    obtain ⟨⟨t, u⟩, hrecord, hopened, hclosed⟩ := (h.lived.amends hreaches).entry _ _ _ h.closed
    obtain rfl : t = x.opened := hopened
    obtain rfl : u = some x.due := hclosed x.due rfl
    exact hrecord

/-- A lease that is left alone goes on running. -/
theorem Runs.aside (h : x.Runs b) (hreaches : Reaches b b') (ho : Overlooks x.sub b b') :
    x.Runs b' := by
  have hamends := h.secluded.lived.amends hreaches
  have hleaves : b'.leaves? x.sub = some (x.source, x.entry) :=
    ((Reaches.retains h.secluded.lived.rostered hreaches).leaves x.sub h.secluded.made).trans
      h.leaves
  refine ⟨h.secluded.reached hreaches (ho.unknown h.secluded.unknown), ho.active h.active, hleaves,
    ?_, ?_, fun c => (ho.releases c).trans (h.queued c)⟩
  · obtain ⟨⟨t, u⟩, hrecord, hopened, -⟩ := hamends.entry _ _ _ h.opened
    obtain ⟨y, hy, hopen⟩ := hamends.logged.entry _ _ _ hleaves
    obtain rfl := Option.some.inj (hrecord.symm.trans hy)
    obtain rfl : t = x.opened := hopened
    obtain rfl : u = none := hopen.mpr (ho.active h.active)
    exact hrecord
  · obtain ⟨source, hsource, hclock⟩ := h.home
    obtain ⟨source', hsource', hkept⟩ := hamends.clock _ _ hsource
    exact ⟨source', hsource', hkept.trans hclock⟩

/-- To end a subscription closes its entry at the time its source reads. -/
theorem expired_release (hs : b.Secluded x.sub) (ha : b.isActive x.sub)
    (hleaves : b.leaves? x.sub = some (x.source, x.entry))
    (hopened : b.record? x.source x.entry = some ⟨x.opened, none⟩)
    (hdue : b.reading x.source = x.due)
    {E : Engine α σ} (r : RecorderRef) : x.Expired (E.perform (.release r x.sub) b).2 := by
  have hreaches := (hs.release (E := E) r).1
  have hrecord : (b.detach r).record? x.source x.entry = some ⟨x.opened, none⟩ := hopened
  have hreading : (b.detach r).reading x.source = x.due := hdue
  rw [perform_release_leaving hleaves, if_pos ha] at hreaches ⊢
  refine ⟨hs.lived.reaches hreaches, ?_, ?_, ?_⟩
  · exact (congrFun (leaves?_deactivate (b.detach r) x.sub) x.sub).trans hleaves
  · exact (isActive_deactivate (b.detach r) x.sub x.sub).trans (by simp)
  · simp [record?_discharge, hrecord, hreading]

/-- The only release that can start is the one that is queued, and it starts just when it is due. -/
theorem Runs.release (h : x.Runs b) (hn : b.next? c limit = some (.release r x.sub, b'))
    {E : Engine α σ} : x.Expired (E.perform (.release r x.sub) b').2 := by
  obtain ⟨hhead, -⟩ := queued_next? (h.secluded.lived.ordered c)
    (f := Action.ofRelease? x.sub) (Action.ofRelease?_of_eq rfl) hn
  have hown := hhead.symm.trans (h.queued c)
  split at hown
  next hc =>
    have hdue : b'.now c = x.due := congrArg Timed.time (List.cons.inj hown).1
    have hstarted := h.secluded.started hn
    obtain ⟨source, hsource, hclock⟩ := h.home
    obtain ⟨clocks, log, hb'⟩ := next?_rest hn
    have hsource' : b'.sources.get? x.source = some source := by rw [hb', hsource]
    refine expired_release hstarted ?_ ?_ ?_ ?_ r
    · rw [hb']
      exact h.active
    · rw [hb']
      exact h.leaves
    · rw [hb']
      exact h.opened
    · rw [reading_of_source hsource', hclock, hc, hdue]
  · cases hown

/-- As long as nobody gets hold of its subscription, a lease runs or has run out. -/
theorem Runs.ensues (h : x.Runs b) (he : Ensues x.sub b b') : x.Runs b' ∨ x.Expired b' := by
  induction he with
  | refl => exact Or.inl h
  | @tail b₁ b₂ hbefore hp ih =>
    obtain ⟨-, hsecluded⟩ := h.secluded.ensues hbefore
    obtain ⟨hreaches, -⟩ := hsecluded.passes hp
    rcases ih with hruns | hexpired
    · cases hp with
      | aside hchange ho => exact Or.inl (hruns.aside hchange.reaches ho)
      | release hn E => exact Or.inr (hruns.release hn)
    · exact Or.inr (hexpired.reaches hreaches)

/-- A clock with nothing due by an instant has outlived the leases that were to end by then. -/
theorem Runs.expired (h : x.Runs b) (he : Ensues x.sub b b') (hn : b'.next? x.clock limit = none)
    (hdue : x.due ≤ limit) : x.Expired b' := by
  rcases h.ensues he with hruns | hexpired
  · have hlate := lt_of_mem_queued (f := Action.ofRelease? x.sub)
      (hruns.secluded.lived.ordered x.clock) hn ⟨x.due, .release x.recorder x.sub⟩
    have hqueued := hruns.queued x.clock
    rw [if_pos rfl] at hqueued
    exact absurd (hlate (by rw [← releases, hqueued]; simp)) (not_lt.mpr hdue)
  · exact hexpired

/-- A lease serves the end of a scope if it ends by the horizon of that scope, on its clock. -/
structure Serves (x : Lease) (s : ScopeRef) (b : Bench α σ) : Prop where
  state : x.Runs b ∨ x.Expired b
  scope : ∃ scope, b.scopes.get? s = some scope ∧ x.clock = scope.clock ∧ x.due ≤ scope.horizon

theorem Serves.goes {s : ScopeRef} (h : x.Serves s b) (hreaches : Reaches b b')
    (hs : Secluding x.sub b b') : x.Serves s b' where
  state := h.state.elim (fun hruns => hruns.ensues (hs hruns.secluded))
    fun hexpired => Or.inr (hexpired.reaches hreaches)
  scope := by
    obtain ⟨scope, hrow, hclock, hdue⟩ := h.scope
    obtain ⟨scope', hrow', hkept, hle⟩ := hreaches.horizon hrow
    exact ⟨scope', hrow', hclock.trans hkept.symm, hdue.trans hle⟩

/-! ### Taking out a lease -/

variable {E : Engine α σ} {s : ScopeRef} {scope : Scope α σ} {src : SourceRef} {source : Source α}

/-- The lease on which an expectation holds its subscription to a source. -/
def taken (b : Bench α σ) (c : ClockRef) (options : ScopeOptions) (src : SourceRef)
    (source : Source α) (d : Diagram α SequenceError (Effect σ)) : Lease where
  sub := b.subscriptions.next
  recorder := b.recorders.next
  clock := c
  source := src
  entry := source.log.length
  opened := b.now c
  due := Engine.releaseAt d options (b.now c)

/-- Who listens to a source holds a lease. -/
theorem runs_listen (hb : b.Innocent) (hc : (b.clocks.get? c).isSome)
    (hsource : b.sources.get? src = some source) (hclock : source.clock = c)
    (options : ScopeOptions) (stages : List (Stage α)) (d : Diagram α SequenceError (Effect σ)) :
    (taken b c options src source d).Runs
      (b.listen c src stages (Engine.releaseAt d options (b.now c))) := by
  let x := taken b c options src source d
  let o : Observer α := ⟨stages, .recorder b.recorders.next⟩
  let b₀ := (b.addRecorder c).2
  let b₁ := (b₀.attach src o).2
  have hsource₀ : b₀.sources.get? src = some source := hsource
  have hreaches : Reaches b b₁ :=
    (Change.plain (.addRecorder b c)).reaches.tail (.plain (.attach b₀ src o))
  have hoverlooks : Overlooks x.sub b b₁ := by
    have hmade : Overlooks x.sub b b₀ := overlooks_aside (fun _ => rfl) (held_addRecorder b c)
      (spares_of_eq rfl rfl)
    exact trans_of (Overlooks x.sub) hmade ((Mild.attach b₀ src o).overlooks x.sub)
  have hnow : b₁.now c = x.opened :=
    (congrArg Clock.now (clock_attach (b := b₀) hc src o)).trans Clock.now_scheduleAll
  have hunknown := hoverlooks.unknown (hb.unknown x.sub (Nat.le_refl _))
  have hleaves : b₁.leaves? x.sub = some (x.source, x.entry) := by
    rw [leaves?_attach hsource₀]
    exact if_pos rfl
  refine ⟨⟨hb.lived.reaches (reaches_listen b c src stages x.due),
    ⟨hunknown.unnamed, hunknown.unheld⟩,
    x.source, x.entry, hleaves⟩, ?_, hleaves, ?_, ?_, fun c' => ?_⟩
  · change b₁.isActive x.sub
    rw [isActive_attach hsource₀]
    exact if_pos rfl
  · change b₁.record? src source.log.length = _
    rw [record?_attach hsource₀, if_pos ⟨rfl, rfl⟩, hclock]
    rfl
  · obtain ⟨source', hsource', hkept⟩ := clock_of_attach hsource₀ src o
    exact ⟨source', hsource', hkept.trans hclock⟩
  · have hnone : b₁.queued (Action.ofRelease? x.sub) c' = [] :=
      (hoverlooks.releases c').trans (hb.releases x.sub (Nat.le_refl _) c')
    have hqueued := queued_schedule (f := Action.ofRelease? x.sub)
      ((hb.lived.reaches hreaches).ordered c)
      (attach_clocks_isSome (b := b₀) hc src o)
      (Action.ofRelease?_of_eq (a := .release x.recorder x.sub) rfl) x.due c'
    have hdue : max x.due x.opened = x.due := max_eq_left (Engine.le_releaseAt d options (b.now c))
    rw [hnow, hdue, hnone] at hqueued
    exact hqueued

/-- Who expects something of a source holds a lease, and the scope is not to end before that
does. -/
theorem runs_expect (hb : b.Innocent) (hs : b.accepting s = .ok scope)
    (hsource : b.sources.get? src = some source) (hclock : source.clock = scope.clock)
    (stages : List (Stage α)) (d : Diagram α SequenceError (Effect σ)) (compare : Compare α) :
    ∃ b', E.expect s ⟨.source src, stages⟩ d compare b = (.done (.ok ()), b') ∧
      (taken b scope.clock scope.options src source d).Runs b' ∧
      (taken b scope.clock scope.options src source d).Serves s b' := by
  obtain ⟨hrow, -⟩ := accepting_eq_ok.mp hs
  let due := Engine.releaseAt d scope.options (b.now scope.clock)
  let b₁ := b.listen scope.clock src stages due
  let a : Assertion α σ :=
    .events b.recorders.next d.source (Engine.expected d scope.options (b.now scope.clock)) compare
  have hlistening := runs_listen hb (hb.lived.isSome_clock hrow) hsource hclock
    scope.options stages d
  have hrow₁ : b₁.scopes.get? s = some scope := by rw [listen_scopes, hrow]
  have haccepting : b₁.accepting s = .ok scope :=
    (accepting_of_scopes (b.listen_scopes scope.clock src stages due)).trans hs
  have hentered : Reaches b₁ (b₁.entered s due a) := by
    have hregister := (Change.plain (.register b₁ s due a)).reaches
    rwa [register_of_accepting haccepting] at hregister
  have hruns : (taken b scope.clock scope.options src source d).Runs (b₁.entered s due a) :=
    hlistening.aside hentered
      (overlooks_aside (fun _ => rfl) (fun _ => rfl) (spares_of_eq rfl rfl))
  have hrow' : (b₁.entered s due a).scopes.get? s = some (scope.take due a) :=
    (get?_modifyScope b₁ s (·.take due a)).trans (by rw [hrow₁]; rfl)
  exact ⟨b₁.entered s due a, Engine.expect_source hs src stages d compare, hruns, Or.inl hruns,
    scope.take due a, hrow', rfl, le_max_right _ _⟩

/-! ### The end of a scope -/

/-- A scope that has been settled leaves the stack. -/
theorem reaches_relinquish (s : ScopeRef) (outcome : Outcome (Except Error Unit)) (b : Bench α σ) :
    Reaches b (Engine.relinquish s outcome (b.removeScope s)) := by
  have hremoved : Reaches b (b.removeScope s) := (Change.removeScope b s).reaches
  rcases Engine.relinquish_cases s outcome (b.removeScope s) with heq | heq <;> rw [heq]
  · exact hremoved
  · exact hremoved.tail (.abandon _ s _ fun _ _ => rfl)

variable [Shown α] {b₁ b₂ : Bench α σ} {rest : List ScopeRef} {answer : Except Error Unit}

/-- A scope that has been settled has had its clock driven to the horizon before anything else. -/
theorem drained_of_settle (hE : E.Lawful) (hrow : b.scopes.get? s = some scope)
    (h : E.settle s b = (.done answer, b')) :
    ∃ b₁, E.drain scope.clock scope.horizon (Bench.closing s scope.horizon b) = (.done (), b₁) ∧
      Reaches b₁ b' := by
  obtain ⟨os, b₃, hjudge, -⟩ := (Engine.settle_eq_done hrow).mp (congrArg Prod.fst h)
  obtain ⟨b₂, hadvance, houtcomes⟩ := (Engine.judge_eq_done hrow).mp hjudge
  obtain ⟨b₁, hdrain, rfl⟩ := Engine.advanceTo_eq_done.mp hadvance
  obtain rfl : Engine.concluded s os b₃ = b' :=
    congrArg Prod.snd ((Engine.settle_of_judge hrow hjudge).symm.trans h)
  refine ⟨b₁, hdrain, ?_⟩
  have hparked : Reaches b₁ (b₁.park scope.clock scope.horizon) :=
    (Change.plain (.park (Engine.next?_of_drainWith hdrain))).reaches
  have hchecking := hparked.tail (.takePending _ s)
  have hchecked := hchecking.trans
    ((Engine.respects_outcomes hE s scope.options.grid 0 _).of_eq houtcomes)
  refine (hchecked.tail (.enterPhase b₃ s .disposed)).tail (.plain (.note _ _ ?_))
  cases failures os <;> rfl

/-- By the time a scope has been settled, its leases have run out. -/
theorem Serves.settled (hE : E.Lawful) (hS : E.Respects (Secluding x.sub)) (h : x.Serves s b)
    (hsettle : E.settle s b = (.done answer, b')) : x.Expired b' := by
  obtain ⟨scope, hrow, hclock, hdue⟩ := h.scope
  obtain ⟨b₁, hdrain, hafter⟩ := drained_of_settle hE hrow hsettle
  rcases h.state with hruns | hexpired
  · have hphase : Secluding x.sub b
      (b.modifyScope s fun scope => { scope with phase := .ending }) :=
      Grants.change (.enterPhase b s .ending) (fun _ => rfl) (fun _ => rfl) (spares_of_eq rfl rfl)
    have hclosing : Secluding x.sub b (Bench.closing s scope.horizon b) :=
      trans_of (Secluding x.sub) hphase
        (Engine.allows_note _ (e := .report (.advancing s.scopeId scope.horizon)) rfl rfl)
    have hdrained : Secluding x.sub (Bench.closing s scope.horizon b) b₁ :=
      (Engine.respects_drain hS scope.clock scope.horizon).of_eq hdrain
    have hensues : Ensues x.sub b b₁ :=
      trans_of (Secluding x.sub) hclosing hdrained hruns.secluded
    have hnone : b₁.next? x.clock scope.horizon = none := by
      rw [hclock]
      exact Engine.next?_of_drainWith hdrain
    exact (hruns.expired hensues hnone hdue).reaches hafter
  · exact hexpired.reaches ((Engine.lawful_settle hE s).of_eq hsettle)

/-- No lease outlives the scope that it was taken out for, whether that is ended -/
theorem Serves.ended (hE : E.Lawful) (hS : E.Respects (Secluding x.sub)) (h : x.Serves s b)
    (hstack : b.stack = s :: rest) (hend : E.endScope s b = (.done answer, b')) : x.Expired b' := by
  have hsettle : E.settle s b = (.done answer, (E.settle s b).2) :=
    Prod.ext ((Engine.endScope_eq_done hstack).mp (congrArg Prod.fst hend)) rfl
  have hexpired := h.settled hE hS hsettle
  obtain rfl := congrArg Prod.snd (hend.symm.trans (Engine.endScope_of_settle hstack hsettle))
  exact hexpired.reaches (reaches_relinquish s _ _)

/-- or let go of. -/
theorem Serves.dropped (hE : E.Lawful) (hS : E.Respects (Secluding x.sub)) (h : x.Serves s b)
    (hstack : b.stack = s :: rest) (hdrop : E.dropScope s b = (.done (), b')) : x.Expired b' := by
  obtain ⟨answer, b₁, hinner, -⟩ := Run.bind_eq_done hdrop
  have hanswer : (E.settle s b).1 = .done answer :=
    congrArg Prod.fst ((Engine.endInnermost_top hstack).symm.trans hinner)
  have hsettle : E.settle s b = (.done answer, (E.settle s b).2) := Prod.ext hanswer rfl
  have hexpired := h.settled hE hS hsettle
  have hafter := Engine.dropScope_snd (E := E) s b
  rw [Engine.endInnermost_top hstack, hdrop] at hafter
  obtain rfl : b' = _ := hafter
  exact hexpired.reaches (reaches_relinquish s _ _)

end Lease

end Marble
