import Marble.Proofs.Ending

/-! The phases of a scope only move forward. A scope that has left the stack is over, unless a panic
has broken off its end. -/
namespace Marble

open Bench

variable {α σ ρ : Type} {b b' b'' : Bench α σ} {s t : ScopeRef} {scope : Scope α σ}
  {ended settled : List ScopeRef}

/-- The place of a phase in the life of a scope. -/
def Phase.rank : Phase → Nat
  | .created => 0
  | .active => 1
  | .ending => 2
  | .disposed => 3

theorem Phase.rank_le_disposed (p : Phase) : p.rank ≤ Phase.disposed.rank := by
  cases p <;> decide

namespace Bench

/-- The phase of a scope; one that is yet to begin is still to be created. -/
def phase (b : Bench α σ) (s : ScopeRef) : Phase := ((b.scopes.get? s).map (·.phase)).getD .created

/-- A scope is over, with nothing left to check. -/
def Disposed (b : Bench α σ) (s : ScopeRef) : Prop :=
  ∃ scope, b.scopes.get? s = some scope ∧ scope.phase = .disposed ∧ scope.pending = []

theorem phase_of_row (h : b.scopes.get? s = some scope) : b.phase s = scope.phase := by
  simp [phase, h]

theorem phase_congr (h : b'.scopes.get? s = b.scopes.get? s) : b'.phase s = b.phase s := by
  simp [phase, h]

theorem Disposed.congr (h : b.Disposed s) (hrow : b'.scopes.get? s = b.scopes.get? s) :
    b'.Disposed s := by
  obtain ⟨scope, hscope, hphase, hpending⟩ := h
  exact ⟨scope, hrow.trans hscope, hphase, hpending⟩

theorem Disposed.phase (h : b.Disposed s) : b.phase s = .disposed := by
  obtain ⟨scope, hscope, hphase, -⟩ := h
  rw [phase_of_row hscope, hphase]

/-- The stack is disciplined, a scope whose guard stands under a name is active, and a scope that
has left the stack is over or has been left at its end. -/
structure Orderly (b : Bench α σ) : Prop extends Disciplined b where
  active : ∀ s ∈ b.guarded, b.phase s = .active
  finished : ∀ s, b.Begun s → s ∉ b.stack → b.Disposed s ∨ b.phase s = .ending

/-- What becomes of the phases of scopes while code runs that has the guards of `ended` in hand and
settles the scopes `settled`: no phase moves back, and that of a scope whose guard is out of reach
stays as it is. -/
structure Advances (ended settled : List ScopeRef) (b b' : Bench α σ) : Prop
    extends Upholds ended settled b b' where
  orderly : b'.Orderly
  forward : ∀ s, (b.phase s).rank ≤ (b'.phase s).rank
  steady : ∀ s, b.Begun s → s ∉ b.guarded → s ∉ settled → b'.phase s = b.phase s

/-- What client code does that has no guard in hand to begin with. -/
def Progress (b b' : Bench α σ) : Prop := b.Orderly → Advances [] [] b b'

theorem Advances.refl (h : b.Orderly) : Advances ended settled b b :=
  ⟨.refl h.toDisciplined, h, fun _ => Nat.le_refl _, fun _ _ _ _ => rfl⟩

theorem Advances.trans (h : Advances ended settled b b') (h' : Advances ended settled b' b'') :
    Advances ended settled b b'' where
  toUpholds := h.toUpholds.trans h'.toUpholds
  orderly := h'.orderly
  forward s := Nat.le_trans (h.forward s) (h'.forward s)
  steady s hs hg hown :=
    (h'.steady s (h.begun s hs) (h.guarded s hs hg) hown).trans (h.steady s hs hg hown)

theorem Advances.mono {ended' settled' : List ScopeRef} (h : Advances ended settled b b')
    (he : ended ⊆ ended') (hs : settled ⊆ settled') : Advances ended' settled' b b' where
  toUpholds := h.toUpholds.mono he hs
  orderly := h.orderly
  forward := h.forward
  steady s hbegun hg hown := h.steady s hbegun hg fun hmem => hown (hs hmem)

theorem Advances.upkeep (h : Advances [] [] b b') : Upkeep b b' := fun _ => h.toUpholds

/-- A guard that was within reach at first, or had yet to be made, may well be used later. -/
theorem Advances.use (h : Advances [] [] b b') (hs : b.Begun s → s ∈ b.guarded)
    (h' : Advances [s] [s] b' b'') : Advances [] [] b b'' where
  toUpholds := h.toUpholds.use hs h'.toUpholds
  orderly := h'.orderly
  forward t := Nat.le_trans (h.forward t) (h'.forward t)
  steady t ht hg _ := by
    have hne : t ∉ [s] := by
      intro hmem
      obtain rfl := List.mem_singleton.mp hmem
      exact hg (hs ht)
    exact (h'.steady t (h.begun t ht) (h.guarded t ht hg) hne).trans (h.steady t ht hg (by simp))

instance : IsPreorder (Bench α σ) Progress where
  refl _ := .refl
  trans _ _ _ h h' hb := (h hb).trans (h' (h hb).orderly)

/-- A scope that still takes assertions is on the stack. -/
theorem Orderly.mem_stack (h : b.Orderly) (hrow : b.scopes.get? s = some scope)
    (ha : scope.phase.isAccepting) : s ∈ b.stack := by
  by_contra hs
  rcases h.finished s (begun_of_row hrow) hs with hdisposed | hending
  · rw [← phase_of_row hrow, hdisposed.phase] at ha
    cases ha
  · rw [← phase_of_row hrow, hending] at ha
    cases ha

/-- Changes that leave scopes alone, and may take guards from under their names. -/
theorem progress_aside (hscopes : b'.scopes = b.scopes) (hstack : b'.stack = b.stack)
    (hguarded : b'.guarded.Sublist b.guarded) : Progress b b' := by
  intro h
  have hrow : ∀ s, b'.scopes.get? s = b.scopes.get? s := fun s => by rw [hscopes]
  have hupholds : Upholds [] [] b b' := upholds_of_sublist h.toDisciplined hstack hguarded
    (by rw [hscopes]) fun s row hs _ _ => by rw [hrow, hs]
  refine ⟨hupholds, ⟨hupholds.disciplined, ?_, ?_⟩, ?_, ?_⟩
  · intro s hs
    rw [phase_congr (hrow s)]
    exact h.active s (hguarded.subset hs)
  · intro s hs hgone
    rw [Begun, hscopes] at hs
    rw [hstack] at hgone
    rw [phase_congr (hrow s)]
    exact (h.finished s hs hgone).imp_left fun hd => hd.congr (hrow s)
  · exact fun s => (phase_congr (hrow s)).symm ▸ Nat.le_refl _
  · exact fun s _ _ _ => phase_congr (hrow s)

/-- Changes to one scope, which may begin with them or leave the stack. -/
theorem Upholds.advances (hb : Upholds ended settled b b') (h : b.Orderly)
    (hbegun : ∀ t, t ≠ s → b'.Begun t → b.Begun t)
    (hrow : ∀ t, t ≠ s → b'.scopes.get? t = b.scopes.get? t)
    (hstack : ∀ t, t ≠ s → (t ∈ b'.stack ↔ t ∈ b.stack))
    (hactive : s ∈ b'.guarded → b'.phase s = .active)
    (hover : s ∉ b'.stack → b'.Disposed s ∨ b'.phase s = .ending)
    (hforward : (b.phase s).rank ≤ (b'.phase s).rank)
    (hsteady : b.Begun s → s ∉ b.guarded → s ∉ settled → b'.phase s = b.phase s) :
    Advances ended settled b b' := by
  refine ⟨hb, ⟨hb.disciplined, ?_, ?_⟩, ?_, ?_⟩
  · intro t ht
    by_cases hts : t = s
    · exact hts ▸ hactive (hts ▸ ht)
    · have hbefore : b.Begun t := hbegun t hts (hb.disciplined.begun t (hb.disciplined.held t ht))
      rw [phase_congr (hrow t hts)]
      refine h.active t ?_
      by_contra hg
      exact hb.guarded t hbefore hg ht
  · intro t ht hgone
    by_cases hts : t = s
    · exact hts ▸ hover (hts ▸ hgone)
    · rw [phase_congr (hrow t hts)]
      exact (h.finished t (hbegun t hts ht) fun hmem => hgone ((hstack t hts).mpr hmem)).imp_left
        fun hd => hd.congr (hrow t hts)
  · intro t
    by_cases hts : t = s
    · exact hts ▸ hforward
    · rw [phase_congr (hrow t hts)]
  · intro t ht hg hown
    by_cases hts : t = s
    · subst hts
      exact hsteady ht hg hown
    · exact phase_congr (hrow t hts)

theorem begun_modifyScope (f : Scope α σ → Scope α σ) :
    (b.modifyScope s f).Begun t ↔ b.Begun t := by
  simp [Begun, modifyScope]

theorem phase_modifyScope {f : Scope α σ → Scope α σ} (hrow : b.scopes.get? s = some scope) :
    (b.modifyScope s f).phase s = (f scope).phase :=
  phase_of_row (by rw [get?_modifyScope, hrow, Option.map_some])

/-- A scope that takes assertions may be changed, if that changes nothing about its phase. -/
theorem progress_modifyScope (hs : b.accepting s = .ok scope) {f : Scope α σ → Scope α σ}
    (hf : (f scope).phase = scope.phase) : Progress b (b.modifyScope s f) := by
  intro h
  obtain ⟨hrow, haccepting⟩ := accepting_eq_ok.mp hs
  have hsame : (b.modifyScope s f).phase s = b.phase s := by
    rw [phase_modifyScope hrow, hf, phase_of_row hrow]
  refine Upholds.advances (s := s) (upkeep_modifyScope hs f h.toDisciplined) h
    (fun _ _ ht => (begun_modifyScope f).mp ht) (fun _ ht => get?_modifyScope_of_ne b f ht)
    (fun _ _ => Iff.rfl) ?_ ?_ (Nat.le_of_eq (congrArg _ hsame.symm)) fun _ _ _ => hsame
  · exact fun hg => hsame.trans (h.active s hg)
  · exact fun hgone => (hgone (h.mem_stack hrow haccepting)).elim

theorem begun_of_beginScope {options : ScopeOptions} (hne : t ≠ b.scopes.next)
    (h : (b.beginScope options).2.Begun t) : b.Begun t := by
  rw [Begun, beginScope_next] at h
  have hindex : t.index ≠ b.scopes.next.index := fun heq => hne (by cases t; simp_all)
  exact Nat.lt_of_le_of_ne (Nat.le_of_lt_succ h) hindex

/-- A scope begins, with its guard stored or not. -/
theorem Upholds.advances_begin {options : ScopeOptions} (hb : Upholds [] [] b b') (h : b.Orderly)
    (hstack : b'.stack = b.scopes.next :: b.stack)
    (hscopes : b'.scopes = (b.beginScope options).2.scopes) : Advances [] [] b b' := by
  have hrow : b'.scopes.get? b.scopes.next = some (Scope.begun b.clocks.next options) := by
    rw [hscopes, beginScope_row]
  refine hb.advances (s := b.scopes.next) h (fun t ht hbegun => ?_) (fun t ht => ?_)
    (fun t ht => ?_)
    (fun _ => phase_of_row hrow) (fun hgone => ?_) ?_ (fun hs => (Nat.lt_irrefl _ hs).elim)
  · rw [Begun, hscopes] at hbegun
    exact begun_of_beginScope ht hbegun
  · rw [hscopes, get?_beginScope_of_ne options ht]
  · simp [hstack, ht]
  · simp [hstack] at hgone
  · rw [phase, Table.get?_next]
    exact Nat.zero_le _

theorem progress_beginScope (b : Bench α σ) (options : ScopeOptions) :
    Progress b (b.beginScope options).2 := fun h =>
  (upkeep_beginScope b options h.toDisciplined).advances_begin h rfl rfl

theorem progress_note (b : Bench α σ) (e : Entry α) : Progress b (b.note e) :=
  progress_aside rfl rfl (List.Sublist.refl _)

theorem progress_register (b : Bench α σ) (s : ScopeRef) (t : VirtualTime) (a : Assertion α σ) :
    Progress b (b.register s t a).2 := by
  rw [register]
  split
  · exact refl_of Progress b
  next scope hs => exact trans_of Progress (progress_modifyScope hs rfl) (progress_note _ _)

/-- A plain change leaves every phase as it is, or begins a scope. -/
theorem Plain.progress (h : Plain b b') : Progress b b' := by
  have haside : ∀ {b b' : Bench α σ}, b'.scopes = b.scopes → b'.stack = b.stack →
      b'.guarded = b.guarded → Progress b b' := fun hscopes hstack hguarded =>
    progress_aside hscopes hstack (hguarded ▸ List.Sublist.refl _)
  cases h with
  | rename hguards => exact haside rfl rfl (by simp [guarded, hguards])
  | start h =>
    obtain ⟨clocks, log, rfl⟩ := next?_rest h
    exact haside rfl rfl rfl
  | addSource temperature c events =>
    exact keeps_addSource _ temperature c events (haside rfl rfl rfl) fun _ _ _ =>
      haside rfl rfl rfl
  | attach s o =>
    exact keeps_attach _ s o (haside rfl rfl rfl) (fun _ _ _ _ => haside rfl rfl rfl)
      fun _ _ _ _ => haside rfl rfl rfl
  | beginScope options => exact progress_beginScope _ options
  | register s t a => exact progress_register _ s t a
  | extend h => exact progress_modifyScope h rfl
  | note => exact haside rfl rfl rfl
  | addClock => exact haside rfl rfl rfl
  | schedule => exact haside rfl rfl rfl
  | park => exact haside rfl rfl rfl
  | addRecorder => exact haside rfl rfl rfl
  | record => exact haside rfl rfl rfl
  | detach => exact haside rfl rfl rfl
  | hold => exact haside rfl rfl rfl
  | addProbe => exact haside rfl rfl rfl
  | stamp => exact haside rfl rfl rfl
  | addListener => exact haside rfl rfl rfl
  | hear => exact haside rfl rfl rfl
  | addSubscription => exact haside rfl rfl rfl
  | deactivate => exact haside rfl rfl rfl
  | close => exact haside rfl rfl rfl

instance : Allows (Progress (α := α) (σ := σ)) where
  plain := Plain.progress

/-- A scope off the stack, whether over or left at its end, changes no more. -/
theorem Orderly.stays (h : b.Orderly) (hs : b.Begun s) (hgone : s ∉ b.stack)
    (hb : Upholds [] [] b b') : b'.scopes.get? s = b.scopes.get? s ∧ s ∉ b'.stack := by
  have hg : s ∉ b.guarded := fun hmem => hgone (h.held s hmem)
  obtain ⟨scope, hrow⟩ := hs.exists_row
  have hclosed : scope.phase.isAccepting = false := by
    rw [← phase_of_row hrow]
    rcases h.finished s hs hgone with hdisposed | hending
    · rw [hdisposed.phase]
      rfl
    · rw [hending]
      rfl
  refine ⟨?_, fun hmem => hgone ((hb.stack s hs hg (by simp)).mp hmem)⟩
  rw [hb.row s scope hrow hclosed hg (by simp), hrow]

/-! ### The end of a scope -/

/-- Whoever has the guard of an open scope may take the scope on. -/
theorem advances_modifyScope (h : b.Orderly) (hs : s ∈ b.stack) (hg : s ∉ b.guarded)
    (hrow : b.scopes.get? s = some scope) {f : Scope α σ → Scope α σ}
    (hf : scope.phase.rank ≤ (f scope).phase.rank) : Advances [] [s] b (b.modifyScope s f) := by
  have hupholds := settles_modifyScope b s f h.toDisciplined (begun_of_row hrow) hg
  refine Upholds.advances (s := s) hupholds h (fun _ _ ht => (begun_modifyScope f).mp ht)
    (fun _ ht => get?_modifyScope_of_ne b f ht) (fun _ _ => Iff.rfl) (fun hmem => (hg hmem).elim)
    (fun hgone => (hgone hs).elim) ?_ (fun _ _ hown => (hown (by simp)).elim)
  rwa [phase_modifyScope hrow, phase_of_row hrow]

/-- A scope leaves the stack once it is over or has been left at its end. -/
theorem advances_removeScope (h : b.Orderly) (hg : s ∉ b.guarded)
    (hover : b.Disposed s ∨ b.phase s = .ending) : Advances [s] [s] b (b.removeScope s) := by
  refine Upholds.advances (s := s) (upholds_removeScope h.toDisciplined hg) h (fun _ _ ht => ht)
    (fun _ _ => rfl) (fun t ht => ?_) (fun hmem => (hg hmem).elim) (fun _ => hover) (Nat.le_refl _)
    (fun _ _ _ => rfl)
  exact List.mem_erase_of_ne ht

theorem disposed_abandon (hs : b.Begun s) (reason : ScopeId → Nat → Report) :
    (b.abandon s reason).Disposed s := by
  obtain ⟨scope, hrow⟩ := hs.exists_row
  refine ⟨{ scope with phase := .disposed, pending := [] }, ?_, rfl, rfl⟩
  rw [(givenUp_abandon b s reason).scope, hrow]
  rfl

/-- A scope that is given up is over. -/
theorem advances_abandon (h : b.Orderly) (hs : b.Begun s) (hg : s ∉ b.guarded)
    (reason : ScopeId → Nat → Report) : Advances [s] [s] b (b.abandon s reason) := by
  have hgiven := givenUp_abandon b s reason
  have hdisposed := disposed_abandon hs reason
  refine Upholds.advances (s := s) (upholds_abandon h.toDisciplined hg reason) h
    (fun _ _ ht => (begun_modifyScope _).mp ht) hgiven.others (fun t ht => ?_)
    (fun hmem => (hg hmem).elim) (fun _ => Or.inl hdisposed) ?_
    (fun _ _ hown => (hown (by simp)).elim)
  · rw [hgiven.stack]
    exact List.mem_erase_of_ne ht
  · rw [hdisposed.phase]
    exact Phase.rank_le_disposed _

end Bench

namespace Engine

open Bench

/-- A body that has a scope open leaves its phase alone; a panic in it gives the scope up. -/
theorem advances_body {m : Run α σ (Except Error ρ)} (hm : Run.Keeps Progress m) (h : b.Orderly)
    (hs : b.Begun s) (hg : s ∉ b.guarded) :
    Advances [s] [s] b (m.onPanic (·.abandon s .abandonedInPanic) b).2 := by
  have hran : Advances [] [] b (m b).2 := hm b h
  have hwidened : Advances [s] [s] b (m b).2 := hran.mono (by simp) (by simp)
  rcases hout : m b with ⟨outcome | message | _, b'⟩ <;> rw [hout] at hran hwidened <;>
    simp only [Run.onPanic, hout]
  · exact hwidened
  · exact hwidened.trans
      (advances_abandon hran.orderly (hran.begun s hs) (hran.guarded s hs hg) _)
  · exact hwidened

/-- What a scope is left as when its end is broken off: it still has all its assertions if the drive
of its clock was broken off, and none if their check was. -/
def leftover (E : Engine α σ) (s : ScopeRef) (scope : Scope α σ) (b : Bench α σ) : Scope α σ :=
  match (E.advanceTo scope.clock scope.horizon (closing s scope.horizon b)).1 with
  | .done _ => { scope with phase := .ending, pending := [] }
  | _ => { scope with phase := .ending }

theorem leftover_phase (E : Engine α σ) (s : ScopeRef) (scope : Scope α σ) (b : Bench α σ) :
    (E.leftover s scope b).phase = .ending := by
  rw [leftover]
  split <;> rfl

variable [Shown α] {E : Engine α σ}

/-- What becomes of an active scope, and of the others, when its guard is used up. -/
structure Leaves (E : Engine α σ) (s : ScopeRef) (scope : Scope α σ) (b : Bench α σ)
    (outcome : Outcome (Except Error Unit)) (b' : Bench α σ) : Prop where
  advances : Advances [s] [s] b b'
  gone : s ∉ b'.stack
  disposed : ∀ answer, outcome = .done answer → b'.Disposed s
  broken : (∀ answer, outcome ≠ .done answer) → b'.scopes.get? s = some (E.leftover s scope b)

/-- The clock is driven first, and then the assertions are checked, unless the drive is broken
off. -/
theorem judge_cases (s : ScopeRef) (hrow : b.scopes.get? s = some scope) :
    (∃ b₁, E.advanceTo scope.clock scope.horizon (closing s scope.horizon b) = (.done (), b₁) ∧
        E.judge s b =
          E.outcomes s scope.options.grid 0 (((b₁.scopes.get? s).map (·.pending)).getD [])
            (b₁.modifyScope s fun scope => { scope with pending := [] })) ∨
      (E.judge s b).2 =
          (E.advanceTo scope.clock scope.horizon (closing s scope.horizon b)).2 ∧
        (∀ os, (E.judge s b).1 ≠ .done os) ∧
        ∀ r, (E.advanceTo scope.clock scope.horizon (closing s scope.horizon b)).1 ≠ .done r := by
  have hjudge : E.judge s b = (E.advanceTo scope.clock scope.horizon >>= fun _ => do
      let pending ← Run.read fun b => ((b.scopes.get? s).map (·.pending)).getD []
      Run.update (·.modifyScope s fun scope => { scope with pending := [] })
      E.outcomes s scope.options.grid 0 pending) (closing s scope.horizon b) := by
    simp only [judge, Run.update_bind, Run.read_bind, Run.note_bind, get?_modifyScope, hrow,
      Option.map_some]
    rfl
  rw [hjudge]
  rcases hdrive : E.advanceTo scope.clock scope.horizon (closing s scope.horizon b) with
    ⟨r | message | _, b₁⟩
  · exact Or.inl ⟨b₁, rfl, by rw [Run.bind_done hdrive]; rfl⟩
  · right
    simp [bind, hdrive]
  · right
    simp [bind, hdrive]

/-- Judging an open scope takes it to its end and leaves it there, whatever comes of it. -/
theorem advances_judge (hP : E.Respects Progress) (h : b.Orderly) (hs : s ∈ b.stack)
    (hg : s ∉ b.guarded) (hrow : b.scopes.get? s = some scope) (ha : scope.phase = .active) :
    Advances [] [s] b (E.judge s b).2 ∧
      (E.judge s b).2.scopes.get? s = some (E.leftover s scope b) ∧
      ∀ os, (E.judge s b).1 = .done os → (E.leftover s scope b).pending = [] := by
  have hmarked : Advances [] [s] b (b.modifyScope s fun scope => { scope with phase := .ending }) :=
    advances_modifyScope h hs hg hrow (by simp [ha, Phase.rank])
  have hclosing : Advances [] [s] b (closing s scope.horizon b) :=
    hmarked.trans ((progress_note _ _ hmarked.orderly).mono (List.Subset.refl _) (by simp))
  have hclosed := closed_closing h.toDisciplined hrow hg scope.horizon
  have hdriven := respects_advanceTo hP scope.clock scope.horizon _ hclosing.orderly
  have hreached := hclosing.trans (hdriven.mono (List.Subset.refl _) (by simp))
  have hstays := hclosed.upkeep hdriven.upkeep
  rcases judge_cases (E := E) s hrow with ⟨b₁, hdone, hjudge⟩ | ⟨hbench, hnever, hbroken⟩
  · rw [hdone] at hreached hstays
    have hopen : s ∈ b₁.stack :=
      (hreached.stack s (begun_of_row hrow) hg (by simp)).mpr hs
    have hchecking : Advances [] [s] b₁
        (b₁.modifyScope s fun scope => { scope with pending := [] }) :=
      advances_modifyScope hreached.orderly hopen hstays.unguarded hstays.row (Nat.le_refl _)
    have hclosed₁ := closed_modifyScope hstays.disciplined hstays.row hstays.unguarded
      (f := fun scope => { scope with pending := [] }) hstays.closed
    have hchecked := respects_outcomes hP s scope.options.grid 0
      (((b₁.scopes.get? s).map (·.pending)).getD []) _ hchecking.orderly
    have hleft : E.leftover s scope b = { scope with phase := .ending, pending := [] } := by
      rw [leftover, hdone]
    rw [hjudge, hleft]
    exact ⟨(hreached.trans hchecking).trans (hchecked.mono (List.Subset.refl _) (by simp)),
      (hclosed₁.upkeep hchecked.upkeep).row, fun _ _ => rfl⟩
  · have hleft : E.leftover s scope b = { scope with phase := .ending } := by
      rw [leftover]
      split
      next r hr => exact (hbroken r hr).elim
      · rfl
    rw [hbench, hleft]
    exact ⟨hreached, hstays.row, fun os hos => (hnever os hos).elim⟩

/-- A scope that cannot be judged to the end is left where its judgement broke off. -/
theorem settle_of_not_judged (hrow : b.scopes.get? s = some scope)
    (h : ∀ os, (E.judge s b).1 ≠ .done os) :
    (E.settle s b).2 = (E.judge s b).2 ∧ ∀ answer, (E.settle s b).1 ≠ .done answer := by
  refine ⟨?_, fun answer hsettle => ?_⟩
  · simp only [settle, Attempt.update_bind, Attempt.read_bind, Attempt.note_bind, get?_modifyScope,
      hrow, Option.map_some]
    rcases judge_cases (E := E) s hrow with ⟨b₁, hdone, hjudge⟩ | ⟨hbench, -, hbroken⟩
    · rw [hjudge] at h ⊢
      have hverify : ∀ failures, (E.verifyAll s scope.options.grid 0
          (((b₁.scopes.get? s).map (·.pending)).getD [])
          (b₁.modifyScope s fun scope => { scope with pending := [] })).1 ≠ .done failures := by
        intro failures hdone
        rw [verifyAll_eq] at hdone
        obtain ⟨os, b₂, hout, -⟩ := Run.bind_eq_done (Prod.ext hdone rfl)
        exact h os (congrArg Prod.fst hout)
      rw [← closing, Attempt.bind_ok (Attempt.lift_done hdone), Attempt.read_bind,
        Attempt.update_bind, Attempt.lift_bind_of_ne_done hverify, verifyAll_eq, Run.bind_pure_snd]
    · rw [← closing, Attempt.lift_bind_of_ne_done hbroken, hbench]
  · obtain ⟨os, b', hjudge, -⟩ := (settle_eq_done hrow).mp hsettle
    exact h os (congrArg Prod.fst hjudge)

/-- However the settling of an open scope ends, the scope is over or at its end. -/
theorem advances_settle (hP : E.Respects Progress) (h : b.Orderly) (hs : s ∈ b.stack)
    (hg : s ∉ b.guarded) (hrow : b.scopes.get? s = some scope) (ha : scope.phase = .active) :
    Advances [] [s] b (E.settle s b).2 ∧
      (∀ answer, (E.settle s b).1 = .done answer → (E.settle s b).2.Disposed s) ∧
      ((∀ answer, (E.settle s b).1 ≠ .done answer) →
        (E.settle s b).2.scopes.get? s = some (E.leftover s scope b)) := by
  obtain ⟨hjudged, hleft, hchecked⟩ := advances_judge hP h hs hg hrow ha
  by_cases hdone : ∃ os, (E.judge s b).1 = .done os
  · obtain ⟨os, hos⟩ := hdone
    have hsettle := settle_of_judge hrow (Prod.ext hos rfl : E.judge s b = (.done os, _))
    have hopen : s ∈ (E.judge s b).2.stack :=
      (hjudged.stack s (begun_of_row hrow) hg (by simp)).mpr hs
    have hmarked : Advances [] [s] (E.judge s b).2
        ((E.judge s b).2.modifyScope s fun scope => { scope with phase := .disposed }) :=
      advances_modifyScope hjudged.orderly hopen
        (hjudged.guarded s (begun_of_row hrow) hg) hleft (Phase.rank_le_disposed _)
    have hconcluded : Advances [] [s] (E.judge s b).2 (concluded s os (E.judge s b).2) :=
      hmarked.trans ((progress_note _ _ hmarked.orderly).mono (List.Subset.refl _) (by simp))
    rw [hsettle]
    refine ⟨hjudged.trans hconcluded, fun _ _ => ?_, fun hne => (hne _ rfl).elim⟩
    refine ⟨{ E.leftover s scope b with phase := .disposed }, ?_, rfl, hchecked os hos⟩
    change ((E.judge s b).2.modifyScope s _).scopes.get? s = _
    rw [get?_modifyScope, hleft]
    rfl
  · obtain ⟨hbench, hnever⟩ := settle_of_not_judged hrow fun os hos => hdone ⟨os, hos⟩
    rw [hbench]
    exact ⟨hjudged, fun answer hanswer => (hnever answer hanswer).elim, fun _ => hleft⟩

/-- However the attempt to end an open scope ends, it leaves the stack. -/
theorem leaves_relinquished (hP : E.Respects Progress) (h : b.Orderly) (hs : s ∈ b.stack)
    (hg : s ∉ b.guarded) (hrow : b.scopes.get? s = some scope) (ha : scope.phase = .active) :
    E.Leaves s scope b ((E.endInnermost s).result b).1
      (relinquish s ((E.endInnermost s).result b).1 ((E.endInnermost s).result b).2) := by
  have hbegun := begun_of_row hrow
  cases hstack : b.stack with
  | nil => simp [hstack] at hs
  | cons t rest =>
    by_cases hts : t = s
    · subst hts
      obtain ⟨hsettled, hdisposed, hbroken⟩ := advances_settle hP h hs hg hrow ha
      have hg₁ := hsettled.guarded t hbegun hg
      have hover : (E.settle t b).2.Disposed t ∨ (E.settle t b).2.phase t = .ending := by
        by_cases hdone : ∃ answer, (E.settle t b).1 = .done answer
        · exact Or.inl (hdisposed _ hdone.choose_spec)
        · right
          rw [phase_of_row (hbroken fun answer hanswer => hdone ⟨answer, hanswer⟩), leftover_phase]
      have hremoved := advances_removeScope hsettled.orderly hg₁ hover
      have hended := (hsettled.mono (by simp) (List.Subset.refl _)).trans hremoved
      have hgone := hsettled.orderly.not_mem_removeScope t
      rw [endInnermost_top hstack]
      rcases relinquish_cases t (E.settle t b).1 ((E.settle t b).2.removeScope t) with he | he
      · rw [he]
        exact ⟨hended, hgone, hdisposed, hbroken⟩
      · have hgiven := advances_abandon hended.orderly (hended.begun t hbegun)
          (hended.guarded t hbegun hg) .abandonedOutOfOrder
        refine ⟨he ▸ hended.trans hgiven, he ▸ hended.orderly.not_mem_abandon t _,
          fun _ _ => he ▸ disposed_abandon (hended.begun t hbegun) _, fun hne => ?_⟩
        rw [relinquish_of_ne_done hne]
        exact hbroken hne
    · rw [endInnermost_other hstack hts]
      exact ⟨advances_abandon h hbegun hg _, h.not_mem_abandon s _,
        fun _ _ => disposed_abandon hbegun _, fun hne => (hne _ rfl).elim⟩

theorem endScope_fst (s : ScopeRef) (b : Bench α σ) :
    (E.endScope s b).1 = ((E.endInnermost s).result b).1 := by
  rcases hout : (E.endInnermost s).result b with ⟨outcome | message | _, b'⟩
  · have hgive := Attempt.lift_done (giveUpIfUnbalanced_eq s outcome b')
    rw [endScope, Attempt.bind_ok (Attempt.lift_done hout), Attempt.bind_ok hgive]
    rfl
  · rw [endScope, Attempt.bind_panicked (Attempt.lift_panicked hout)]
  · have hlift : Attempt.lift (E.endInnermost s).result b = (.exhausted, b') := by
      simp [Attempt.lift, bind, hout]
    simp [endScope, bind, Attempt.next, hlift]

/-- A guard that is used up by ending its scope, -/
theorem leaves_endScope (hP : E.Respects Progress) (h : b.Orderly) (hs : s ∈ b.stack)
    (hg : s ∉ b.guarded) (hrow : b.scopes.get? s = some scope) (ha : scope.phase = .active) :
    E.Leaves s scope b (E.endScope s b).1 (E.endScope s b).2 := by
  rw [endScope_fst, endScope_snd]
  exact leaves_relinquished hP h hs hg hrow ha

/-- or by letting go of it: a failure panics then, but leaves the same behind. -/
theorem dropScope_eq_endScope (s : ScopeRef) (b : Bench α σ) :
    (E.dropScope s b).2 = (E.endScope s b).2 := by
  rw [dropScope_snd, endScope_snd]

/-- A body that comes to its end is followed by the end of its scope. -/
theorem within_of_done (options : ScopeOptions) {body : ScopeRef → Attempt α σ ρ}
    {outcome : Except Error ρ}
    (h : body b.scopes.next (b.beginScope options).2 = (.done outcome, b')) :
    (E.within options body b).2 = (E.endScope b.scopes.next b').2 ∧
      ∀ answer, (E.within options body b).1 = .done answer →
        ∃ ended, (E.endScope b.scopes.next b').1 = .done ended := by
  have hbody : ((body b.scopes.next).result.onPanic (·.abandon b.scopes.next .abandonedInPanic))
      (b.beginScope options).2 = (.done outcome, b') := by
    rw [Run.onPanic, Attempt.result, h]
  rw [within, Attempt.change_bind, beginScope_ref, Attempt.bind_ok (Attempt.lift_done hbody)]
  refine ⟨Attempt.lift_check_snd _ _ _, fun answer hdone => ?_⟩
  obtain ⟨ended, b'', hended, -⟩ := Attempt.lift_bind_eq_done (Prod.ext hdone rfl)
  exact ⟨ended, congrArg Prod.fst hended⟩

/-- A body that breaks off leaves its scope to be given up, if it panics, and to nobody else. -/
theorem within_of_broken (options : ScopeOptions) {body : ScopeRef → Attempt α σ ρ}
    (h : ∀ outcome, (body b.scopes.next (b.beginScope options).2).1 ≠ .done outcome) :
    (E.within options body b).2 = ((body b.scopes.next).result.onPanic
        (·.abandon b.scopes.next .abandonedInPanic) (b.beginScope options).2).2 ∧
      ∀ answer, (E.within options body b).1 ≠ .done answer := by
  have hbroken : ∀ r, ((body b.scopes.next).result.onPanic
      (·.abandon b.scopes.next .abandonedInPanic) (b.beginScope options).2).1 ≠ .done r :=
    fun r hr => h r (congrArg Prod.fst (Run.onPanic_eq_done (Prod.ext hr rfl)))
  rw [within, Attempt.change_bind, beginScope_ref]
  refine ⟨Attempt.lift_bind_of_ne_done hbroken _, fun answer hdone => ?_⟩
  obtain ⟨r, b'', hr, -⟩ := Attempt.lift_bind_eq_done (Prod.ext hdone rfl)
  exact hbroken r (congrArg Prod.fst hr)

/-- How a scope ends that is begun for a body to run in. -/
structure Inside (E : Engine α σ) (options : ScopeOptions) (body : ScopeRef → Attempt α σ ρ)
    (b : Bench α σ) : Prop where
  advances : Advances [] [] b (E.within options body b).2
  /-- If all comes to its end, the scope is over, -/
  done : ∀ answer, (E.within options body b).1 = .done answer →
    (E.within options body b).2.Disposed b.scopes.next
  /-- and so it is if the body panics. -/
  panicked : ∀ message, (body b.scopes.next (b.beginScope options).2).1 = .panicked message →
    (E.within options body b).2.Disposed b.scopes.next

theorem inside_within (hP : E.Respects Progress) (options : ScopeOptions)
    {body : ScopeRef → Attempt α σ ρ} (hbody : ∀ s, Attempt.Keeps Progress (body s))
    (h : b.Orderly) : E.Inside options body b := by
  have hopened : Advances [] [] b (b.beginScope options).2 := progress_beginScope b options h
  have hopen : b.scopes.next ∈ (b.beginScope options).2.stack := by simp
  have hbegun := hopened.orderly.begun _ hopen
  have hg : b.scopes.next ∉ (b.beginScope options).2.guarded := h.next_not_guarded
  have hnew : b.Begun b.scopes.next → b.scopes.next ∈ b.guarded :=
    fun hs => (Nat.lt_irrefl _ hs).elim
  have hran := advances_body (hbody b.scopes.next) hopened.orderly hbegun hg
  rcases hout : body b.scopes.next (b.beginScope options).2 with ⟨outcome, b₂⟩
  by_cases hdone : ∃ r, outcome = .done r
  · obtain ⟨r, rfl⟩ := hdone
    obtain ⟨hbench, hends⟩ := within_of_done (E := E) options hout
    have hkept : Advances [] [] (b.beginScope options).2 b₂ := by
      have := hbody b.scopes.next (b.beginScope options).2 hopened.orderly
      rwa [Attempt.result, hout] at this
    have hopen₂ : b.scopes.next ∈ b₂.stack := (hkept.stack _ hbegun hg (by simp)).mpr hopen
    have hg₂ := hkept.guarded _ hbegun hg
    obtain ⟨scope, hrow⟩ := (hkept.begun _ hbegun).exists_row
    have hactive : scope.phase = .active := by
      rw [← phase_of_row hrow, hkept.steady _ hbegun hg (by simp),
        phase_of_row (beginScope_row b options)]
      rfl
    have hleaves := leaves_endScope hP hkept.orderly hopen₂ hg₂ hrow hactive
    refine ⟨hopened.use hnew ?_, fun answer hanswer => ?_, fun message hm => ?_⟩
    · rw [hbench]
      exact (hkept.mono (by simp) (by simp)).trans hleaves.advances
    · obtain ⟨ended, hended⟩ := hends answer hanswer
      rw [hbench]
      exact hleaves.disposed ended hended
    · rw [hout] at hm
      cases hm
  · have hne : ∀ r, (body b.scopes.next (b.beginScope options).2).1 ≠ .done r := by
      intro r hr
      rw [hout] at hr
      exact hdone ⟨r, hr⟩
    obtain ⟨hbench, hnever⟩ := within_of_broken (E := E) options hne
    refine ⟨hopened.use hnew (hbench ▸ hran), fun answer hanswer => (hnever answer hanswer).elim,
      fun message hm => ?_⟩
    have hkept := hbody b.scopes.next (b.beginScope options).2 hopened.orderly
    rw [Attempt.result, hout] at hkept
    rw [hout] at hm
    rw [hbench, Run.onPanic, Attempt.result, hout, show outcome = .panicked message from hm]
    exact disposed_abandon (hkept.begun _ hbegun) _

end Engine

end Marble
