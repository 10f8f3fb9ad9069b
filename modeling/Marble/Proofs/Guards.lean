import Marble.Proofs.Reachable
import Marble.Proofs.Verdict

/-! Guards and the stack of open scopes. Whatever client code does with the guards it has, the stack
stays in order, and a scope whose guard is out of its reach stays on the stack or off it. -/
namespace Marble

variable {α σ ρ : Type} {b b' b'' : Bench α σ} {s t : ScopeRef}
  {ended settled : List ScopeRef}

namespace Table

variable {k : Kind} {β : Type}

@[simp] theorem next_modify (tb : Table k β) (r : Ref k) (f : β → β) :
    (tb.modify r f).next = tb.next := by simp [next, modify]

@[simp] theorem next_push (tb : Table k β) (row : β) :
    (tb.push row).next.index = tb.next.index + 1 := by simp [next, push]

end Table

namespace Bench

/-- The scopes whose guards stand under a name, for anyone to use. -/
def guarded (b : Bench α σ) : List ScopeRef := b.names.guards.map (·.2)

/-- Whether a scope has begun. -/
def Begun (b : Bench α σ) (s : ScopeRef) : Prop := s.index < b.scopes.next.index

theorem Begun.exists_row (h : b.Begun s) : ∃ row, b.scopes.get? s = some row := by
  rw [Begun, Table.next] at h
  exact ⟨_, Array.getElem?_eq_getElem h⟩

/-- The stack lists scopes that have begun, the last one first, and among them all whose guards
stand under a name. No scope has two guards. -/
structure Disciplined (b : Bench α σ) : Prop where
  order : b.stack.Pairwise fun s t => t.index < s.index
  begun : ∀ s ∈ b.stack, b.Begun s
  held : ∀ s ∈ b.guarded, s ∈ b.stack
  apart : b.guarded.Nodup

/-- What becomes of the scopes while code runs that has the guards of `ended` in hand and settles
the scopes `settled`. A guard out of reach is being used further out, or has done its work, or is
lost: it does not come back, its scope stays on the stack or off it, and nothing about that scope
changes once it takes no more assertions. -/
structure Upholds (ended settled : List ScopeRef) (b b' : Bench α σ) : Prop where
  disciplined : b'.Disciplined
  begun : ∀ s, b.Begun s → b'.Begun s
  guarded : ∀ s, b.Begun s → s ∉ b.guarded → s ∉ b'.guarded
  stack : ∀ s, b.Begun s → s ∉ b.guarded → s ∉ ended → (s ∈ b'.stack ↔ s ∈ b.stack)
  row : ∀ s row, b.scopes.get? s = some row → row.phase.isAccepting = false → s ∉ b.guarded →
    s ∉ settled → b'.scopes.get? s = some row

/-- What client code does that has no guard in hand to begin with. -/
def Upkeep (b b' : Bench α σ) : Prop := b.Disciplined → Upholds [] [] b b'

/-- What is done while a scope is settled whose guard is in hand. -/
def Settles (s : ScopeRef) (b b' : Bench α σ) : Prop :=
  b.Disciplined → b.Begun s → s ∉ b.guarded → Upholds [] [s] b b'

theorem Disciplined.nodup (h : b.Disciplined) : b.stack.Nodup :=
  h.order.imp fun hlt heq => by simp [heq] at hlt

/-- An open scope that no other one began after is the innermost one. -/
theorem Disciplined.exists_rest (h : b.Disciplined) (hs : s ∈ b.stack)
    (hlast : ∀ t ∈ b.stack, t.index ≤ s.index) : ∃ rest, b.stack = s :: rest := by
  have horder := h.order
  cases hstack : b.stack with
  | nil => simp [hstack] at hs
  | cons top rest =>
    rw [hstack] at hs hlast horder
    rcases List.mem_cons.mp hs with rfl | hs
    · exact ⟨rest, rfl⟩
    · have hbelow := (List.pairwise_cons.mp horder).1 s hs
      exact (Nat.lt_irrefl _ (Nat.lt_of_lt_of_le hbelow (hlast top (by simp)))).elim

/-- A scope that an open one began after is not the innermost one. -/
theorem Disciplined.exists_top (h : b.Disciplined) (ht : t ∈ b.stack)
    (hlt : s.index < t.index) : ∃ top rest, b.stack = top :: rest ∧ top ≠ s := by
  have horder := h.order
  cases hstack : b.stack with
  | nil => simp [hstack] at ht
  | cons top rest =>
    rw [hstack] at ht horder
    refine ⟨top, rest, rfl, ?_⟩
    rintro rfl
    rcases List.mem_cons.mp ht with rfl | ht
    · exact Nat.lt_irrefl _ hlt
    · exact Nat.lt_asymm hlt ((List.pairwise_cons.mp horder).1 t ht)

theorem begun_of_row {row : Scope α σ} (h : b.scopes.get? s = some row) : b.Begun s :=
  (Array.getElem?_eq_some_iff.mp h).1

theorem Upholds.refl (h : b.Disciplined) : Upholds ended settled b b :=
  ⟨h, by simp, by simp, by simp, fun _ _ hrow _ _ _ => hrow⟩

theorem Upholds.trans (h : Upholds ended settled b b') (h' : Upholds ended settled b' b'') :
    Upholds ended settled b b'' where
  disciplined := h'.disciplined
  begun s hs := h'.begun s (h.begun s hs)
  guarded s hs hg := h'.guarded s (h.begun s hs) (h.guarded s hs hg)
  stack s hs hg he := (h'.stack s (h.begun s hs) (h.guarded s hs hg) he).trans (h.stack s hs hg he)
  row s row hrow ha hg he := h'.row s row (h.row s row hrow ha hg he) ha
    (h.guarded s (begun_of_row hrow) hg) he

/-- Having guards in hand, and not using them, makes no difference. -/
theorem Upholds.mono {ended' settled' : List ScopeRef} (h : Upholds ended settled b b')
    (he : ended ⊆ ended') (hs : settled ⊆ settled') : Upholds ended' settled' b b' where
  disciplined := h.disciplined
  begun := h.begun
  guarded := h.guarded
  stack s hbegun hg hown := h.stack s hbegun hg fun hmem => hown (he hmem)
  row s row hrow ha hg hown := h.row s row hrow ha hg fun hmem => hown (hs hmem)

/-- A guard that was within reach at first, or had yet to be made, may well be used later. -/
theorem Upholds.use (h : Upholds [] [] b b') (hs : b.Begun s → s ∈ b.guarded)
    (h' : Upholds [s] [s] b' b'') : Upholds [] [] b b'' := by
  have hne : ∀ t, b.Begun t → t ∉ b.guarded → t ∉ [s] := by
    intro t ht hg hmem
    obtain rfl := List.mem_singleton.mp hmem
    exact hg (hs ht)
  refine ⟨h'.disciplined, fun t ht => h'.begun t (h.begun t ht),
    fun t ht hg => h'.guarded t (h.begun t ht) (h.guarded t ht hg), ?_, ?_⟩
  · intro t ht hg _
    exact (h'.stack t (h.begun t ht) (h.guarded t ht hg) (hne t ht hg)).trans
      (h.stack t ht hg (by simp))
  · intro t row hrow ha hg _
    have ht := begun_of_row hrow
    exact h'.row t row (h.row t row hrow ha hg (by simp)) ha (h.guarded t ht hg) (hne t ht hg)

instance : IsPreorder (Bench α σ) Upkeep where
  refl _ := Upholds.refl
  trans _ _ _ h h' hb := (h hb).trans (h' (h hb).disciplined)

instance : IsPreorder (Bench α σ) (Settles s) where
  refl _ h _ _ := .refl h
  trans _ _ _ h h' hb hs hg := by
    have hfirst := h hb hs hg
    exact hfirst.trans (h' hfirst.disciplined (hfirst.begun s hs) (hfirst.guarded s hs hg))

/-- Changes that leave the stack alone, and may take guards from under their names. -/
theorem upholds_of_sublist (h : b.Disciplined) (hstack : b'.stack = b.stack)
    (hguarded : b'.guarded.Sublist b.guarded) (hnext : b'.scopes.next = b.scopes.next)
    (hrow : ∀ s row, b.scopes.get? s = some row → row.phase.isAccepting = false → s ∉ settled →
      b'.scopes.get? s = some row) : Upholds [] settled b b' := by
  have hbegun : ∀ s, b.Begun s → b'.Begun s := fun s hs => by rwa [Begun, hnext]
  refine ⟨⟨?_, ?_, ?_, h.apart.sublist hguarded⟩, hbegun, ?_, fun s _ _ _ => by rw [hstack],
    fun s row hr ha _ hown => hrow s row hr ha hown⟩
  · rw [hstack]
    exact h.order
  · rw [hstack]
    exact fun s hs => hbegun s (h.begun s hs)
  · rw [hstack]
    exact fun s hs => h.held s (hguarded.subset hs)
  · exact fun s _ hg hmem => hg (hguarded.subset hmem)

theorem upkeep_of_eq (hstack : b'.stack = b.stack) (hguards : b'.names.guards = b.names.guards)
    (hscopes : b'.scopes = b.scopes) : Upkeep b b' := fun h =>
  upholds_of_sublist h hstack (by simp [guarded, hguards]) (by rw [hscopes])
    fun _ _ hrow _ _ => by rw [hscopes, hrow]

theorem get?_modifyScope_of_ne (b : Bench α σ) (f : Scope α σ → Scope α σ) (hne : t ≠ s) :
    (b.modifyScope s f).scopes.get? t = b.scopes.get? t := by
  rw [modifyScope, Table.get?_modify, if_neg (Ne.symm hne)]

/-- A scope that takes assertions may be changed. -/
theorem upkeep_modifyScope {scope : Scope α σ} (hs : b.accepting s = .ok scope)
    (f : Scope α σ → Scope α σ) : Upkeep b (b.modifyScope s f) := by
  obtain ⟨hscope, haccepting⟩ := accepting_eq_ok.mp hs
  refine fun h => upholds_of_sublist h rfl (List.Sublist.refl _) (Table.next_modify ..) ?_
  intro t row hrow ha _
  have hne : t ≠ s := by
    rintro rfl
    rw [hscope] at hrow
    obtain rfl := Option.some.inj hrow
    rw [haccepting] at ha
    cases ha
  rw [get?_modifyScope_of_ne b f hne, hrow]

/-- Whoever has the guard of a scope may change the scope. -/
theorem settles_modifyScope (b : Bench α σ) (s : ScopeRef) (f : Scope α σ → Scope α σ) :
    Settles s b (b.modifyScope s f) := by
  refine fun h _ _ => upholds_of_sublist h rfl (List.Sublist.refl _) (Table.next_modify ..) ?_
  intro t row hrow _ hown
  rw [get?_modifyScope_of_ne b f (by simpa using hown), hrow]

theorem upkeep_schedule (b : Bench α σ) (c : ClockRef) (due : VirtualTime) (a : Action α σ) :
    Upkeep b (b.schedule c due a) := upkeep_of_eq rfl rfl rfl

theorem upkeep_addSource (b : Bench α σ) (temperature : Temperature) (c : ClockRef)
    (events : List (Timed (Signal α))) : Upkeep b (b.addSource temperature c events).2 :=
  keeps_addSource b temperature c events (upkeep_of_eq rfl rfl rfl) fun b' _ _ =>
    upkeep_schedule b' c _ _

theorem upkeep_attach (b : Bench α σ) (s : SourceRef) (o : Observer α) :
    Upkeep b (b.attach s o).2 :=
  keeps_attach b s o (upkeep_of_eq rfl rfl rfl) (fun _ _ _ _ => upkeep_of_eq rfl rfl rfl)
    fun b' c _ _ => upkeep_schedule b' c _ _

@[simp] theorem beginScope_ref (b : Bench α σ) (options : ScopeOptions) :
    (b.beginScope options).1 = b.scopes.next := rfl

@[simp] theorem beginScope_stack (b : Bench α σ) (options : ScopeOptions) :
    (b.beginScope options).2.stack = b.scopes.next :: b.stack := rfl

@[simp] theorem beginScope_names (b : Bench α σ) (options : ScopeOptions) :
    (b.beginScope options).2.names = b.names := rfl

theorem beginScope_next (b : Bench α σ) (options : ScopeOptions) :
    (b.beginScope options).2.scopes.next.index = b.scopes.next.index + 1 := by
  simp [beginScope, addClock, modifyScope, note]

/-- A scope that is yet to begin is neither open nor guarded. -/
theorem Disciplined.next_not_mem (h : b.Disciplined) : b.scopes.next ∉ b.stack :=
  fun hmem => Nat.lt_irrefl _ (h.begun _ hmem)

theorem Disciplined.next_not_guarded (h : b.Disciplined) : b.scopes.next ∉ b.guarded :=
  fun hmem => h.next_not_mem (h.held _ hmem)

theorem upkeep_beginScope (b : Bench α σ) (options : ScopeOptions) :
    Upkeep b (b.beginScope options).2 := by
  intro h
  have hbegun : ∀ s, b.Begun s → (b.beginScope options).2.Begun s := fun s hs => by
    rw [Begun, beginScope_next]
    exact Nat.lt_succ_of_lt hs
  have hne : ∀ s, b.Begun s → s ≠ b.scopes.next := by
    rintro s hs rfl
    exact Nat.lt_irrefl _ hs
  refine ⟨⟨?_, ?_, ?_, h.apart⟩, hbegun, fun s _ hg => hg, ?_, ?_⟩
  · exact List.pairwise_cons.mpr ⟨h.begun, h.order⟩
  · intro s hs
    rcases List.mem_cons.mp hs with rfl | hs
    · rw [Begun, beginScope_next]
      exact Nat.lt_succ_self _
    · exact hbegun s (h.begun s hs)
  · exact fun s hs => List.mem_cons_of_mem _ (h.held s hs)
  · intro s hs _ _
    simp [hne s hs]
  · intro s row hrow _ _ _
    have hs := hne s (begun_of_row hrow)
    change ((b.scopes.push _).modify b.scopes.next _).get? s = some row
    rw [Table.get?_modify, if_neg (Ne.symm hs), Table.get?_push, if_neg hs, hrow]

theorem upkeep_register (b : Bench α σ) (s : ScopeRef) (t : VirtualTime) (a : Assertion α σ) :
    Upkeep b (b.register s t a).2 := by
  rw [register]
  split
  · exact refl_of Upkeep b
  next scope hs =>
    have hnoted : ∀ (b : Bench α σ) (e : Entry α), Upkeep b (b.note e) := fun _ _ =>
      upkeep_of_eq rfl rfl rfl
    exact trans_of Upkeep (upkeep_modifyScope hs _) (hnoted _ _)

/-- A plain change uses no guard: it opens a scope, or leaves the stack as it is. -/
theorem Plain.upkeep (h : Plain b b') : Upkeep b b' := by
  cases h with
  | rename hguards => exact upkeep_of_eq rfl hguards rfl
  | start h =>
    obtain ⟨clocks, log, rfl⟩ := next?_rest h
    exact upkeep_of_eq rfl rfl rfl
  | addSource temperature c events => exact upkeep_addSource b temperature c events
  | attach s o => exact upkeep_attach b s o
  | beginScope options => exact upkeep_beginScope b options
  | register s t a => exact upkeep_register b s t a
  | extend h => exact upkeep_modifyScope h _
  | note => exact upkeep_of_eq rfl rfl rfl
  | addClock => exact upkeep_of_eq rfl rfl rfl
  | schedule => exact upkeep_of_eq rfl rfl rfl
  | park => exact upkeep_of_eq rfl rfl rfl
  | addRecorder => exact upkeep_of_eq rfl rfl rfl
  | record => exact upkeep_of_eq rfl rfl rfl
  | detach => exact upkeep_of_eq rfl rfl rfl
  | hold => exact upkeep_of_eq rfl rfl rfl
  | addProbe => exact upkeep_of_eq rfl rfl rfl
  | stamp => exact upkeep_of_eq rfl rfl rfl
  | addListener => exact upkeep_of_eq rfl rfl rfl
  | hear => exact upkeep_of_eq rfl rfl rfl
  | addSubscription => exact upkeep_of_eq rfl rfl rfl
  | deactivate => exact upkeep_of_eq rfl rfl rfl
  | close => exact upkeep_of_eq rfl rfl rfl

instance : Allows (Upkeep (α := α) (σ := σ)) where
  plain := Plain.upkeep

theorem Upkeep.settles (h : Upkeep b b') : Settles s b b' := fun hb _ _ =>
  (h hb).mono (List.Subset.refl _) (by simp)

instance : Allows (Settles s : Bench α σ → Bench α σ → Prop) where
  plain h := h.upkeep.settles

/-! ### Closing a scope -/

/-- A scope leaves the stack. -/
theorem upholds_erase (h : b.Disciplined) (hg : s ∉ b.guarded) (hstack : b'.stack = b.stack.erase s)
    (hguards : b'.names.guards = b.names.guards) (hnext : b'.scopes.next = b.scopes.next)
    (hrow : ∀ t, t ≠ s → b'.scopes.get? t = b.scopes.get? t) : Upholds [s] [s] b b' := by
  have hguarded : b'.guarded = b.guarded := by rw [guarded, hguards, guarded]
  have hbegun : ∀ t, b.Begun t → b'.Begun t := fun t ht => by rwa [Begun, hnext]
  have hkept : ∀ t, t ≠ s → (t ∈ b'.stack ↔ t ∈ b.stack) := fun t ht => by
    rw [hstack, List.mem_erase_of_ne ht]
  refine ⟨⟨?_, ?_, ?_, ?_⟩, hbegun, fun t _ hg => by rwa [hguarded], ?_, ?_⟩
  · rw [hstack]
    exact h.order.sublist List.erase_sublist
  · intro t ht
    rw [hstack] at ht
    exact hbegun t (h.begun t (List.mem_of_mem_erase ht))
  · intro t ht
    rw [hguarded] at ht
    have hne : t ≠ s := by
      rintro rfl
      exact hg ht
    exact (hkept t hne).mpr (h.held t ht)
  · rw [hguarded]
    exact h.apart
  · exact fun t _ _ hown => hkept t (by simpa using hown)
  · exact fun t row hr _ _ hown => by rw [hrow t (by simpa using hown), hr]

theorem upholds_removeScope (h : b.Disciplined) (hg : s ∉ b.guarded) :
    Upholds [s] [s] b (b.removeScope s) := upholds_erase h hg rfl rfl rfl fun _ _ => rfl

theorem upholds_abandon (h : b.Disciplined) (hg : s ∉ b.guarded)
    (reason : ScopeId → Nat → Report) : Upholds [s] [s] b (b.abandon s reason) :=
  upholds_erase h hg rfl rfl (Table.next_modify ..) fun _ ht => get?_modifyScope_of_ne _ _ ht

theorem Disciplined.not_mem_removeScope (h : b.Disciplined) (s : ScopeRef) :
    s ∉ (b.removeScope s).stack := h.nodup.not_mem_erase

theorem Disciplined.not_mem_abandon (h : b.Disciplined) (s : ScopeRef)
    (reason : ScopeId → Nat → Report) : s ∉ (b.abandon s reason).stack := h.nodup.not_mem_erase

/-- A scope that is given up leaves the stack with nothing to check any more; nothing of it runs, no
clock moves and no other scope changes. -/
structure GivenUp (s : ScopeRef) (b b' : Bench α σ) : Prop where
  stack : b'.stack = b.stack.erase s
  scope : b'.scopes.get? s =
    (b.scopes.get? s).map fun row => { row with phase := .disposed, pending := [] }
  others : ∀ t, t ≠ s → b'.scopes.get? t = b.scopes.get? t
  clocks : b'.clocks = b.clocks
  sources : b'.sources = b.sources
  subscriptions : b'.subscriptions = b.subscriptions
  listeners : b'.listeners = b.listeners
  recorders : b'.recorders = b.recorders
  probes : b'.probes = b.probes
  names : b'.names = b.names
  log : ∃ reason : ScopeId → Nat → Report, b'.log = b.log.push (.report
    (reason s.scopeId (((b.scopes.get? s).map (·.pending.length)).getD 0)))

theorem givenUp_abandon (b : Bench α σ) (s : ScopeRef) (reason : ScopeId → Nat → Report) :
    GivenUp s b (b.abandon s reason) where
  stack := rfl
  scope := get?_modifyScope ..
  others _ ht := get?_modifyScope_of_ne _ _ ht
  clocks := rfl
  sources := rfl
  subscriptions := rfl
  listeners := rfl
  recorders := rfl
  probes := rfl
  names := rfl
  log := ⟨reason, rfl⟩

end Bench

namespace Engine

open Bench

/-- The bench on which the attempt to end a scope has left it, with the scope given up if it must
be. -/
def relinquish (s : ScopeRef) (outcome : Outcome (Except Error Unit)) (b : Bench α σ) :
    Bench α σ :=
  match outcome with
  | .done (.error (.unbalancedScope ..)) => b.abandon s .abandonedOutOfOrder
  | _ => b

theorem giveUpIfUnbalanced_eq (s : ScopeRef) (outcome : Except Error Unit) (b : Bench α σ) :
    giveUpIfUnbalanced s outcome b = (.done (), relinquish s (.done outcome) b) := by
  unfold giveUpIfUnbalanced relinquish
  split
  · rfl
  next hne =>
    split
    next heq =>
      cases heq
      exact (hne _ _ rfl).elim
    · rfl

theorem relinquish_cases (s : ScopeRef) (outcome : Outcome (Except Error Unit)) (b : Bench α σ) :
    relinquish s outcome b = b ∨ relinquish s outcome b = b.abandon s .abandonedOutOfOrder := by
  unfold relinquish
  split
  · exact Or.inr rfl
  · exact Or.inl rfl

theorem relinquish_of_ne_done {outcome : Outcome (Except Error Unit)} (h : ∀ r, outcome ≠ .done r) :
    relinquish s outcome b = b := by
  unfold relinquish
  split
  · exact (h _ rfl).elim
  · rfl

/-- A body that has a scope open stays clear of it; a panic in it gives the scope up. -/
theorem upholds_body {m : Run α σ (Except Error ρ)} (hm : Run.Keeps Upkeep m) (h : b.Disciplined)
    (hs : b.Begun s) (hg : s ∉ b.guarded) :
    Upholds [s] [s] b (m.onPanic (·.abandon s .abandonedInPanic) b).2 := by
  have hran : Upholds [] [] b (m b).2 := hm b h
  rcases hout : m b with ⟨outcome | message | _, b'⟩
  · simp only [Run.onPanic, hout]
    exact (hout ▸ hran).mono (by simp) (by simp)
  · simp only [Run.onPanic, hout]
    rw [hout] at hran
    exact (hran.mono (by simp) (by simp)).trans
      (upholds_abandon hran.disciplined (hran.guarded s hs hg) _)
  · simp only [Run.onPanic, hout]
    exact (hout ▸ hran).mono (by simp) (by simp)

variable [Shown α] {E : Engine α σ}

theorem endInnermost_other {rest : List ScopeRef} (hstack : b.stack = t :: rest) (hne : t ≠ s) :
    (E.endInnermost s).result b =
      (.done (.error (.unbalancedScope s.scopeId t.scopeId)), b) := by
  change (Attempt.read (·.stack) >>= _) b = _
  rw [Attempt.read_bind, hstack]
  exact congrFun (if_neg hne) b

theorem endScope_snd (s : ScopeRef) (b : Bench α σ) :
    (E.endScope s b).2 =
      relinquish s ((E.endInnermost s).result b).1 ((E.endInnermost s).result b).2 := by
  rcases Attempt.lift_bind_cases (E.endInnermost s).result (fun outcome => (do
      Attempt.lift (giveUpIfUnbalanced s outcome)
      Attempt.check fun _ => outcome : Attempt α σ Unit)) b with ⟨outcome, b', h, he⟩ | ⟨he, hne⟩
  · have hgive := Attempt.lift_done (giveUpIfUnbalanced_eq s outcome b')
    rw [endScope, he, Attempt.bind_ok hgive, h]
    rfl
  · rw [endScope, he, relinquish_of_ne_done hne]

theorem dropScope_snd (s : ScopeRef) (b : Bench α σ) :
    (E.dropScope s b).2 =
      relinquish s ((E.endInnermost s).result b).1 ((E.endInnermost s).result b).2 := by
  rcases h : (E.endInnermost s).result b with ⟨outcome | message | _, b'⟩
  · rw [dropScope, Run.bind_done h, Run.bind_done (giveUpIfUnbalanced_eq s outcome b')]
    cases outcome <;> rfl
  · simp [dropScope, bind, h, relinquish]
  · simp [dropScope, bind, h, relinquish]

theorem endScope_other {rest : List ScopeRef} (hstack : b.stack = t :: rest) (hne : t ≠ s) :
    E.endScope s b = (.done (.error (.unbalancedScope s.scopeId t.scopeId)),
      b.abandon s .abandonedOutOfOrder) := by
  have hother := Attempt.lift_done (endInnermost_other (E := E) hstack hne)
  have hgive := Attempt.lift_done (giveUpIfUnbalanced_eq s
    (.error (.unbalancedScope s.scopeId t.scopeId)) b)
  rw [endScope, Attempt.bind_ok hother, Attempt.bind_ok hgive]
  rfl

theorem dropScope_other {rest : List ScopeRef} (hstack : b.stack = t :: rest) (hne : t ≠ s) :
    E.dropScope s b = (.panicked (Error.unbalancedScope s.scopeId t.scopeId).message,
      b.abandon s .abandonedOutOfOrder) := by
  rw [dropScope, Run.bind_done (endInnermost_other hstack hne),
    Run.bind_done (giveUpIfUnbalanced_eq s _ b)]
  rfl

/-- Settling a scope leaves it on the stack, whatever runs meanwhile. -/
theorem upholds_settle (hE : E.Respects Upkeep) (h : b.Disciplined) (hs : b.Begun s)
    (hg : s ∉ b.guarded) : Upholds [] [s] b (E.settle s b).2 := by
  have hsettles : E.Respects (Settles s) := fun f b => (hE f b).settles
  exact respects_settle hsettles s (fun b _ => settles_modifyScope b s _)
    (fun b => settles_modifyScope b s _) b h hs hg

/-- However the attempt to end an open scope ends, only that scope leaves the stack. -/
theorem upholds_relinquished (hE : E.Respects Upkeep) (h : b.Disciplined) (hs : s ∈ b.stack)
    (hg : s ∉ b.guarded) :
    Upholds [s] [s] b (relinquish s ((E.endInnermost s).result b).1
      ((E.endInnermost s).result b).2) ∧
      s ∉ (relinquish s ((E.endInnermost s).result b).1 ((E.endInnermost s).result b).2).stack := by
  cases hstack : b.stack with
  | nil => simp [hstack] at hs
  | cons t rest =>
    by_cases hts : t = s
    · subst hts
      have hsettled := upholds_settle hE h (h.begun t hs) hg
      have hg₁ := hsettled.guarded t (h.begun t hs) hg
      have hremoved := upholds_removeScope hsettled.disciplined hg₁
      have hgone := hsettled.disciplined.not_mem_removeScope t
      have hg₂ := hremoved.guarded t (hsettled.begun t (h.begun t hs)) hg₁
      have hended := (hsettled.mono (by simp) (List.Subset.refl _)).trans hremoved
      rw [endInnermost_top hstack]
      rcases relinquish_cases t (E.settle t b).1 ((E.settle t b).2.removeScope t) with he | he
      · rw [he]
        exact ⟨hended, hgone⟩
      · rw [he]
        exact ⟨hended.trans (upholds_abandon hremoved.disciplined hg₂ _),
          hremoved.disciplined.not_mem_abandon t _⟩
    · rw [endInnermost_other hstack hts]
      exact ⟨upholds_abandon h hg _, h.not_mem_abandon s _⟩

theorem upholds_endScope (hE : E.Respects Upkeep) (h : b.Disciplined) (hs : s ∈ b.stack)
    (hg : s ∉ b.guarded) : Upholds [s] [s] b (E.endScope s b).2 ∧ s ∉ (E.endScope s b).2.stack := by
  rw [endScope_snd]
  exact upholds_relinquished hE h hs hg

theorem upholds_dropScope (hE : E.Respects Upkeep) (h : b.Disciplined) (hs : s ∈ b.stack)
    (hg : s ∉ b.guarded) :
    Upholds [s] [s] b (E.dropScope s b).2 ∧ s ∉ (E.dropScope s b).2.stack := by
  rw [dropScope_snd]
  exact upholds_relinquished hE h hs hg

/-- What runs in a scope of its own cannot get at the guard of that scope. -/
theorem respects_within (hE : E.Respects Upkeep) (options : ScopeOptions)
    {body : ScopeRef → Attempt α σ ρ} (hbody : ∀ s, Attempt.Keeps Upkeep (body s)) :
    Attempt.Keeps Upkeep (E.within options body) := by
  intro b h
  let s := b.scopes.next
  let b₁ := (b.beginScope options).2
  have hopened : Upholds [] [] b b₁ := upkeep_beginScope b options h
  have hopen : s ∈ b₁.stack := by simp [b₁, s]
  have hbegun : b₁.Begun s := hopened.disciplined.begun s hopen
  have hguarded : s ∉ b₁.guarded := h.next_not_guarded
  have hnew : b.Begun s → s ∈ b.guarded := fun hs => (Nat.lt_irrefl _ hs).elim
  have hran := upholds_body (hbody s) hopened.disciplined hbegun hguarded
  refine hopened.use hnew ?_
  let finish : Except Error ρ → Attempt α σ ρ := fun outcome => do
    let ended ← Attempt.lift (E.endScope s).result
    Attempt.check fun _ => do
      let value ← outcome
      ended
      return value
  change Upholds [s] [s] b₁
    ((Attempt.lift ((body s).result.onPanic (·.abandon s .abandonedInPanic)) >>= finish) b₁).2
  rcases Attempt.lift_bind_cases ((body s).result.onPanic (·.abandon s .abandonedInPanic)) finish b₁
    with ⟨outcome, b₂, hm, he⟩ | ⟨he, -⟩
  · have hkept : Upholds [] [] b₁ b₂ := by
      have hbody := hbody s b₁ hopened.disciplined
      rwa [Run.onPanic_eq_done hm] at hbody
    have hopen₂ : s ∈ b₂.stack := (hkept.stack s hbegun hguarded (by simp)).mpr hopen
    have hended := upholds_endScope hE hkept.disciplined hopen₂ (hkept.guarded s hbegun hguarded)
    rw [he, Attempt.lift_check_snd]
    exact (hkept.mono (by simp) (by simp)).trans hended.1
  · rw [he]
    exact hran

end Engine

end Marble
