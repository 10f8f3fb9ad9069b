import Marble.Proofs.Roster

/-! How the rosters of the hot sources change: by new subscriptions and by the end of old ones, and
by nothing else that is done to a bench. -/
namespace Marble

variable {α σ : Type} {b b' : Bench α σ} {s t : SourceRef} {r r' : SubscriptionRef}
  {source source' row : Source α} {o : Observer α} {e : Nat}

namespace Bench

/-! ### A new subscription -/

theorem leaves?_addSubscription (b : Bench α σ) (t : Teardown σ) (r : SubscriptionRef) :
    (b.addSubscription t).2.leaves? r =
      if r = b.subscriptions.next then t.leaves? else b.leaves? r := by
  simp only [leaves?, addSubscription, Table.get?_push]
  split <;> rfl

theorem isActive_addSubscription (b : Bench α σ) (t : Teardown σ) (r : SubscriptionRef) :
    (b.addSubscription t).2.isActive r =
      if r = b.subscriptions.next then true else b.isActive r := by
  simp only [isActive, addSubscription, Table.get?_push]
  split <;> rfl

theorem subscribers_addSubscription (b : Bench α σ) (t : Teardown σ) (s : SourceRef) :
    (b.addSubscription t).2.subscribers s =
      b.subscribers s ++ if t.leaves?.any (·.1 == s) then [b.subscriptions.next] else [] := by
  have hrefs : (b.addSubscription t).2.subscriptions.refs =
      b.subscriptions.refs ++ [b.subscriptions.next] := Table.refs_push _ _
  rw [subscribers, hrefs, List.filter_append]
  congr 1
  · refine List.filter_congr fun r hr => ?_
    have hne : r ≠ b.subscriptions.next := Table.ne_next (Table.mem_refs.mp hr)
    rw [leaves?_addSubscription, isActive_addSubscription, if_neg hne, if_neg hne]
  · simp only [List.filter_cons, List.filter_nil, leaves?_addSubscription, isActive_addSubscription,
      if_pos, Bool.true_and]

/-- A subscription that belongs to no source. -/
theorem retaining_addSubscription (b : Bench α σ) {t : Teardown σ} (ht : t.leaves? = none) :
    Retaining b (b.addSubscription t).2 := by
  intro h
  refine h.retains_aside (fun _ _ hs => hs) (fun _ _ hs => Or.inl hs) (fun s => ?_) ?_ ?_ ?_
  · simp [subscribers_addSubscription, ht]
  · simp [addSubscription, Table.next, Table.push]
  · funext r
    rw [leaves?_addSubscription]
    split
    next hr =>
      subst hr
      simp [ht, leaves?, Table.get?_next]
    · rfl
  · intro r hr ha
    rwa [isActive_addSubscription, if_neg (Table.ne_next hr)] at ha

theorem leaves?_enlist (r : SubscriptionRef) :
    (b.enlist s source source').leaves? r =
      if r = b.subscriptions.next then some (s, source.log.length) else b.leaves? r :=
  leaves?_addSubscription b (.leave s source.log.length) r

theorem isActive_enlist (r : SubscriptionRef) :
    (b.enlist s source source').isActive r =
      if r = b.subscriptions.next then true else b.isActive r :=
  isActive_addSubscription b (.leave s source.log.length) r

theorem subscribers_enlist (t : SourceRef) :
    (b.enlist s source source').subscribers t =
      b.subscribers t ++ if s = t then [b.subscriptions.next] else [] := by
  change (b.addSubscription _).2.subscribers t = _
  rw [subscribers_addSubscription]
  by_cases hst : s = t <;> simp [Teardown.leaves?, hst]

theorem get?_enlist (hs : b.sources.get? s = some source) (t : SourceRef) :
    (b.enlist s source source').sources.get? t =
      if s = t then some source' else b.sources.get? t := by
  simp only [enlist, Table.get?_modify]
  by_cases hst : s = t
  · subst hst
    simp [hs]
  · rw [if_neg hst, if_neg hst]

theorem exists_enlist (hs : b.sources.get? s = some source) (hentry : Enters source source' o)
    (hrow : b.sources.get? t = some row) :
    ∃ row', (b.enlist s source source').sources.get? t = some row' ∧
      row'.temperature = row.temperature ∧ row.log.length ≤ row'.log.length := by
  rw [get?_enlist hs]
  by_cases hst : s = t
  · subst hst
    obtain rfl : source = row := Option.some.inj (hs.symm.trans hrow)
    exact ⟨source', if_pos rfl, hentry.temperature, by rw [hentry.log]; exact Nat.le_succ _⟩
  · exact ⟨row, by rw [if_neg hst, hrow], rfl, Nat.le_refl _⟩

/-- The log entry of a new subscription is nobody else's. -/
theorem Rostered.leaves?_ne (h : b.Rostered) (hs : b.sources.get? s = some source)
    (r : SubscriptionRef) : b.leaves? r ≠ some (s, source.log.length) := by
  intro hr
  obtain ⟨row, hrow, hlt⟩ := h.entries r s _ hr
  obtain rfl : source = row := Option.some.inj (hs.symm.trans hrow)
  exact Nat.lt_irrefl _ hlt

theorem Rostered.enlist (h : b.Rostered) (hs : b.sources.get? s = some source)
    (hentry : Enters source source' o) : (b.enlist s source source').Rostered where
  entries r t e he := by
    rw [leaves?_enlist] at he
    split at he
    · obtain ⟨rfl, rfl⟩ := Prod.mk.inj (Option.some.inj he)
      exact ⟨source', by rw [get?_enlist hs, if_pos rfl],
        hentry.log ▸ Nat.lt_succ_self _⟩
    · obtain ⟨row, hrow, hlt⟩ := h.entries r t e he
      obtain ⟨row', hrow', -, hle⟩ := exists_enlist hs hentry hrow
      exact ⟨row', hrow', Nat.lt_of_lt_of_le hlt hle⟩
  apart r r' x hr hr' := by
    rw [leaves?_enlist] at hr hr'
    split at hr <;> split at hr'
    next h₁ h₂ => rw [h₁, h₂]
    next => exact (h.leaves?_ne hs r' (hr'.trans hr.symm)).elim
    next => exact (h.leaves?_ne hs r (hr.trans hr'.symm)).elim
    next => exact h.apart r r' x hr hr'
  attached t row hrow hhot := by
    have hkept : (b.subscribers t).map (b.enlist s source source').leaves? =
        (b.subscribers t).map b.leaves? := by
      refine List.map_congr_left fun r hr => ?_
      have hold := lt_next_of_isActive (mem_subscribers.mp hr).1
      rw [leaves?_enlist, if_neg (Table.ne_next hold)]
    rw [get?_enlist hs] at hrow
    rw [subscribers_enlist, List.map_append, hkept]
    split at hrow
    next hst =>
      subst hst
      obtain rfl := Option.some.inj hrow
      rw [hentry.temperature] at hhot
      rw [h.attached s source hs hhot, hentry.attached hhot, List.map_append, if_pos rfl]
      simp [leaves?_enlist]
    next hst =>
      rw [h.attached t row hrow hhot, if_neg hst]
      simp

/-- The observer of a new subscription to a hot source comes last. -/
theorem roster_enlist (h : b.Rostered) (hs : b.sources.get? s = some source)
    (hhot : source.temperature = .hot) (hentry : Enters source source' o) :
    (b.enlist s source source').roster s = b.roster s ++ [(b.subscriptions.next, o)] := by
  have hobservers : (b.enlist s source source').observers s = b.observers s ++ [o] := by
    rw [observers_of_source (by rw [get?_enlist hs, if_pos rfl]), hentry.attached hhot,
      observers_of_source hs]
    simp
  rw [roster, subscribers_enlist, if_pos rfl, hobservers, List.zip_append (h.length hs hhot)]
  rfl

theorem roster_enlist_of_ne (hs : b.sources.get? s = some source) (hst : s ≠ t) :
    (b.enlist s source source').roster t = b.roster t := by
  rw [roster, subscribers_enlist, if_neg hst, List.append_nil, observers,
    get?_enlist hs, if_neg hst]
  rfl

theorem retaining_enlist (hs : b.sources.get? s = some source) (hentry : Enters source source' o) :
    Retaining b (b.enlist s source source') := by
  intro h
  refine ⟨h.enlist hs hentry, ?_, ?_, ?_, ?_, ?_⟩
  · simp [enlist, addSubscription, Table.next, Table.push]
  · intro r hr
    rw [leaves?_enlist, if_neg (Table.ne_next hr)]
  · intro r hr ha
    rwa [isActive_enlist, if_neg (Table.ne_next hr)] at ha
  · intro t row hrow
    obtain ⟨row', hrow', ht, -⟩ := exists_enlist hs hentry hrow
    exact ⟨row', hrow', ht⟩
  · intro t row hrow hhot
    have hself : (b.roster t).filter (fun x => (b.enlist s source source').isActive x.1) =
        b.roster t := by
      refine List.filter_eq_self.mpr fun x hx => ?_
      rw [isActive_enlist, if_neg (Table.ne_next (lt_next_of_mem_roster hx))]
      exact isActive_of_mem_roster hx
    rw [hself]
    by_cases hst : s = t
    · subst hst
      obtain rfl : source = row := Option.some.inj (hs.symm.trans hrow)
      exact ⟨_, roster_enlist h hs hhot hentry, by simp⟩
    · refine ⟨[], ?_, by simp⟩
      rw [List.append_nil, roster_enlist_of_ne hs hst]

/-- A subscription to a source is entered in its log; one to a hot source comes last in its
roster. -/
theorem retaining_attach (b : Bench α σ) (s : SourceRef) (o : Observer α) :
    Retaining b (b.attach s o).2 := by
  refine keeps_attach b s o (retaining_addSubscription b rfl) ?_ ?_
  · exact fun _ _ hs hentry => retaining_enlist hs hentry
  · exact fun _ _ _ _ => retaining_of_eq rfl rfl

/-! ### The end of a subscription -/

theorem leaves?_deactivate (b : Bench α σ) (r : SubscriptionRef) :
    (b.deactivate r).leaves? = b.leaves? := by
  funext r'
  simp only [leaves?, deactivate, Table.get?_modify]
  split
  next hr =>
    subst hr
    cases b.subscriptions.get? r <;> rfl
  · rfl

theorem isActive_deactivate (b : Bench α σ) (r r' : SubscriptionRef) :
    (b.deactivate r).isActive r' = (b.isActive r' && r' != r) := by
  simp only [isActive, deactivate, Table.get?_modify]
  by_cases h : r = r'
  · subst h
    cases b.subscriptions.get? r <;> simp
  · simp [h, Ne.symm h]

theorem subscribers_deactivate (b : Bench α σ) (r : SubscriptionRef) (s : SourceRef) :
    (b.deactivate r).subscribers s = (b.subscribers s).filter (· != r) := by
  have hrefs : (b.deactivate r).subscriptions.refs = b.subscriptions.refs := by
    simp [deactivate, Table.refs, Table.next, Table.modify]
  rw [subscribers, subscribers, hrefs, leaves?_deactivate, List.filter_filter]
  refine List.filter_congr fun r' _ => ?_
  rw [isActive_deactivate]
  cases b.isActive r' <;> cases (r' != r) <;> simp

theorem next_deactivate (b : Bench α σ) (r : SubscriptionRef) :
    (b.deactivate r).subscriptions.next = b.subscriptions.next := by
  simp [deactivate, Table.next, Table.modify]

theorem filter_subscribers_of_not_mem (h : r ∉ b.subscribers s) :
    (b.subscribers s).filter (· != r) = b.subscribers s := by
  refine List.filter_eq_self.mpr fun r' hr' => ?_
  have hne : r' ≠ r := by
    rintro rfl
    exact h hr'
  simpa using hne

theorem retaining_deactivate (b : Bench α σ) (hr : b.leaves? r = none) :
    Retaining b (b.deactivate r) := by
  intro h
  refine h.retains_aside (fun _ _ hs => hs) (fun _ _ hs => Or.inl hs) (fun s => ?_)
    (Nat.le_of_eq (congrArg _ (next_deactivate b r).symm)) (leaves?_deactivate b r) ?_
  · rw [subscribers_deactivate]
    refine filter_subscribers_of_not_mem fun hmem => ?_
    obtain ⟨-, e, he⟩ := mem_subscribers.mp hmem
    simp [hr] at he
  · intro r' _ ha
    rw [isActive_deactivate, Bool.and_eq_true] at ha
    exact ha.1

theorem exists_leaving (h : b.leaves? r = some (s, e)) :
    ∃ row, b.subscriptions.get? r = some row ∧ row.teardown = .leave s e := by
  obtain ⟨row, hrow, hleaves⟩ := Option.bind_eq_some_iff.mp h
  refine ⟨row, hrow, ?_⟩
  cases ht : row.teardown with
  | leave s' e' =>
    rw [ht] at hleaves
    obtain ⟨rfl, rfl⟩ := Prod.mk.inj (Option.some.inj hleaves)
    rfl
  | nothing => simp [ht, Teardown.leaves?] at hleaves
  | call f => simp [ht, Teardown.leaves?] at hleaves

/-- The bench on which a subscription to a source is over, and its log entry closed. -/
def discharge (b : Bench α σ) (r : SubscriptionRef) (s : SourceRef) (e : Nat) : Bench α σ :=
  (b.deactivate r).leave s e

theorem plain_discharge (h : b.leaves? r = some (s, e)) (ha : b.isActive r) :
    Plain b (b.discharge r s e) := by
  obtain ⟨row, hrow, ht⟩ := exists_leaving h
  exact .close hrow (by simpa [isActive, hrow] using ha) ht

/-- To dispose a subscription to a source ends it, if it has not ended yet. -/
theorem dispose_leaving {E : Engine α σ} (h : b.leaves? r = some (s, e)) :
    E.dispose r b = (.done (), if b.isActive r then b.discharge r s e else b) := by
  obtain ⟨⟨active, teardown⟩, hrow, rfl⟩ := exists_leaving h
  have hactive : b.isActive r = active := by simp [isActive, hrow]
  rw [Engine.dispose, Run.read_bind, hrow, hactive]
  cases active <;> rfl

theorem get?_discharge (b : Bench α σ) (r : SubscriptionRef) (s : SourceRef) (e : Nat)
    (t : SourceRef) :
    (b.discharge r s e).sources.get? t =
      if s = t then (b.sources.get? t).map fun source => source.leave e (b.now source.clock)
      else b.sources.get? t := by
  rw [discharge, leave, Table.get?_modify]
  rfl

/-- An entry of a roster is the one a subscription leaves exactly if it is that of the
subscription. -/
theorem Rostered.ne_iff (h : b.Rostered) (hr : b.leaves? r = some (s, e)) {e' : Nat}
    (hr' : b.leaves? r' = some (s, e')) : (r' != r) = (e' != e) := by
  rw [Bool.eq_iff_iff, bne_iff_ne, bne_iff_ne]
  refine not_congr ⟨?_, ?_⟩
  · rintro rfl
    rw [hr] at hr'
    exact (Prod.mk.inj (Option.some.inj hr')).2.symm
  · rintro rfl
    exact h.apart r' r _ hr' hr

theorem exists_discharge (hrow : b.sources.get? t = some row) :
    ∃ row', (b.discharge r s e).sources.get? t = some row' ∧
      row'.temperature = row.temperature ∧ row'.log.length = row.log.length := by
  rw [get?_discharge, hrow]
  by_cases hst : s = t
  · exact ⟨row.leave e (b.now row.clock), if_pos hst, rfl, by simp [Source.leave]⟩
  · exact ⟨row, if_neg hst, rfl, rfl⟩

/-- A subscription stands in no other roster than that of its source. -/
theorem subscribers_discharge_of_ne (hr : b.leaves? r = some (s, e)) (hst : s ≠ t) :
    (b.discharge r s e).subscribers t = b.subscribers t := by
  refine (subscribers_deactivate b r t).trans (filter_subscribers_of_not_mem fun hmem => ?_)
  obtain ⟨-, e', he'⟩ := mem_subscribers.mp hmem
  rw [hr] at he'
  exact hst (Prod.mk.inj (Option.some.inj he')).1

theorem Rostered.discharge (h : b.Rostered) (hr : b.leaves? r = some (s, e)) :
    (b.discharge r s e).Rostered := by
  have hleaves : (b.discharge r s e).leaves? = b.leaves? := leaves?_deactivate b r
  refine ⟨?_, ?_, ?_⟩
  · intro r' t e' he'
    rw [hleaves] at he'
    obtain ⟨row, hrow, hlt⟩ := h.entries r' t e' he'
    obtain ⟨row', hrow', -, hlog⟩ := exists_discharge (r := r) (s := s) (e := e) hrow
    exact ⟨row', hrow', by rw [hlog]; exact hlt⟩
  · rw [hleaves]
    exact h.apart
  · intro t row' hrow' hhot
    rw [get?_discharge] at hrow'
    rw [hleaves]
    split at hrow'
    next hst =>
      subst hst
      have hsubscribers : (b.discharge r s e).subscribers s = (b.subscribers s).filter (· != r) :=
        subscribers_deactivate b r s
      obtain ⟨row, hrow, rfl⟩ := Option.map_eq_some_iff.mp hrow'
      rw [hsubscribers]
      exact map_filter_step (h.attached s row hrow hhot) fun _ _ hr' => h.ne_iff hr hr'
    next hst =>
      rw [subscribers_discharge_of_ne hr hst]
      exact h.attached t row' hrow' hhot

/-- The end of a subscription takes it off the roster of its source. -/
theorem roster_discharge (h : b.Rostered) (hr : b.leaves? r = some (s, e))
    (hs : b.sources.get? s = some source) (hhot : source.temperature = .hot) :
    (b.discharge r s e).roster s = (b.roster s).filter fun x => x.1 != r := by
  have hsubscribers : (b.discharge r s e).subscribers s = (b.subscribers s).filter (· != r) :=
    subscribers_deactivate b r s
  have hobservers : (b.discharge r s e).observers s =
      (source.attached.filter (·.1 != e)).map (·.2) := by
    rw [observers_of_source (by rw [get?_discharge, if_pos rfl, hs]; rfl)]
    rfl
  rw [roster, hsubscribers, hobservers, roster, observers_of_source hs]
  exact zip_filter_step (·.2) (h.attached s source hs hhot) fun _ _ hr' => h.ne_iff hr hr'

theorem roster_discharge_of_ne (hr : b.leaves? r = some (s, e)) (hst : s ≠ t) :
    (b.discharge r s e).roster t = b.roster t := by
  rw [roster, subscribers_discharge_of_ne hr hst, observers, get?_discharge, if_neg hst]
  rfl

theorem retaining_discharge (hr : b.leaves? r = some (s, e)) :
    Retaining b (b.discharge r s e) := by
  intro h
  have hleaves : (b.discharge r s e).leaves? = b.leaves? := leaves?_deactivate b r
  have hactive : ∀ r', (b.discharge r s e).isActive r' = (b.isActive r' && r' != r) :=
    isActive_deactivate b r
  refine ⟨h.discharge hr, Nat.le_of_eq (congrArg _ (next_deactivate b r).symm),
    fun _ _ => by rw [hleaves], ?_, ?_, ?_⟩
  · intro r' _ ha
    rw [hactive, Bool.and_eq_true] at ha
    exact ha.1
  · intro t row hrow
    obtain ⟨row', hrow', ht, -⟩ := exists_discharge (r := r) (s := s) (e := e) hrow
    exact ⟨row', hrow', ht⟩
  · intro t row hrow hhot
    refine ⟨[], ?_, by simp⟩
    by_cases hst : s = t
    · subst hst
      rw [List.append_nil, roster_discharge h hr hrow hhot]
      refine List.filter_congr fun x hx => ?_
      rw [hactive, isActive_of_mem_roster hx, Bool.true_and]
    · have hroster := roster_discharge_of_ne hr hst
      rw [List.append_nil, hroster, List.filter_eq_self.mpr]
      intro x hx
      rw [← hroster] at hx
      exact isActive_of_mem_roster hx

/-! ### Every change -/

theorem retaining_addSource (b : Bench α σ) (temperature : Temperature) (c : ClockRef)
    (events : List (Timed (Signal α))) : Retaining b (b.addSource temperature c events).2 := by
  refine keeps_addSource b temperature c events (fun h => ?_) fun _ _ _ => retaining_of_eq rfl rfl
  refine h.retains_aside (fun t source hs => ?_) (fun t source hs => ?_) (fun _ => rfl)
    (Nat.le_refl _) rfl fun _ _ ha => ha
  · have hne : t ≠ b.sources.next := by
      rintro rfl
      simp [Table.get?_next] at hs
    rw [Table.get?_push, if_neg hne, hs]
  · rw [Table.get?_push] at hs
    split at hs
    next ht =>
      obtain rfl := Option.some.inj hs
      exact Or.inr ⟨by rw [ht, Table.get?_next], rfl⟩
    next => exact Or.inl hs

/-- Rosters change by new subscriptions and by the end of old ones, and by nothing else. -/
theorem Plain.retaining (h : Plain b b') : Retaining b b' := by
  cases h with
  | addSubscription ht => exact retaining_addSubscription b ht
  | deactivate h ht => exact retaining_deactivate b (by simp [leaves?, h, ht])
  | close h ha ht => exact retaining_discharge (by simp [leaves?, h, ht, Teardown.leaves?])
  | addSource temperature c events => exact retaining_addSource b temperature c events
  | attach s o => exact retaining_attach b s o
  | start h =>
    obtain ⟨clocks, log, rfl⟩ := next?_rest h
    exact retaining_of_eq rfl rfl
  | register s t a =>
    rw [Bench.register]
    split
    · exact refl_of Retaining b
    · exact retaining_of_eq rfl rfl
  | note => exact retaining_of_eq rfl rfl
  | rename => exact retaining_of_eq rfl rfl
  | addClock => exact retaining_of_eq rfl rfl
  | schedule => exact retaining_of_eq rfl rfl
  | park => exact retaining_of_eq rfl rfl
  | addRecorder => exact retaining_of_eq rfl rfl
  | record => exact retaining_of_eq rfl rfl
  | detach => exact retaining_of_eq rfl rfl
  | hold => exact retaining_of_eq rfl rfl
  | addProbe => exact retaining_of_eq rfl rfl
  | stamp => exact retaining_of_eq rfl rfl
  | addListener => exact retaining_of_eq rfl rfl
  | hear => exact retaining_of_eq rfl rfl
  | beginScope => exact retaining_of_eq rfl rfl
  | extend => exact retaining_of_eq rfl rfl

instance : Allows (Retaining (α := α) (σ := σ)) where
  plain := Plain.retaining

theorem Change.retaining (h : Change b b') : Retaining b b' := by
  cases h with
  | plain h => exact h.retaining
  | enterPhase => exact retaining_of_eq rfl rfl
  | takePending => exact retaining_of_eq rfl rfl
  | rename => exact retaining_of_eq rfl rfl
  | removeScope => exact retaining_of_eq rfl rfl
  | abandon => exact retaining_of_eq rfl rfl

/-- Whatever happens, the rosters stay in order, and what stands in them changes in no other way. -/
theorem Reaches.retains (hb : b.Rostered) (h : Reaches b b') : Retains b b' := by
  induction h with
  | refl => exact .refl hb
  | tail _ hstep ih => exact ih.trans (hstep.retaining ih.rostered)

end Bench

end Marble
