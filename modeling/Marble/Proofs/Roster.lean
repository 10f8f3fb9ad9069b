import Marble.Proofs.Reachable
import Mathlib.Data.List.Forall2

/-! The roster of a hot source: its subscriptions in the order they were made, each with its
observer. Whatever happens, subscriptions leave it for good when they are disposed, and new ones
come last. -/
namespace Marble

variable {α σ : Type} {b b' b'' : Bench α σ} {s : SourceRef} {r r' : SubscriptionRef}
  {source : Source α}

namespace Table

variable {k : Kind} {β : Type}

/-- The references in use, in the order of their making. -/
def refs (t : Table k β) : List (Ref k) := (List.range t.next.index).map Ref.mk

theorem refs_push (t : Table k β) (row : β) : (t.push row).refs = t.refs ++ [t.next] := by
  simp [refs, next, push, List.range_succ]

theorem mem_refs {t : Table k β} {r : Ref k} : r ∈ t.refs ↔ r.index < t.next.index := by
  cases r
  simp [refs]

theorem pairwise_refs (t : Table k β) : t.refs.Pairwise fun r r' => r.index < r'.index :=
  List.pairwise_map.mpr List.pairwise_lt_range

theorem ne_next {t : Table k β} {r : Ref k} (h : r.index < t.next.index) : r ≠ t.next := by
  rintro rfl
  exact Nat.lt_irrefl _ h

theorem get?_eq_none_of_le {t : Table k β} {r : Ref k} (h : t.next.index ≤ r.index) :
    t.get? r = none := Array.getElem?_eq_none h

end Table

section Step

variable {β γ δ ι : Type} {as : List β} {cs : List γ} {f : β → ι} {g : γ → ι} {P : β → Bool}
  {Q : γ → Bool}

/-- Two lists in step are the two sides of one list of pairs. -/
theorem exists_pairs (h : as.map f = cs.map g) :
    ∃ xs : List (β × γ), as = xs.map (·.1) ∧ cs = xs.map (·.2) ∧ ∀ x ∈ xs, f x.1 = g x.2 := by
  have hlength : as.length = cs.length := by simpa using congrArg List.length h
  have hstep : List.Forall₂ (fun a c => f a = g c) as cs := by
    rw [← List.forall₂_map_right_iff (f := g) (R := fun a y => f a = y),
      ← List.forall₂_map_left_iff (f := f) (R := Eq), List.forall₂_eq_eq_eq]
    exact h
  refine ⟨as.zip cs, (List.map_fst_zip (Nat.le_of_eq hlength)).symm,
    (List.map_snd_zip (Nat.le_of_eq hlength.symm)).symm, ?_⟩
  rintro ⟨a, c⟩ hx
  exact (List.forall₂_iff_zip.mp hstep).2 hx

/-- Two lists in step lose the same places. -/
theorem filter_pairs {xs : List (β × γ)} (hx : ∀ x ∈ xs, f x.1 = g x.2)
    (hPQ : ∀ a c, f a = g c → P a = Q c) :
    (xs.map (·.1)).filter P = (xs.filter fun x => P x.1).map (·.1) ∧
      (xs.map (·.2)).filter Q = (xs.filter fun x => P x.1).map (·.2) := by
  refine ⟨List.filter_map, ?_⟩
  rw [List.filter_map]
  refine congrArg _ (List.filter_congr fun x hmem => ?_)
  exact (hPQ x.1 x.2 (hx x hmem)).symm

theorem map_filter_step (h : as.map f = cs.map g) (hPQ : ∀ a c, f a = g c → P a = Q c) :
    (as.filter P).map f = (cs.filter Q).map g := by
  obtain ⟨xs, rfl, rfl, hx⟩ := exists_pairs h
  obtain ⟨hleft, hright⟩ := filter_pairs hx hPQ
  rw [hleft, hright, List.map_map, List.map_map]
  exact List.map_congr_left fun x hmem => hx x (List.mem_of_mem_filter hmem)

theorem zip_filter_step (v : γ → δ) (h : as.map f = cs.map g)
    (hPQ : ∀ a c, f a = g c → P a = Q c) :
    (as.filter P).zip ((cs.filter Q).map v) = (as.zip (cs.map v)).filter fun x => P x.1 := by
  obtain ⟨xs, rfl, rfl, hx⟩ := exists_pairs h
  obtain ⟨hleft, hright⟩ := filter_pairs hx hPQ
  rw [hleft, hright, List.map_map, List.map_map, List.zip_map', List.zip_map', List.filter_map]
  rfl

/-- Two lists in step, zipped with what one of them carries. -/
theorem map_zip_step (v : γ → δ) (h : as.map f = cs.map g) :
    (as.zip (cs.map v)).map (fun x => (f x.1, x.2)) = cs.map fun y => (g y, v y) := by
  obtain ⟨xs, rfl, rfl, hx⟩ := exists_pairs h
  rw [List.map_map, List.zip_map', List.map_map, List.map_map]
  exact List.map_congr_left fun x hmem => by simp [hx x hmem]

end Step

namespace Bench

/-- The source that a subscription leaves when it is disposed, and the log entry it closes there. -/
def leaves? (b : Bench α σ) (r : SubscriptionRef) : Option (SourceRef × Nat) :=
  (b.subscriptions.get? r).bind (·.teardown.leaves?)

/-- The subscriptions to a source that have not been disposed, in the order they were made. -/
def subscribers (b : Bench α σ) (s : SourceRef) : List SubscriptionRef :=
  b.subscriptions.refs.filter fun r => b.isActive r && (b.leaves? r).any (·.1 == s)

/-- The observers that are attached to a source. -/
def observers (b : Bench α σ) (s : SourceRef) : List (Observer α) :=
  (((b.sources.get? s).map (·.attached)).getD []).map (·.2)

/-- The subscriptions to a hot source with their observers. -/
def roster (b : Bench α σ) (s : SourceRef) : List (SubscriptionRef × Observer α) :=
  (b.subscribers s).zip (b.observers s)

/-- Every subscription to a source has a log entry of its own there, and those that have not been
disposed of a hot source are the ones whose observers are attached. -/
structure Rostered (b : Bench α σ) : Prop where
  entries : ∀ r s e, b.leaves? r = some (s, e) →
    ∃ source, b.sources.get? s = some source ∧ e < source.log.length
  apart : ∀ r r' x, b.leaves? r = some x → b.leaves? r' = some x → r = r'
  attached : ∀ s source, b.sources.get? s = some source → source.temperature = .hot →
    (b.subscribers s).map b.leaves? = source.attached.map fun x => some (s, x.1)

/-- What becomes of the subscriptions in existence and of the rosters: a subscription that has been
disposed stays so, and the others stand in their rosters as before, ahead of all new ones. -/
structure Retains (b b' : Bench α σ) : Prop where
  rostered : b'.Rostered
  next : b.subscriptions.next.index ≤ b'.subscriptions.next.index
  leaves : ∀ r, r.index < b.subscriptions.next.index → b'.leaves? r = b.leaves? r
  active : ∀ r, r.index < b.subscriptions.next.index → b'.isActive r → b.isActive r
  source : ∀ s source, b.sources.get? s = some source →
    ∃ source', b'.sources.get? s = some source' ∧ source'.temperature = source.temperature
  roster : ∀ s source, b.sources.get? s = some source → source.temperature = .hot →
    ∃ later, b'.roster s = ((b.roster s).filter fun x => b'.isActive x.1) ++ later ∧
      ∀ x ∈ later, b.subscriptions.next.index ≤ x.1.index

/-! ### Reading the roster -/

theorem isActive_eq_false_of_le (h : b.subscriptions.next.index ≤ r.index) :
    b.isActive r = false := by
  simp [isActive, Table.get?_eq_none_of_le h]

theorem lt_next_of_isActive (h : b.isActive r) : r.index < b.subscriptions.next.index := by
  refine Nat.lt_of_not_le fun hle => ?_
  simp [isActive_eq_false_of_le hle] at h

theorem lt_next_of_leaves? {x : SourceRef × Nat} (h : b.leaves? r = some x) :
    r.index < b.subscriptions.next.index := by
  refine Nat.lt_of_not_le fun hle => ?_
  simp [leaves?, Table.get?_eq_none_of_le hle] at h

theorem mem_subscribers : r ∈ b.subscribers s ↔ b.isActive r ∧ ∃ e, b.leaves? r = some (s, e) := by
  rw [subscribers, List.mem_filter, Table.mem_refs, Bool.and_eq_true]
  constructor
  · rintro ⟨-, hactive, hleaves⟩
    refine ⟨hactive, ?_⟩
    cases he : b.leaves? r with
    | none => simp [he] at hleaves
    | some x =>
      obtain rfl : x.1 = s := by simpa [he] using hleaves
      exact ⟨x.2, rfl⟩
  · rintro ⟨hactive, e, he⟩
    exact ⟨lt_next_of_isActive hactive, hactive, by simp [he]⟩

/-- The subscriptions of a roster stand in the order they were made. -/
theorem pairwise_subscribers (b : Bench α σ) (s : SourceRef) :
    (b.subscribers s).Pairwise fun r r' => r.index < r'.index :=
  b.subscriptions.pairwise_refs.filter _

theorem observers_of_source (hs : b.sources.get? s = some source) :
    b.observers s = source.attached.map (·.2) := by simp [observers, hs]

theorem Rostered.length (h : b.Rostered) (hs : b.sources.get? s = some source)
    (hhot : source.temperature = .hot) : (b.subscribers s).length = (b.observers s).length := by
  have hlength := congrArg List.length (h.attached s source hs hhot)
  simpa [observers_of_source hs] using hlength

theorem Rostered.map_fst (h : b.Rostered) (hs : b.sources.get? s = some source)
    (hhot : source.temperature = .hot) : (b.roster s).map (·.1) = b.subscribers s :=
  List.map_fst_zip (Nat.le_of_eq (h.length hs hhot))

theorem mem_roster {x : SubscriptionRef × Observer α} (h : x ∈ b.roster s) :
    x.1 ∈ b.subscribers s := (List.of_mem_zip h).1

theorem isActive_of_mem_roster {x : SubscriptionRef × Observer α} (h : x ∈ b.roster s) :
    b.isActive x.1 := (mem_subscribers.mp (mem_roster h)).1

theorem lt_next_of_mem_roster {x : SubscriptionRef × Observer α} (h : x ∈ b.roster s) :
    x.1.index < b.subscriptions.next.index := lt_next_of_isActive (isActive_of_mem_roster h)

/-- A source that is yet to be made has no subscriptions. -/
theorem Rostered.subscribers_eq_nil (h : b.Rostered) (hs : b.sources.get? s = none) :
    b.subscribers s = [] := by
  refine List.eq_nil_iff_forall_not_mem.mpr fun r hr => ?_
  obtain ⟨-, e, he⟩ := mem_subscribers.mp hr
  obtain ⟨source, hsource, -⟩ := h.entries r s e he
  simp [hs] at hsource

/-! ### Keeping the roster -/

theorem Retains.refl (h : b.Rostered) : Retains b b where
  rostered := h
  next := Nat.le_refl _
  leaves _ _ := rfl
  active _ _ ha := ha
  source _ source hs := ⟨source, hs, rfl⟩
  roster s _ _ _ := by
    refine ⟨[], ?_, by simp⟩
    rw [List.append_nil, List.filter_eq_self.mpr fun _ => isActive_of_mem_roster]

theorem Retains.trans (h : Retains b b') (h' : Retains b' b'') : Retains b b'' where
  rostered := h'.rostered
  next := Nat.le_trans h.next h'.next
  leaves r hr := (h'.leaves r (Nat.lt_of_lt_of_le hr h.next)).trans (h.leaves r hr)
  active r hr ha := h.active r hr (h'.active r (Nat.lt_of_lt_of_le hr h.next) ha)
  source s source hs := by
    obtain ⟨source', hs', ht'⟩ := h.source s source hs
    obtain ⟨source'', hs'', ht''⟩ := h'.source s source' hs'
    exact ⟨source'', hs'', ht''.trans ht'⟩
  roster s source hs hhot := by
    obtain ⟨source', hs', ht'⟩ := h.source s source hs
    obtain ⟨later, hroster, hlater⟩ := h.roster s source hs hhot
    obtain ⟨later', hroster', hlater'⟩ := h'.roster s source' hs' (ht'.trans hhot)
    have hfilter :
        ((b.roster s).filter fun x => b'.isActive x.1).filter (fun x => b''.isActive x.1) =
          (b.roster s).filter fun x => b''.isActive x.1 := by
      rw [List.filter_filter]
      refine List.filter_congr fun x hx => ?_
      have hlt := Nat.lt_of_lt_of_le (lt_next_of_mem_roster hx) h.next
      cases ha : b''.isActive x.1 with
      | false => rfl
      | true => simp [h'.active x.1 hlt ha]
    refine ⟨later.filter (fun x => b''.isActive x.1) ++ later', ?_, ?_⟩
    · rw [hroster', hroster, List.filter_append, hfilter, List.append_assoc]
    · intro x hx
      rcases List.mem_append.mp hx with hx | hx
      · exact hlater x (List.mem_filter.mp hx).1
      · exact Nat.le_trans h.next (hlater' x hx)

/-- A bench whose rosters are in order comes to another such bench. -/
def Retaining (b b' : Bench α σ) : Prop := b.Rostered → Retains b b'

instance : IsPreorder (Bench α σ) Retaining where
  refl _ := Retains.refl
  trans _ _ _ h h' hb := (h hb).trans (h' (h hb).rostered)

/-- Changes that touch no source there is, and no subscription to any. -/
theorem Rostered.retains_aside (h : b.Rostered)
    (hsources : ∀ s source, b.sources.get? s = some source → b'.sources.get? s = some source)
    (hmade : ∀ s source, b'.sources.get? s = some source →
      b.sources.get? s = some source ∨ b.sources.get? s = none ∧ source.attached = [])
    (hsubscribers : ∀ s, b'.subscribers s = b.subscribers s)
    (hnext : b.subscriptions.next.index ≤ b'.subscriptions.next.index)
    (hleaves : b'.leaves? = b.leaves?)
    (hactive : ∀ r, r.index < b.subscriptions.next.index → b'.isActive r → b.isActive r) :
    Retains b b' := by
  refine ⟨⟨?_, ?_, ?_⟩, hnext, fun _ _ => by rw [hleaves], hactive,
    fun s source hs => ⟨source, hsources s source hs, rfl⟩, ?_⟩
  · intro r s e he
    rw [hleaves] at he
    obtain ⟨source, hs, hlt⟩ := h.entries r s e he
    exact ⟨source, hsources s source hs, hlt⟩
  · rw [hleaves]
    exact h.apart
  · intro s source hs hhot
    rw [hsubscribers, hleaves]
    rcases hmade s source hs with hs | ⟨hnone, hattached⟩
    · exact h.attached s source hs hhot
    · rw [h.subscribers_eq_nil hnone, hattached]
      rfl
  · intro s source hs hhot
    have hroster : b'.roster s = b.roster s := by
      rw [Bench.roster, hsubscribers, observers_of_source (hsources s source hs),
        ← observers_of_source hs, Bench.roster]
    refine ⟨[], ?_, by simp⟩
    rw [List.append_nil, ← hroster, List.filter_eq_self.mpr fun _ => isActive_of_mem_roster]

theorem retaining_of_eq (hsources : b'.sources = b.sources)
    (hsubscriptions : b'.subscriptions = b.subscriptions) : Retaining b b' := by
  have hactive : b'.isActive = b.isActive := by
    funext r
    simp [isActive, hsubscriptions]
  have hleaves : b'.leaves? = b.leaves? := by
    funext r
    simp [leaves?, hsubscriptions]
  intro h
  refine h.retains_aside (fun s source hs => by rw [hsources, hs])
    (fun s source hs => Or.inl (by rw [← hsources, hs])) (fun s => ?_)
    (Nat.le_of_eq (by rw [hsubscriptions])) hleaves fun r _ ha => by rwa [hactive] at ha
  simp only [subscribers, hsubscriptions, hactive, hleaves]

end Bench

end Marble
