import Marble.Clock
import Marble.Proofs.Time

/-! The history of a clock: the calls it answers, and the order in which its actions start. -/
namespace Marble

variable {κ : Type}

/-- What a clock is asked to do and what it does: an action is queued, or one starts. The reading is
that of the clock when the call is made, and when the action starts. -/
inductive ClockEvent (κ : Type) where
  | queued (requested reading : VirtualTime) (action : κ)
  | started (due : VirtualTime) (sequence : Nat) (reading : VirtualTime) (action : κ)

namespace ClockEvent

/-- The action that is queued and the due time it is given: what lies in the past is due at once. -/
def given? : ClockEvent κ → Option (VirtualTime × κ)
  | .queued requested reading action => some (max requested reading, action)
  | .started .. => none

def start? : ClockEvent κ → Option (VirtualTime × Nat)
  | .queued .. => none
  | .started due sequence _ _ => some (due, sequence)

/-- The action that starts, as it stood in the queue. -/
def started? : ClockEvent κ → Option (Pending κ)
  | .queued .. => none
  | .started due sequence _ action => some ⟨due, sequence, action⟩

end ClockEvent

/-- Due earlier, or due together and queued earlier. -/
def Before (x y : VirtualTime × Nat) : Prop := x.1 < y.1 ∨ x.1 = y.1 ∧ x.2 < y.2

theorem Before.trans {x y z : VirtualTime × Nat} (hxy : Before x y) (hyz : Before y z) :
    Before x z := by
  rcases hxy with hxy | ⟨hxy, hn⟩ <;> rcases hyz with hyz | ⟨hyz, hm⟩
  · exact Or.inl (lt_trans hxy hyz)
  · exact Or.inl (hyz ▸ hxy)
  · exact Or.inl (hxy ▸ hyz)
  · exact Or.inr ⟨hxy.trans hyz, Nat.lt_trans hn hm⟩

theorem Before.irrefl {x : VirtualTime × Nat} : ¬ Before x x := by
  rintro (h | ⟨_, h⟩)
  · exact lt_irrefl _ h
  · exact Nat.lt_irrefl _ h

def Pending.rank (p : Pending κ) : VirtualTime × Nat := (p.due, p.sequence)

namespace Clock

variable {c c' c'' : Clock κ} {p q : Pending κ} {ps : List (Pending κ)}
  {limit target : VirtualTime} {evs evs' : List (ClockEvent κ)}

/-! ### The queue -/

theorem mem_enqueue : q ∈ enqueue p ps ↔ q = p ∨ q ∈ ps := by
  induction ps with
  | nil => simp [enqueue]
  | cons r rest ih =>
    rw [enqueue]
    split
    · simp only [List.mem_cons, ih]
      tauto
    · simp

theorem length_enqueue : (enqueue p ps).length = ps.length + 1 := by
  induction ps with
  | nil => rfl
  | cons r rest ih =>
    rw [enqueue]
    split
    · simp [ih]
    · simp

/-- The number of a new action is the greatest, so it goes behind all that are due with it. -/
theorem enqueue_ordered (h : ps.Pairwise fun p q => Before p.rank q.rank)
    (hp : ∀ q ∈ ps, q.sequence < p.sequence) :
    (enqueue p ps).Pairwise fun p q => Before p.rank q.rank := by
  induction ps with
  | nil => simp [enqueue]
  | cons r rest ih =>
    obtain ⟨hr, hrest⟩ := List.pairwise_cons.mp h
    rw [enqueue]
    split
    next hle =>
      refine List.pairwise_cons.mpr ⟨?_, ih hrest fun q hq => hp q (by simp [hq])⟩
      intro q hq
      rcases mem_enqueue.mp hq with rfl | hq
      · rcases lt_or_eq_of_le hle with hlt | heq
        · exact Or.inl hlt
        · exact Or.inr ⟨heq, hp r (by simp)⟩
      · exact hr q hq
    next hle =>
      refine List.pairwise_cons.mpr ⟨?_, h⟩
      have hlt : Before p.rank r.rank := Or.inl (not_le.mp hle)
      intro q hq
      rcases List.mem_cons.mp hq with rfl | hq
      · exact hlt
      · exact hlt.trans (hr q hq)

theorem next?_eq_some (h : c.next? limit = some (p, c')) :
    ∃ rest, c.queue = p :: rest ∧ p.due ≤ limit ∧
      c' = { c with now := max c.now p.due, dispatched := c.dispatched + 1, queue := rest } := by
  rw [next?] at h
  split at h
  · simp at h
  next q rest hq =>
    split at h
    next hle =>
      obtain ⟨rfl, rfl⟩ := by simpa using h
      exact ⟨rest, hq, hle, rfl⟩
    · simp at h

theorem next?_eq_none (h : c.next? limit = none) :
    c.queue = [] ∨ ∃ p rest, c.queue = p :: rest ∧ limit < p.due := by
  rw [next?] at h
  split at h
  next hq => exact Or.inl hq
  next p rest hq =>
    split at h
    · simp at h
    next hle => exact Or.inr ⟨p, rest, hq, not_le.mp hle⟩

theorem next?_park (h : c.next? limit = none) : (c.park target).next? limit = none := by
  rw [next?, park] at *
  cases hq : c.queue with
  | nil => rfl
  | cons p rest => simpa [hq] using h

/-- What every clock keeps to: its queue is in order, nothing in it is late, and no number is used
twice. -/
structure Ordered (c : Clock κ) : Prop where
  ordered : c.queue.Pairwise fun p q => Before p.rank q.rank
  due : ∀ p ∈ c.queue, c.now ≤ p.due
  number : ∀ p ∈ c.queue, p.sequence < c.scheduled

theorem ordered_fresh : Ordered ({} : Clock κ) := ⟨.nil, by simp, by simp⟩

theorem Ordered.schedule (h : c.Ordered) (due : VirtualTime) (action : κ) :
    (c.schedule due action).Ordered where
  ordered := enqueue_ordered h.ordered h.number
  due := by
    intro p hp
    rcases mem_enqueue.mp hp with rfl | hp
    · exact le_max_right due c.now
    · exact h.due p hp
  number := by
    intro p hp
    rcases mem_enqueue.mp hp with rfl | hp
    · exact Nat.lt_succ_self _
    · exact Nat.lt_succ_of_lt (h.number p hp)

/-- The first action of an orderly queue starts exactly when it is due. -/
theorem Ordered.now_next? (h : c.Ordered) (hn : c.next? limit = some (p, c')) :
    c'.now = p.due := by
  obtain ⟨rest, hq, _, rfl⟩ := next?_eq_some hn
  exact max_eq_right (h.due p (by simp [hq]))

theorem Ordered.next? (h : c.Ordered) (hn : c.next? limit = some (p, c')) : c'.Ordered := by
  have hnow := h.now_next? hn
  obtain ⟨rest, hq, _, rfl⟩ := next?_eq_some hn
  have hord := h.ordered
  rw [hq] at hord
  obtain ⟨hp, hrest⟩ := List.pairwise_cons.mp hord
  refine ⟨hrest, ?_, fun q hq' => h.number q (by simp [hq, hq'])⟩
  intro q hq'
  rw [hnow]
  rcases hp q hq' with hlt | ⟨heq, _⟩
  · exact le_of_lt hlt
  · exact le_of_eq heq

/-- With nothing due by an instant, all that is pending is due after it. -/
theorem Ordered.lt_of_next?_eq_none (h : c.Ordered) (hn : c.next? limit = none) :
    ∀ p ∈ c.queue, limit < p.due := by
  intro p hp
  rcases next?_eq_none hn with hq | ⟨q, rest, hq, hlt⟩
  · simp [hq] at hp
  · have hord := h.ordered
    rw [hq] at hp hord
    rcases List.mem_cons.mp hp with rfl | hp
    · exact hlt
    · rcases (List.pairwise_cons.mp hord).1 p hp with hlt' | ⟨heq, _⟩
      · exact lt_trans hlt hlt'
      · exact lt_of_lt_of_eq hlt heq

theorem Ordered.park (h : c.Ordered) (hn : c.next? target = none) : (c.park target).Ordered where
  ordered := h.ordered
  due p hp := max_le (h.due p hp) (le_of_lt (h.lt_of_next?_eq_none hn p hp))
  number := h.number

theorem Ordered.pairwise_due (h : c.Ordered) : c.queue.Pairwise fun p q => p.due ≤ q.due := by
  refine h.ordered.imp ?_
  rintro p q (hlt | ⟨heq, _⟩)
  · exact le_of_lt hlt
  · exact le_of_eq heq

/-! ### Histories -/

/-- A clock goes through calls to another state of itself. It is parked only where nothing is
due. -/
inductive Trace (c : Clock κ) : List (ClockEvent κ) → Clock κ → Prop
  | refl : Trace c [] c
  | queue {es : List (ClockEvent κ)} {d : Clock κ} (h : Trace c es d) (due : VirtualTime)
    (action : κ) :
    Trace c (es ++ [.queued due d.now action]) (d.schedule due action)
  | start {es : List (ClockEvent κ)} {d d' : Clock κ} {q : Pending κ} {until_ : VirtualTime}
    (h : Trace c es d) (hn : d.next? until_ = some (q, d')) :
    Trace c (es ++ [.started q.due q.sequence d'.now q.action]) d'
  | park {es : List (ClockEvent κ)} {d : Clock κ} {until_ : VirtualTime} (h : Trace c es d)
    (hn : d.next? until_ = none) : Trace c es (d.park until_)

theorem Trace.trans (h : Trace c evs c') (h' : Trace c' evs' c'') : Trace c (evs ++ evs') c'' := by
  induction h' with
  | refl => simpa using h
  | queue _ due action ih => simpa using ih.queue due action
  | start _ hn ih => simpa using ih.start hn
  | park _ hn ih => exact ih.park hn

theorem Trace.ordered (h : Trace c evs c') (hc : c.Ordered) : c'.Ordered := by
  induction h with
  | refl => exact hc
  | queue _ due action ih => exact ih.schedule due action
  | start _ hn ih => exact ih.next? hn
  | park _ hn ih => exact ih.park hn

theorem Trace.now_le (h : Trace c evs c') : c.now ≤ c'.now := by
  induction h with
  | refl => exact le_refl _
  | queue _ due action ih => exact ih
  | start _ hn ih =>
    obtain ⟨rest, -, -, rfl⟩ := next?_eq_some hn
    exact le_trans ih (le_max_left _ _)
  | park _ hn ih => exact le_trans ih (le_max_left _ _)

theorem Trace.scheduled (h : Trace c evs c') :
    c'.scheduled = c.scheduled + (evs.filterMap ClockEvent.given?).length := by
  induction h with
  | refl => rfl
  | queue _ due action ih => simp [schedule, ih, ClockEvent.given?, Nat.add_assoc]
  | start _ hn ih =>
    obtain ⟨rest, -, -, rfl⟩ := next?_eq_some hn
    simp [ih, ClockEvent.given?]
  | park _ hn ih => exact ih

theorem Trace.dispatched (h : Trace c evs c') :
    c'.dispatched = c.dispatched + (evs.filterMap ClockEvent.started?).length := by
  induction h with
  | refl => rfl
  | queue _ due action ih => simp [schedule, ih, List.filterMap_cons, ClockEvent.started?]
  | start _ hn ih =>
    obtain ⟨rest, -, -, rfl⟩ := next?_eq_some hn
    simp [ih, ClockEvent.started?, Nat.add_assoc]
  | park _ hn ih => exact ih

/-- What has been queued from some number on, as it stands in the queue. -/
def numbered (n : Nat) (given : List (VirtualTime × κ)) : List (Pending κ) :=
  (given.zipIdx n).map fun x => ⟨x.1.1, x.2, x.1.2⟩

theorem numbered_concat (n : Nat) (given : List (VirtualTime × κ)) (x : VirtualTime × κ) :
    numbered n (given ++ [x]) = numbered n given ++ [⟨x.1, n + given.length, x.2⟩] := by
  simp [numbered, List.zipIdx_append]

theorem perm_enqueue (p : Pending κ) (ps : List (Pending κ)) : (enqueue p ps).Perm (p :: ps) := by
  induction ps with
  | nil => exact .refl _
  | cons q rest ih =>
    rw [enqueue]
    split
    · exact (ih.cons q).trans (.swap p q rest)
    · exact .refl _

/-- Whatever was pending or has been queued since has started or is pending. -/
theorem Trace.perm (h : Trace c evs c') :
    (evs.filterMap ClockEvent.started? ++ c'.queue).Perm
      (c.queue ++ numbered c.scheduled (evs.filterMap ClockEvent.given?)) := by
  induction h with
  | refl => simp [numbered]
  | @queue es d h due action ih =>
    have hstarted : (es ++ [ClockEvent.queued due d.now action]).filterMap ClockEvent.started? =
        es.filterMap ClockEvent.started? := by
      simp [List.filterMap_cons, ClockEvent.started?]
    have hgiven : (es ++ [ClockEvent.queued due d.now action]).filterMap ClockEvent.given? =
        es.filterMap ClockEvent.given? ++ [(max due d.now, action)] := by
      simp [ClockEvent.given?]
    rw [hstarted, hgiven, numbered_concat, ← h.scheduled, ← List.append_assoc]
    have hqueue : (d.schedule due action).queue.Perm
        (d.queue ++ [⟨max due d.now, d.scheduled, action⟩]) :=
      (perm_enqueue _ _).trans (List.perm_append_singleton _ _).symm
    refine (hqueue.append_left _).trans ?_
    rw [← List.append_assoc]
    exact ih.append_right _
  | @start es d d' q limit h hn ih =>
    obtain ⟨rest, hqueue, -, rfl⟩ := next?_eq_some hn
    rw [hqueue] at ih
    simpa [List.filterMap_cons, ClockEvent.started?, ClockEvent.given?] using ih
  | park _ hn ih => exact ih

/-- A history and the clock it has led to: what is pending was queued with the rank it has, and
everything that has started ranks before it. -/
structure Accounts (evs : List (ClockEvent κ)) (c : Clock κ) : Prop where
  count : (evs.filterMap ClockEvent.given?).length = c.scheduled
  given : ∀ p ∈ c.queue, (evs.filterMap ClockEvent.given?)[p.sequence]? =
    some (p.due, p.action)
  past : ∀ x ∈ evs.filterMap ClockEvent.start?, x.1 ≤ c.now ∧ x.2 < c.scheduled
  before : ∀ x ∈ evs.filterMap ClockEvent.start?, ∀ p ∈ c.queue, Before x p.rank
  sorted : (evs.filterMap ClockEvent.start?).Pairwise Before
  started : ∀ i due n reading action, evs[i]? = some (.started due n reading action) →
    reading = due ∧ ((evs.take i).filterMap ClockEvent.given?)[n]? = some (due, action)

theorem accounts_fresh : Accounts [] ({} : Clock κ) where
  count := rfl
  given := by simp
  past := by simp
  before := by simp
  sorted := .nil
  started := by simp

/-- A new event only adds to what the history says about the starts before it. -/
theorem Accounts.started_append (h : Accounts evs c) {e : ClockEvent κ}
    (he : ∀ due n reading action, e = .started due n reading action →
      reading = due ∧ (evs.filterMap ClockEvent.given?)[n]? = some (due, action)) :
    ∀ i due n reading action, (evs ++ [e])[i]? = some (.started due n reading action) →
      reading = due ∧
        (((evs ++ [e]).take i).filterMap ClockEvent.given?)[n]? = some (due, action) := by
  intro i due n reading action hi
  rcases Nat.lt_trichotomy i evs.length with hlt | heq | hgt
  · rw [List.getElem?_append_left hlt] at hi
    rw [List.take_append_of_le_length (Nat.le_of_lt hlt)]
    exact h.started i due n reading action hi
  · subst heq
    have hlast : e = .started due n reading action := by simpa using hi
    simpa using he due n reading action hlast
  · have hnone : (evs ++ [e])[i]? = none := List.getElem?_eq_none (by simp; omega)
    simp [hnone] at hi

theorem Accounts.queue (h : Accounts evs c) (hc : c.Ordered) (due : VirtualTime) (action : κ) :
    Accounts (evs ++ [.queued due c.now action]) (c.schedule due action) where
  count := by simp [ClockEvent.given?, h.count, schedule]
  given := by
    intro p hp
    rw [List.filterMap_append]
    rcases mem_enqueue.mp hp with rfl | hp
    · rw [List.getElem?_append_right (by simp [h.count])]
      simp [ClockEvent.given?, h.count]
    · rw [List.getElem?_append_left (by rw [h.count]; exact hc.number p hp)]
      exact h.given p hp
  past := by
    intro x hx
    have hx' := h.past x (by simpa [ClockEvent.start?] using hx)
    exact ⟨hx'.1, Nat.lt_succ_of_lt hx'.2⟩
  before := by
    intro x hx p hp
    have hx : x ∈ evs.filterMap ClockEvent.start? := by simpa [ClockEvent.start?] using hx
    rcases mem_enqueue.mp hp with rfl | hp
    · obtain ⟨hnow, hn⟩ := h.past x hx
      rcases lt_or_eq_of_le (le_trans hnow (le_max_right due c.now)) with hlt | heq
      · exact Or.inl hlt
      · exact Or.inr ⟨heq, hn⟩
    · exact h.before x hx p hp
  sorted := by simpa [List.filterMap_cons, ClockEvent.start?] using h.sorted
  started := h.started_append (by simp)

theorem Accounts.start (h : Accounts evs c) (hc : c.Ordered) (hn : c.next? limit = some (p, c')) :
    Accounts (evs ++ [.started p.due p.sequence c'.now p.action]) c' := by
  have hnow := hc.now_next? hn
  obtain ⟨rest, hq, _, hc'⟩ := next?_eq_some hn
  have hp : p ∈ c.queue := by simp [hq]
  have hrest : ∀ q ∈ c'.queue, q ∈ c.queue ∧ Before p.rank q.rank := by
    intro q hq'
    have hord := hc.ordered
    simp only [hc'] at hq'
    rw [hq] at hord
    exact ⟨by simp [hq, hq'], (List.pairwise_cons.mp hord).1 q hq'⟩
  have hsched : c'.scheduled = c.scheduled := by rw [hc']
  have hmem : ∀ x, x ∈ (evs ++ [ClockEvent.started p.due p.sequence c'.now p.action]).filterMap
      ClockEvent.start? → x ∈ evs.filterMap ClockEvent.start? ∨ x = p.rank := by
    intro x hx
    simpa [ClockEvent.start?, Pending.rank, List.filterMap_append, eq_comm] using hx
  have hgiven : (evs ++ [ClockEvent.started p.due p.sequence c'.now p.action]).filterMap
      ClockEvent.given? = evs.filterMap ClockEvent.given? := by
    simp [List.filterMap_append, List.filterMap_cons, ClockEvent.given?]
  refine ⟨?_, ?_, ?_, ?_, ?_, ?_⟩
  · rw [hgiven, hsched, h.count]
  · intro q hq'
    rw [hgiven]
    exact h.given q (hrest q hq').1
  · intro x hx
    rw [hsched, hnow]
    rcases hmem x hx with hx | rfl
    · exact ⟨le_trans (h.past x hx).1 (hc.due p hp), (h.past x hx).2⟩
    · exact ⟨le_refl _, hc.number p hp⟩
  · intro x hx q hq'
    rcases hmem x hx with hx | rfl
    · exact h.before x hx q (hrest q hq').1
    · exact (hrest q hq').2
  · have hlast : [ClockEvent.started p.due p.sequence c'.now p.action].filterMap ClockEvent.start? =
        [p.rank] := rfl
    rw [List.filterMap_append, hlast]
    refine List.pairwise_append.mpr ⟨h.sorted, List.pairwise_singleton _ _, ?_⟩
    intro x hx y hy
    obtain rfl := List.mem_singleton.mp hy
    exact h.before x hx p hp
  · apply h.started_append
    rintro due n reading action he
    obtain ⟨rfl, rfl, rfl, rfl⟩ := by simpa using he
    exact ⟨hnow, h.given p hp⟩

theorem Accounts.park (h : Accounts evs c) : Accounts evs (c.park target) where
  count := h.count
  given := h.given
  past x hx := ⟨le_trans (h.past x hx).1 (le_max_left c.now target), (h.past x hx).2⟩
  before := h.before
  sorted := h.sorted
  started := h.started

/-- Whatever a clock goes through from its beginning on, its history accounts for it. -/
theorem Trace.accounts (h : Trace ({} : Clock κ) evs c) : Accounts evs c := by
  induction h with
  | refl => exact accounts_fresh
  | queue h due action ih => exact ih.queue (h.ordered ordered_fresh) due action
  | start h hn ih => exact ih.start (h.ordered ordered_fresh) hn
  | park h hn ih => exact ih.park

/-- No action starts twice. -/
theorem Accounts.nodup (h : Accounts evs c) :
    ((evs.filterMap ClockEvent.start?).map Prod.snd).Nodup := by
  have hgiven : ∀ x ∈ evs.filterMap ClockEvent.start?,
      ∃ action, (evs.filterMap ClockEvent.given?)[x.2]? = some (x.1, action) := by
    intro x hx
    obtain ⟨e, he, hs⟩ := List.mem_filterMap.mp hx
    cases e with
    | queued requested reading action => simp [ClockEvent.start?] at hs
    | started due n reading action =>
      obtain rfl : (due, n) = x := by simpa [ClockEvent.start?] using hs
      obtain ⟨i, hi⟩ := List.getElem?_of_mem he
      have htake := (h.started i due n reading action hi).2
      obtain ⟨later, hlater⟩ := (List.take_prefix i evs).filterMap ClockEvent.given?
      refine ⟨action, ?_⟩
      rw [← hlater, List.getElem?_append_left (List.getElem?_eq_some_iff.mp htake).1]
      exact htake
  apply List.pairwise_map.mpr
  refine h.sorted.imp_of_mem ?_
  intro x y hx hy hxy heq
  obtain ⟨a, ha⟩ := hgiven x hx
  obtain ⟨a', ha'⟩ := hgiven y hy
  have hsame : (x.1, a) = (y.1, a') := Option.some.inj (by rw [← ha, ← ha', heq])
  have hdue : x.1 = y.1 := (Prod.mk.inj hsame).1
  have hxy' : x = y := Prod.ext hdue heq
  exact Before.irrefl (hxy' ▸ hxy)

/-- What can be relied on of all that a clock has answered since its beginning: actions start in the
order of due time and number, each at most once, and each when the clock reads exactly the time it
was given. The number counts the calls that queue an action, and the time given is the one
requested, or the reading at the call if that is later. -/
structure InOrder (evs : List (ClockEvent κ)) : Prop where
  sorted : (evs.filterMap ClockEvent.start?).Pairwise Before
  once : ((evs.filterMap ClockEvent.start?).map Prod.snd).Nodup
  exact : ∀ i due n reading action, evs[i]? = some (.started due n reading action) →
    reading = due ∧ ((evs.take i).filterMap ClockEvent.given?)[n]? = some (due, action)

theorem Trace.inOrder (h : Trace ({} : Clock κ) evs c) : InOrder evs :=
  ⟨h.accounts.sorted, h.accounts.nodup, h.accounts.started⟩

end Clock

end Marble
