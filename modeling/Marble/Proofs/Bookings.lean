import Marble.Proofs.Ledger
import Marble.Proofs.Multicast

/-! What is entered in the log of a source, told in the order it happens: subscriptions are made and
come to an end, each at a time, and the log says which of them ended when and nothing else. -/
namespace Marble

variable {α σ : Type}

/-- A subscription to a source is made, or it is disposed while it is active, at a time. -/
inductive Booking where
  | made (r : SubscriptionRef) (t : VirtualTime)
  | ended (r : SubscriptionRef) (t : VirtualTime)

theorem getElem?_concat_eq_some {β : Type} {l : List β} {x y : β} {i : Nat} :
    (l ++ [x])[i]? = some y ↔ l[i]? = some y ∨ i = l.length ∧ x = y := by
  rcases Nat.lt_trichotomy i l.length with hlt | rfl | hgt
  · rw [List.getElem?_append_left hlt]
    simp [Nat.ne_of_lt hlt]
  · simp
  · rw [List.getElem?_eq_none (by simp; omega), List.getElem?_eq_none (Nat.le_of_lt hgt)]
    simp [Nat.ne_of_gt hgt]

namespace Booking

variable {bs : List Booking} {r r' : SubscriptionRef} {t : VirtualTime} {e : Nat}
  {x : SubscriptionRef × VirtualTime}

def ref : Booking → SubscriptionRef
  | .made r _ => r
  | .ended r _ => r

def time : Booking → VirtualTime
  | .made _ t => t
  | .ended _ t => t

/-- The subscription that is made, if one is. -/
def made? : Booking → Option (SubscriptionRef × VirtualTime)
  | .made r t => some (r, t)
  | .ended .. => none

/-- When a subscription ends, if it is the one that does. -/
def ended? (r : SubscriptionRef) : Booking → Option VirtualTime
  | .made .. => none
  | .ended r' t => if r' = r then some t else none

/-- The subscriptions that have been made, in their order. -/
def makings (bs : List Booking) : List (SubscriptionRef × VirtualTime) := bs.filterMap made?

def refs (bs : List Booking) : List SubscriptionRef := (makings bs).map (·.1)

/-- When a subscription has been disposed first, if it has. -/
def over? (bs : List Booking) (r : SubscriptionRef) : Option VirtualTime := bs.findSome? (ended? r)

/-- One entry for each subscription, in their order: when it was made, and when it was disposed
first. -/
def log (bs : List Booking) : List SubscriptionRecord :=
  (makings bs).map fun x => ⟨x.2, over? bs x.1⟩

@[simp] theorem makings_made (bs : List Booking) (r : SubscriptionRef) (t : VirtualTime) :
    makings (bs ++ [.made r t]) = makings bs ++ [(r, t)] := by
  rw [makings, List.filterMap_append]
  rfl

@[simp] theorem makings_ended (bs : List Booking) (r : SubscriptionRef) (t : VirtualTime) :
    makings (bs ++ [.ended r t]) = makings bs := by
  rw [makings, List.filterMap_append]
  exact List.append_nil _

@[simp] theorem over?_made (bs : List Booking) (r r' : SubscriptionRef) (t : VirtualTime) :
    over? (bs ++ [.made r t]) r' = over? bs r' := by
  rw [over?, List.findSome?_append]
  exact Option.or_none

@[simp] theorem over?_ended (bs : List Booking) (r r' : SubscriptionRef) (t : VirtualTime) :
    over? (bs ++ [.ended r t]) r' = (over? bs r').or (if r = r' then some t else none) := by
  rw [over?, List.findSome?_append]
  congr 1
  by_cases h : r = r' <;> simp [ended?, h]

theorem mem_of_mem_makings (h : x ∈ makings bs) : .made x.1 x.2 ∈ bs := by
  obtain ⟨b, hb, hx⟩ := List.mem_filterMap.mp h
  cases b with
  | made r t =>
    obtain rfl := Option.some.inj hx
    exact hb
  | ended => cases hx

theorem mem_of_over? (h : over? bs r = some t) : .ended r t ∈ bs := by
  obtain ⟨b, hb, ht⟩ := List.exists_of_findSome?_eq_some h
  cases b with
  | made => cases ht
  | ended r' t' =>
    simp only [ended?, Option.ite_none_right_eq_some, Option.some.injEq] at ht
    obtain ⟨rfl, rfl⟩ := ht
    exact hb

/-- If times are in order, entries are in the order of the times they were made. -/
theorem pairwise_log (h : (bs.map time).Pairwise (· ≤ ·)) :
    (log bs).Pairwise fun x y => x.subscribed ≤ y.subscribed := by
  refine List.pairwise_map.mpr ((List.pairwise_map.mp h).filterMap made? ?_)
  intro a a' hle x hx y hy
  cases a with
  | ended => cases hx
  | made r t =>
    cases a' with
    | ended => cases hy
    | made r' t' =>
      obtain rfl := Option.some.inj hx
      obtain rfl := Option.some.inj hy
      exact hle

/-- A new subscription gets an entry of its own. -/
theorem log_made (hr : over? bs r = none) (t : VirtualTime) :
    log (bs ++ [.made r t]) = log bs ++ [⟨t, none⟩] := by
  simp [log, hr]

/-- The end of a subscription closes its own entry. -/
theorem log_ended (hrefs : (refs bs).Nodup) (he : (refs bs)[e]? = some r) (hr : over? bs r = none)
    (t : VirtualTime) :
    log (bs ++ [.ended r t]) = (log bs).modify e fun x => { x with unsubscribed := some t } := by
  apply List.ext_getElem?
  intro i
  rw [List.getElem?_modify, log, log, makings_ended, List.getElem?_map, List.getElem?_map]
  cases hx : (makings bs)[i]? with
  | none => rfl
  | some x =>
    have hi : (refs bs)[i]? = some x.1 := by simp [refs, hx]
    by_cases hown : e = i
    · subst hown
      obtain rfl : r = x.1 := Option.some.inj (he.symm.trans hi)
      simp [hr]
    · have hne : r ≠ x.1 := by
        rintro rfl
        have hlt : e < (refs bs).length := (List.getElem?_eq_some_iff.mp he).1
        exact hown ((List.getElem?_inj hlt hrefs).mp (he.trans hi.symm))
      simp [hown, hne]

-- the first dispose counts, and the entry of the other subscription stays open
example : log [.made ⟨0⟩ .zero, .made ⟨1⟩ .zero, .ended ⟨0⟩ .zero, .ended ⟨0⟩ .never] =
    [⟨.zero, some .zero⟩, ⟨.zero, none⟩] := by
  decide

end Booking

open Booking (makings refs over?)

namespace Bench

variable {b b' b₁ b₂ : Bench α σ} {s t : SourceRef} {r r' : SubscriptionRef}
  {c : ClockRef} {e : Nat} {bs bs' : List Booking} {source : Source α}

/-! ### What concerns the log of a source -/

/-- Neither the log of a source nor any subscription to it changes. -/
structure Apart (s : SourceRef) (b b' : Bench α σ) : Prop where
  log : (b'.sources.get? s).map (fun row => (row.clock, row.log)) =
    (b.sources.get? s).map fun row => (row.clock, row.log)
  leaves : ∀ r e, b'.leaves? r = some (s, e) ↔ b.leaves? r = some (s, e)
  active : ∀ r e, b.leaves? r = some (s, e) → b'.isActive r = b.isActive r

/-- Something is entered in the log of a source. Subscriptions are made and end at the time the
clock of the source reads then. -/
inductive Books (s : SourceRef) : Booking → Bench α σ → Bench α σ → Prop
  | made {b : Bench α σ} {source : Source α} (hs : b.sources.get? s = some source)
    (o : Observer α) :
    Books s (.made b.subscriptions.next (b.now source.clock)) b (b.attach s o).2
  | ended {b : Bench α σ} {r : SubscriptionRef} {e : Nat} (hr : b.leaves? r = some (s, e))
    (ha : b.isActive r) : Books s (.ended r (b.reading s)) b (b.discharge r s e)

/-- Any number of changes, with what is entered in the log of a source meanwhile, in order. -/
abbrev Booked (s : SourceRef) : Bench α σ → List Booking → Bench α σ → Prop :=
  Recounted (Books s) (Apart s)

theorem apart_of_eq (hsources : b'.sources = b.sources)
    (hsubscriptions : b'.subscriptions = b.subscriptions) : Apart s b b' where
  log := by rw [hsources]
  leaves r e := by rw [leaves?, hsubscriptions, leaves?]
  active r e _ := by rw [isActive, hsubscriptions, isActive]

theorem apart_addSubscription (b : Bench α σ) {t : Teardown σ} (ht : ∀ e, t.leaves? ≠ some (s, e)) :
    Apart s b (b.addSubscription t).2 where
  log := rfl
  leaves r e := by
    rw [leaves?_addSubscription]
    split
    next hr =>
      subst hr
      simp [ht, leaves?, Table.get?_next]
    · rfl
  active r e hr := by
    rw [isActive_addSubscription, if_neg]
    rintro rfl
    simp [leaves?, Table.get?_next] at hr

theorem apart_deactivate (b : Bench α σ) (hr : ∀ e, b.leaves? r ≠ some (s, e)) :
    Apart s b (b.deactivate r) where
  log := rfl
  leaves r' e := by rw [leaves?_deactivate]
  active r' e hr' := by
    have hne : r' ≠ r := by
      rintro rfl
      exact hr e hr'
    rw [isActive_deactivate, bne_iff_ne.mpr hne, Bool.and_true]

/-- What ends a subscription to another source is apart from a source. -/
theorem apart_discharge (hr : b.leaves? r = some (t, e)) (hne : t ≠ s) :
    Apart s b (b.discharge r t e) := by
  have hapart : Apart s b (b.deactivate r) := apart_deactivate b fun e' he' => by
    rw [hr] at he'
    exact hne (Prod.mk.inj (Option.some.inj he')).1
  refine ⟨?_, hapart.leaves, hapart.active⟩
  rw [get?_discharge, if_neg hne]

theorem apart_attach (hne : t ≠ s) (o : Observer α) : Apart s b (b.attach t o).2 := by
  cases ht : b.sources.get? t with
  | none =>
    rw [attach_of_none ht]
    exact apart_addSubscription b (by simp [Teardown.leaves?])
  | some source =>
    have hadded := apart_addSubscription b (s := s) (t := .leave t source.log.length)
      (by simp [Teardown.leaves?, hne])
    rw [attach_eq ht]
    refine ⟨?_, hadded.leaves, hadded.active⟩
    rw [get?_enlist ht, if_neg hne]

theorem apart_addSource (hs : (b.sources.get? s).isSome) (temperature : Temperature) (c : ClockRef)
    (events : List (Timed (Signal α))) : Apart s b (b.addSource temperature c events).2 := by
  obtain ⟨-, hsubscriptions, hsources, -⟩ := b.addSource_fields temperature c events
  have hne : s ≠ b.sources.next := by
    rintro rfl
    simp [Table.get?_next] at hs
  refine ⟨?_, fun r e => ?_, fun r e _ => ?_⟩
  · rw [hsources, Table.get?_push, if_neg hne]
  · rw [leaves?, hsubscriptions, leaves?]
  · rw [isActive, hsubscriptions, isActive]

/-- One change is a booking of a source, or it is apart from the source. -/
theorem Change.booked (h : Change b b') (hs : (b.sources.get? s).isSome) :
    ∃ bs, Booked s b bs b' := by
  have hchange := h
  cases h with
  | plain h =>
    cases h with
    | addSubscription ht =>
      exact ⟨[], .nothing hchange (apart_addSubscription b fun e => by simp [ht])⟩
    | @deactivate r row hrow ht =>
      exact ⟨[], .nothing hchange (apart_deactivate b fun e => by simp [leaves?, hrow, ht])⟩
    | @close r row t e hrow ha ht =>
      have hr : b.leaves? r = some (t, e) := by simp [leaves?, hrow, ht, Teardown.leaves?]
      by_cases hsame : t = s
      · subst hsame
        exact ⟨_, .one (.ended hr (by simp [isActive, hrow, ha]))⟩
      · exact ⟨[], .nothing hchange (apart_discharge hr hsame)⟩
    | addSource temperature c events =>
      exact ⟨[], .nothing hchange (apart_addSource hs temperature c events)⟩
    | attach t o =>
      by_cases hsame : t = s
      · subst hsame
        obtain ⟨source, hsource⟩ := Option.isSome_iff_exists.mp hs
        exact ⟨_, .one (.made hsource o)⟩
      · exact ⟨[], .nothing hchange (apart_attach hsame o)⟩
    | start h =>
      obtain ⟨clocks, log, rfl⟩ := next?_rest h
      exact ⟨[], .nothing hchange (apart_of_eq rfl rfl)⟩
    | register scope t a =>
      refine ⟨[], .nothing hchange (apart_of_eq ?_ ?_)⟩ <;>
        · rw [Bench.register]
          split <;> rfl
    | _ => exact ⟨[], .nothing hchange (apart_of_eq rfl rfl)⟩
  | _ => exact ⟨[], .nothing hchange (apart_of_eq rfl rfl)⟩

theorem Apart.isSome (h : Apart s b b') (hs : (b.sources.get? s).isSome) :
    (b'.sources.get? s).isSome := by
  have hsome := congrArg Option.isSome h.log
  simp only [Option.isSome_map] at hsome
  rw [hsome, hs]

theorem Books.isSome {x : Booking} (h : Books s x b b') (hs : (b.sources.get? s).isSome) :
    (b'.sources.get? s).isSome := by
  cases h with
  | made hsource o =>
    obtain ⟨row, hrow, -⟩ := clock_of_attach hsource s o
    simp [hrow]
  | ended => rwa [get?_discharge, if_pos rfl, Option.isSome_map]

/-- Whatever is done, it is something that is entered in the log of a source, time and again, and
changes that are apart from it. -/
theorem Reaches.booked (h : Reaches b b') (hs : (b.sources.get? s).isSome) :
    ∃ bs, Booked s b bs b' :=
  h.recounted (P := fun b => (b.sources.get? s).isSome) Books.isSome Apart.isSome Change.booked hs

/-! ### What the log says -/

/-- The log of a source that goes by a clock says what has been entered: one entry for each
subscription, in their order, which is open as long as the subscription is active. The times are in
order, no subscription ends before it was made, and nothing is yet to come. -/
structure Balances (b : Bench α σ) (s : SourceRef) (c : ClockRef) (bs : List Booking) : Prop where
  log : ∃ source, b.sources.get? s = some source ∧ source.clock = c ∧ source.log = Booking.log bs
  leaves : ∀ r e, b.leaves? r = some (s, e) ↔ (refs bs)[e]? = some r
  active : ∀ r ∈ refs bs, over? bs r = none ↔ b.isActive r
  order : (refs bs).Pairwise fun r r' => r.index < r'.index
  known : ∀ x ∈ bs, x.ref ∈ refs bs
  times : (bs.map Booking.time).Pairwise (· ≤ ·)
  span : ∀ x ∈ makings bs, ∀ u, over? bs x.1 = some u → x.2 ≤ u
  past : ∀ t ∈ bs.map Booking.time, t ≤ b.now c

namespace Balances

variable (h : b.Balances s c bs)

include h

theorem lt_next (hr : r ∈ refs bs) : r.index < b.subscriptions.next.index := by
  obtain ⟨e, he⟩ := List.mem_iff_getElem?.mp hr
  exact lt_next_of_leaves? ((h.leaves r e).mpr he)

theorem reading : b.reading s = b.now c := by
  obtain ⟨source, hs, rfl, -⟩ := h.log
  exact reading_of_source hs

/-- A subscription that is yet to be made has not ended. -/
theorem over?_next : over? bs b.subscriptions.next = none := by
  cases hend : over? bs b.subscriptions.next with
  | none => rfl
  | some t =>
    have hknown := h.known _ (Booking.mem_of_over? hend)
    exact absurd (h.lt_next hknown) (Nat.lt_irrefl _)

/-- What is entered now comes last. -/
theorem times_concat {x : Booking} (hx : x.time = b.now c) :
    ((bs ++ [x]).map Booking.time).Pairwise (· ≤ ·) ∧
      ∀ t ∈ (bs ++ [x]).map Booking.time, t ≤ b.now c := by
  rw [List.map_append, List.map_singleton, hx]
  constructor
  · refine List.pairwise_append.mpr ⟨h.times, List.pairwise_singleton _ _, ?_⟩
    intro t ht u hu
    obtain rfl := List.mem_singleton.mp hu
    exact h.past t ht
  · intro t ht
    rcases List.mem_append.mp ht with ht | ht
    · exact h.past t ht
    · obtain rfl := List.mem_singleton.mp ht
      exact le_refl _

/-- A subscription that is made is entered at the end. -/
theorem made (hs : b.sources.get? s = some source) (o : Observer α) :
    (b.attach s o).2.Balances s c (bs ++ [.made b.subscriptions.next (b.now source.clock)]) := by
  obtain ⟨row, hrow, hclock, hlog⟩ := h.log
  obtain rfl : row = source := Option.some.inj (hrow.symm.trans hs)
  have hlength : (refs bs).length = row.log.length := by simp [hlog, refs, Booking.log]
  obtain ⟨htimes, hpast⟩ := h.times_concat (x := .made b.subscriptions.next (b.now row.clock))
    (by rw [← hclock]; rfl)
  have hrefs : refs (bs ++ [.made b.subscriptions.next (b.now row.clock)]) =
      refs bs ++ [b.subscriptions.next] := by simp [refs]
  constructor
  case log =>
    refine ⟨row.join o (b.now row.clock), ?_, hclock, ?_⟩
    · rw [attach_eq hs]
      exact (get?_enlist hs s).trans (if_pos rfl)
    · rw [Booking.log_made h.over?_next, ← hlog]
      rfl
  case leaves =>
    intro r e
    rw [leaves?_attach hs, hrefs, getElem?_concat_eq_some, hlength]
    by_cases hnew : r = b.subscriptions.next
    · subst hnew
      have hunknown : (refs bs)[e]? ≠ some b.subscriptions.next := fun he =>
        Nat.lt_irrefl _ (h.lt_next (List.mem_of_getElem? he))
      simp [hunknown, eq_comm]
    · rw [if_neg hnew, h.leaves r e]
      simp [Ne.symm hnew]
  case active =>
    intro r hr
    rw [isActive_attach hs, Booking.over?_made]
    by_cases hnew : r = b.subscriptions.next
    · subst hnew
      simp [h.over?_next]
    · rw [if_neg hnew]
      refine h.active r ?_
      simpa [hrefs, hnew] using hr
  case order =>
    rw [hrefs]
    refine List.pairwise_append.mpr ⟨h.order, List.pairwise_singleton _ _, ?_⟩
    intro r hr r' hr'
    obtain rfl := List.mem_singleton.mp hr'
    exact h.lt_next hr
  case known =>
    intro x hx
    rw [hrefs]
    rcases List.mem_append.mp hx with hx | hx
    · exact List.mem_append_left _ (h.known x hx)
    · obtain rfl := List.mem_singleton.mp hx
      exact List.mem_append_right _ (List.mem_singleton_self _)
  case times => exact htimes
  case span =>
    intro x hx u hu
    rw [Booking.over?_made] at hu
    rw [Booking.makings_made] at hx
    rcases List.mem_append.mp hx with hx | hx
    · exact h.span x hx u hu
    · obtain rfl := List.mem_singleton.mp hx
      cases h.over?_next.symm.trans hu
  case past =>
    intro t ht
    exact le_trans (hpast t ht) ((Plain.attach b s o).follows.now_le c)

/-- A subscription that ends has its entry closed. -/
theorem ended (hr : b.leaves? r = some (s, e)) (ha : b.isActive r) :
    (b.discharge r s e).Balances s c (bs ++ [.ended r (b.reading s)]) := by
  have hrefs : refs (bs ++ [.ended r (b.reading s)]) = refs bs := by simp [refs]
  have he : (refs bs)[e]? = some r := (h.leaves r e).mp hr
  have hmem : r ∈ refs bs := List.mem_of_getElem? he
  have hopen : over? bs r = none := (h.active r hmem).mpr ha
  have hnodup : (refs bs).Nodup := h.order.imp fun hlt heq =>
    Nat.ne_of_lt hlt (congrArg Ref.index heq)
  obtain ⟨htimes, hpast⟩ := h.times_concat (x := .ended r (b.reading s)) h.reading
  constructor
  case log =>
    obtain ⟨row, hrow, hclock, hlog⟩ := h.log
    refine ⟨row.leave e (b.now row.clock), ?_, hclock, ?_⟩
    · rw [get?_discharge, if_pos rfl, hrow]
      rfl
    · rw [Booking.log_ended hnodup he hopen, ← hlog, reading_of_source hrow]
      rfl
  case leaves =>
    intro r' e'
    have hleaves : (b.discharge r s e).leaves? = b.leaves? := leaves?_deactivate b r
    rw [hleaves, hrefs]
    exact h.leaves r' e'
  case active =>
    intro r' hr'
    rw [hrefs] at hr'
    have hactive : (b.discharge r s e).isActive r' = (b.isActive r' && r' != r) :=
      isActive_deactivate b r r'
    rw [hactive, Booking.over?_ended]
    by_cases hown : r = r'
    · simp [hown]
    · simpa [hown, Ne.symm hown] using h.active r' hr'
  case order =>
    rw [hrefs]
    exact h.order
  case known =>
    intro x hx
    rw [hrefs]
    rcases List.mem_append.mp hx with hx | hx
    · exact h.known x hx
    · obtain rfl := List.mem_singleton.mp hx
      exact hmem
  case times => exact htimes
  case span =>
    intro x hx u hu
    rw [Booking.makings_ended] at hx
    rw [Booking.over?_ended] at hu
    cases hend : over? bs x.1 with
    | some v =>
      obtain rfl : v = u := by simpa [hend] using hu
      exact h.span x hx v hend
    | none =>
      obtain ⟨-, rfl⟩ : r = x.1 ∧ b.reading s = u := by simpa [hend] using hu
      have hmade := List.mem_map_of_mem (f := Booking.time) (Booking.mem_of_mem_makings hx)
      rw [h.reading]
      exact h.past x.2 hmade
  case past => exact hpast

/-- Nothing else changes what the log has to say. -/
theorem aside (hstep : Change b b') (hapart : Apart s b b') : b'.Balances s c bs := by
  constructor
  case log =>
    obtain ⟨row, hrow, hclock, hlog⟩ := h.log
    have hsame := hapart.log
    rw [hrow] at hsame
    obtain ⟨row', hrow', heq⟩ := Option.map_eq_some_iff.mp hsame
    obtain ⟨hclock', hlog'⟩ := Prod.mk.inj heq
    exact ⟨row', hrow', hclock'.trans hclock, hlog'.trans hlog⟩
  case leaves => exact fun r e => (hapart.leaves r e).trans (h.leaves r e)
  case active =>
    intro r hr
    obtain ⟨e, he⟩ := List.mem_iff_getElem?.mp hr
    rw [hapart.active r e ((h.leaves r e).mpr he)]
    exact h.active r hr
  case order => exact h.order
  case known => exact h.known
  case times => exact h.times
  case span => exact h.span
  case past => exact fun t ht => le_trans (h.past t ht) (hstep.follows.now_le c)

end Balances

/-- Whatever happens, the log says what has been entered. -/
theorem Booked.balances (h : Booked s b bs b') {before : List Booking}
    (hb : b.Balances s c before) : b'.Balances s c (before ++ bs) := by
  induction h with
  | refl => rwa [List.append_nil]
  | tell _ hx ih =>
    rw [← List.append_assoc]
    cases hx with
    | made hs o => exact ih.made hs o
    | ended hr ha => exact ih.ended hr ha
  | aside _ haside ih => exact ih.aside haside.1 haside.2

/-- Nothing has been entered in the log of a new source. -/
theorem balances_addSource (hb : b.Rostered) (temperature : Temperature) (c : ClockRef)
    (events : List (Timed (Signal α))) :
    (b.addSource temperature c events).2.Balances b.sources.next c [] := by
  obtain ⟨-, hsubscriptions, hsources, -⟩ := b.addSource_fields temperature c events
  constructor
  case log =>
    refine ⟨{ temperature, clock := c, events }, ?_, rfl, rfl⟩
    rw [hsources, Table.get?_push, if_pos rfl]
  case leaves =>
    intro r e
    rw [leaves?, hsubscriptions]
    constructor
    · intro hr
      obtain ⟨source, hs, -⟩ := hb.entries r _ e hr
      simp [Table.get?_next] at hs
    · intro he
      cases he
  all_goals simp [refs, makings]

/-! ### Who enters something -/

/-- To subscribe to a source is entered in its log, and in no other. -/
theorem booked_attach (hs : b.sources.get? s = some source) (o : Observer α) :
    Booked s b [.made b.subscriptions.next (b.now source.clock)] (b.attach s o).2 ∧
      ∀ t, t ≠ s → Booked t b [] (b.attach s o).2 :=
  ⟨.one (.made hs o), fun _ hne => .nothing (.plain (.attach b s o)) (apart_attach hne.symm o)⟩

/-- So is the end of a subscription. -/
theorem booked_discharge (hr : b.leaves? r = some (s, e)) (ha : b.isActive r) :
    Booked s b [.ended r (b.reading s)] (b.discharge r s e) ∧
      ∀ t, t ≠ s → Booked t b [] (b.discharge r s e) :=
  ⟨.one (.ended hr ha),
    fun _ hne => .nothing (.plain (plain_discharge hr ha)) (apart_discharge hr hne.symm)⟩

end Bench

/-- To dispose what has been disposed does nothing. -/
theorem Engine.dispose_inactive {E : Engine α σ} {b : Bench α σ} {r : SubscriptionRef}
    (ha : b.isActive r = false) : E.dispose r b = (.done (), b) := by
  rw [dispose, Run.read_bind]
  cases hrow : b.subscriptions.get? r with
  | none => rfl
  | some row =>
    have hover : row.active = false := by simpa [Bench.isActive, hrow] using ha
    simp only [hover]
    rfl

namespace Scenario

open Bench

variable [Shown α]

/-- What holds of the logs of sources under an engine. -/
structure SubscriptionLog (E : Engine α (Callback α)) : Prop where
  /-- The benches spoken of are all those that scripts come to, -/
  script (script : Script α) : (after E script fresh).Lived
  /-- or callbacks, wherever they are called. -/
  callback {b : Bench α (Callback α)} (f : Callback α) (hb : b.Lived) : (E.call f b).2.Lived
  /-- All that scripts do, each part of them, each command and each callback that they set off, is
  that subscriptions to a source are made and end, in any order, with other changes in between, to
  clocks and to other sources among others. -/
  comes {b : Bench α (Callback α)} {s : SourceRef} (hs : (b.sources.get? s).isSome) :
    (∀ script, ∃ bs, Booked s b bs (after E script b)) ∧
      (∀ script, ∃ bs, Booked s b bs (runScript E script b).2) ∧
      (∀ command, ∃ bs, Booked s b bs (perform E command b).2) ∧
      ∀ f, ∃ bs, Booked s b bs (E.call f b).2
  /-- Whoever subscribes to a source gets a subscription of his own, which is made now. Nothing is
  entered in other logs. -/
  subscribe {b : Bench α (Callback α)} {s : SourceRef} {source : Source α}
    (hs : b.sources.get? s = some source) (stages : List (Stage α)) (k : Sink) :
    ∃ b', E.subscribe ⟨.source s, stages⟩ k b = (.done b.subscriptions.next, b') ∧
      Booked s b [.made b.subscriptions.next (b.now source.clock)] b' ∧
        ∀ t, t ≠ s → Booked t b [] b'
  /-- Whoever disposes a subscription first ends it now; nor is that entered in other logs. -/
  dispose {b : Bench α (Callback α)} {s : SourceRef} {r : SubscriptionRef} {e : Nat}
    (hr : b.leaves? r = some (s, e)) (ha : b.isActive r) :
    ∃ b', E.dispose r b = (.done (), b') ∧ Booked s b [.ended r (b.reading s)] b' ∧
      ∀ t, t ≠ s → Booked t b [] b'
  /-- To dispose it again does nothing. -/
  again {b : Bench α (Callback α)} {r : SubscriptionRef} (ha : b.isActive r = false) :
    E.dispose r b = (.done (), b)
  /-- The log of a source, cold or hot, says what has been entered since the source was made, and
  its entries are in the order of their times. -/
  balances {b b' : Bench α (Callback α)} {c : ClockRef} {bs : List Booking} (hb : b.Lived)
    (temperature : Temperature) (events : List (Timed (Signal α)))
    (h : Booked b.sources.next (b.addSource temperature c events).2 bs b') :
    b'.Balances b.sources.next c bs ∧
      (Booking.log bs).Pairwise fun x y => x.subscribed ≤ y.subscribed
  /-- No entry gets lost or comes to say something else of when its subscription was made, and a
  closed one is final. -/
  final {b b' : Bench α (Callback α)} {s : SourceRef} {e : Nat} {x : SubscriptionRecord}
    (hb : b.Lived)
    (h : Reaches b b') (hx : b.record? s e = some x) :
    ∃ x', b'.record? s e = some x' ∧ x'.subscribed = x.subscribed ∧
      ∀ u, x.unsubscribed = some u → x'.unsubscribed = some u

/-- Whoever subscribes and disposes, how often and from wherever, and however clocks move: the log
of a source has one entry for each subscription, in their order, which says when it was made and,
once it has been disposed, when that was done first. -/
theorem subscriptionLog (fuel : Nat) : SubscriptionLog (Callback.engine (α := α) fuel) := by
  have hE := Callback.lawful_engine (α := α) fuel
  constructor
  case script => exact fun script => lived_fresh.reaches (reaches_after hE script fresh)
  case callback => exact fun f hb => hb.reaches (hE f _)
  case comes =>
    intro b s hs
    refine ⟨fun script => ?_, fun script => ?_, fun command => ?_, fun f => ?_⟩
    · exact (reaches_after hE script b).booked hs
    · exact Reaches.booked (respects_runScript (lawful_perform hE) script b) hs
    · exact Reaches.booked (lawful_perform hE command b) hs
    · exact Reaches.booked (hE f b) hs
  case subscribe =>
    intro b s source hs stages k
    have hattach : (b.attach s ⟨stages, k⟩).1 = b.subscriptions.next := by rw [attach_eq hs]
    refine ⟨(b.attach s ⟨stages, k⟩).2, ?_, booked_attach hs ⟨stages, k⟩⟩
    rw [← hattach]
    rfl
  case dispose =>
    intro b s r e hr ha
    refine ⟨b.discharge r s e, ?_, booked_discharge hr ha⟩
    rw [dispose_leaving hr, if_pos ha]
  case again => exact fun ha => Engine.dispose_inactive ha
  case balances =>
    intro b b' c bs hb temperature events h
    have hbalances := h.balances (balances_addSource hb.rostered temperature c events)
    rw [List.nil_append] at hbalances
    exact ⟨hbalances, Booking.pairwise_log hbalances.times⟩
  case final => exact fun hb h hx => (hb.amends h).entry _ _ _ hx

end Scenario

end Marble
