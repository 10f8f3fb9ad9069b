import Marble.Proofs.Invocations
import Marble.Proofs.RoundTrip

/-! Expecting a cold source at one time or at another: the outcome is the same as far as the grid
parts the frames alike. -/
namespace Marble

variable {α β ε φ σ : Type}

/-- What a diagram shows at some time stands in the frame that begins then. -/
theorem Diagram.mem_notifications {d : Diagram α ε φ} {unit : UnitOfTime} {e : Event α ε}
    (h : e ∈ d.notifications unit) :
    ∃ p, (p, .notify e.value) ∈ d.cells ∧ e.time = unit.frameStart p := by
  obtain ⟨⟨p, n | f⟩, hcell, he⟩ := List.mem_filterMap.mp h
  · obtain rfl := Option.some.inj he
    exact ⟨p, hcell, rfl⟩
  · cases he

/-- An error without the texts of the events that do not agree. -/
def Error.bare : Error → Error
  | .eventMismatch index _ _ => .eventMismatch index "" ""
  | e => e

/-! ### Cells of a grid -/

/-- Frames at least as wide as a grid's cells never share one. -/
theorem div_eq_div_iff_of_le {t p q u g : Nat} (hg : 0 < g) (hle : g ≤ u) :
    (t + p * u) / g = (t + q * u) / g ↔ p = q := by
  have hlater : ∀ {p q : Nat}, p < q → (t + p * u) / g < (t + q * u) / g := by
    intro p q hpq
    have hmul : (p + 1) * u ≤ q * u := Nat.mul_le_mul_right u hpq
    have hroom : t + p * u + g ≤ t + q * u := by
      rw [Nat.succ_mul] at hmul
      omega
    calc (t + p * u) / g < (t + p * u) / g + 1 := Nat.lt_succ_self _
      _ = (t + p * u + g) / g := (Nat.add_div_right _ hg).symm
      _ ≤ (t + q * u) / g := Nat.div_le_div_right hroom
  constructor
  · intro h
    rcases Nat.lt_trichotomy p q with hpq | hpq | hpq
    · exact absurd h (Nat.ne_of_lt (hlater hpq))
    · exact hpq
    · exact absurd h (Nat.ne_of_gt (hlater hpq))
  · rintro rfl
    rfl

/-- The cells of a grid look the same from instants that lie at the same place in their cells. -/
theorem div_eq_div_iff_of_mod_eq {t t' x y g : Nat} (hg : 0 < g) (hmod : t % g = t' % g) :
    (t + x) / g = (t + y) / g ↔ (t' + x) / g = (t' + y) / g := by
  have hsplit : ∀ t z : Nat, (t + z) / g = (t % g + z) / g + t / g := by
    intro t z
    rw [← Nat.add_mul_div_left _ _ hg, Nat.add_right_comm, Nat.mod_add_div]
  rw [hsplit t, hsplit t, hsplit t', hsplit t', hmod, Nat.add_right_cancel_iff,
    Nat.add_right_cancel_iff]

namespace Timeline

/-- What stands at the same place of two timelines lies in one cell of a grid when they are read
from one instant on, just if it does when they are read from another. -/
def PartedAlike (grid : TimeGrid) (t t' : VirtualTime) (xs ys : List (Timed β)) : Prop :=
  ∀ p ∈ xs.zip ys, (t + p.1.time).truncate grid = (t + p.2.time).truncate grid ↔
    (t' + p.1.time).truncate grid = (t' + p.2.time).truncate grid

variable {grid : TimeGrid} {t t' limit : VirtualTime} {xs ys : List (Timed β)} {bound : Nat}

theorem PartedAlike.of_prefix {zs : List (Timed β)} (h : PartedAlike grid t t' xs ys)
    (hzs : zs <+: ys) : PartedAlike grid t t' xs zs := by
  intro p hp
  obtain ⟨i, hi⟩ := List.getElem?_of_mem hp
  obtain ⟨hx, hz⟩ := List.getElem?_zip_eq_some.mp hi
  obtain ⟨rest, rfl⟩ := hzs
  refine h p (List.mem_of_getElem? (i := i) (List.getElem?_zip_eq_some.mpr ⟨hx, ?_⟩))
  rw [List.getElem?_append_left (List.getElem?_eq_some_iff.mp hz).1, hz]

/-- What comes by some time is a beginning of a timeline in order. -/
theorem prefix_filter (h : ys.Pairwise fun x y => x.time ≤ y.time) (bound : Nat) :
    (ys.filter fun e => decide (e.time.ticks ≤ bound)) <+: ys := by
  induction ys with
  | nil => exact List.prefix_refl _
  | cons y rest ih =>
    obtain ⟨hy, hrest⟩ := List.pairwise_cons.mp h
    by_cases hle : y.time.ticks ≤ bound
    · rw [List.filter_cons_of_pos (by simpa using hle)]
      exact (List.prefix_cons_inj y).mpr (ih hrest)
    · have hlate : rest.filter (fun e => decide (e.time.ticks ≤ bound)) = [] := by
        refine List.filter_eq_nil_iff.mpr fun e he => ?_
        have := VirtualTime.le_iff.mp (hy e he)
        simp only [decide_eq_true_eq]
        omega
      rw [List.filter_cons_of_neg (by simpa using hle), hlate]
      exact List.nil_prefix

/-- What is observed of a timeline from an instant on is a part of it that does not depend on the
instant. -/
theorem observed_nil {tl : List (Timed (Signal α))}
    (h : ∀ e ∈ tl, t + e.time ≤ limit ↔ e.time.ticks ≤ bound) :
    observed [] t limit tl =
      shift t ((untilTerminal tl).filter fun e => decide (e.time.ticks ≤ bound)) := by
  rw [observed, through_nil, untilTerminal_shift, shift, List.filter_map, shift]
  congr 1
  refine List.filter_congr fun e he => ?_
  simpa using h e ((prefix_untilTerminal tl).subset he)

end Timeline

section

variable [BEq ε] {compare : Compare α} {grid : TimeGrid} {t t' : VirtualTime}
  {expected actual : List (Event α ε)}

/-- Events in cells that are parted alike agree at one time if they do at another. -/
theorem agrees_shift (compare : Compare α) {e a : Event α ε}
    (h : (t + e.time).truncate grid = (t + a.time).truncate grid ↔
      (t' + e.time).truncate grid = (t' + a.time).truncate grid) :
    Timed.agrees compare grid ⟨t + e.time, e.value⟩ ⟨t + a.time, a.value⟩ =
      Timed.agrees compare grid ⟨t' + e.time, e.value⟩ ⟨t' + a.time, a.value⟩ := by
  simp only [Timed.agrees, ne_eq, h]

variable [Shown α] [Shown ε]

theorem checkPairs_shift (h : Timeline.PartedAlike grid t t' expected actual) (index : Nat) :
    (checkPairs compare grid index (Timeline.shift t expected)
        (Timeline.shift t actual)).mapError Error.bare =
      (checkPairs compare grid index (Timeline.shift t' expected)
        (Timeline.shift t' actual)).mapError Error.bare := by
  induction expected generalizing actual index with
  | nil => rfl
  | cons e expected ih =>
    cases actual with
    | nil => rfl
    | cons a actual =>
      have hagrees := agrees_shift compare (h (e, a) (by simp))
      simp only [Timeline.shift, List.map_cons, checkPairs, hagrees]
      split
      · rfl
      · rfl
      · exact ih (fun p hp => h p (List.mem_cons_of_mem _ hp)) (index + 1)

/-- Two timelines that are parted alike compare alike, whichever instant they are read from. -/
theorem checkEvents_shift (h : Timeline.PartedAlike grid t t' expected actual) :
    (checkEvents compare grid (Timeline.shift t actual)
        (Timeline.shift t expected)).mapError Error.bare =
      (checkEvents compare grid (Timeline.shift t' actual)
        (Timeline.shift t' expected)).mapError Error.bare := by
  simp only [checkEvents, Timeline.length_shift]
  split
  · rfl
  · exact checkPairs_shift h 0

end

namespace Engine

variable {d drawn : Diagram α SequenceError (Effect σ)} {options : ScopeOptions}
  {t t' : VirtualTime}

/-- None of the times that an expectation works with, if it is registered at an instant, lies past
the last instant there is. -/
structure Unsaturated (drawn d : Diagram α SequenceError (Effect σ)) (options : ScopeOptions)
    (t : VirtualTime) : Prop where
  drawn : ∀ p n, (p, .notify n) ∈ drawn.cells → t.ticks + p * options.unit.ticks ≤ maxTicks
  awaited : ∀ p n, (p, .notify n) ∈ d.cells → t.ticks + p * options.unit.ticks ≤ maxTicks
  release : (Timeline.lastTime (expected d options t) t).ticks + options.padding.ticks ≤ maxTicks

/-- Frames that begin in time begin where they stand. -/
theorem ticks_frameStart {unit : UnitOfTime} {p : Nat} (h : t.ticks + p * unit.ticks ≤ maxTicks) :
    (unit.frameStart p).ticks = p * unit.ticks ∧
      (t + unit.frameStart p).ticks = t.ticks + p * unit.ticks := by
  simp only [UnitOfTime.frameStart, VirtualTime.add_ticks, VirtualTime.clamp_ticks]
  omega

/-- When an expectation stops to look, counted from its registration. -/
def lookout (d : Diagram α SequenceError (Effect σ)) (options : ScopeOptions) : Nat :=
  (Timeline.lastTime (d.notifications options.unit) .zero).ticks + options.padding.ticks

theorem Unsaturated.ticks_releaseAt (h : Unsaturated drawn d options t) :
    (releaseAt d options t).ticks = t.ticks + lookout d options := by
  have hlast : (Timeline.lastTime (expected d options t) t).ticks =
      t.ticks + (Timeline.lastTime (d.notifications options.unit) .zero).ticks := by
    rw [expected, Timeline.lastTime, Timeline.lastTime, Timeline.shift, List.getLast?_map]
    cases he : (d.notifications options.unit).getLast? with
    | none => rfl
    | some e =>
      obtain ⟨p, hcell, hp⟩ := Diagram.mem_notifications (List.mem_of_getLast? he)
      obtain ⟨hstart, hadd⟩ := ticks_frameStart (h.awaited p _ hcell)
      simp only [Option.map_some, Option.getD_some, hp, hadd, hstart]
  have hrelease := h.release
  rw [releaseAt, VirtualTime.add_ticks, Nat.min_eq_left hrelease, hlast, lookout, Nat.add_assoc]

theorem Unsaturated.le_releaseAt_iff (h : Unsaturated drawn d options t) :
    ∀ e ∈ drawn.notifications options.unit,
      t + e.time ≤ releaseAt d options t ↔ e.time.ticks ≤ lookout d options := by
  intro e he
  obtain ⟨p, hcell, hp⟩ := Diagram.mem_notifications he
  obtain ⟨hstart, hadd⟩ := ticks_frameStart (h.drawn p _ hcell)
  rw [VirtualTime.le_iff, h.ticks_releaseAt, hp, hadd, hstart]
  omega

/-- Frames as wide as the cells of a grid are parted alike from all instants, and all frames are
from instants that lie at the same place in their cells. -/
theorem partedAlike (h : Unsaturated drawn d options t) (h' : Unsaturated drawn d options t')
    (hgrid : options.grid.ticks ≤ options.unit.ticks ∨
      t.ticks % options.grid.ticks = t'.ticks % options.grid.ticks) :
    Timeline.PartedAlike options.grid t t' (d.notifications options.unit)
      (drawn.notifications options.unit) := by
  rintro ⟨x, y⟩ hxy
  obtain ⟨hx, hy⟩ := List.of_mem_zip hxy
  obtain ⟨p, hp, hpx⟩ := Diagram.mem_notifications hx
  obtain ⟨q, hq, hqy⟩ := Diagram.mem_notifications hy
  rw [VirtualTime.truncate_eq_iff, VirtualTime.truncate_eq_iff, hpx, hqy,
    (ticks_frameStart (h.awaited p _ hp)).2, (ticks_frameStart (h.drawn q _ hq)).2,
    (ticks_frameStart (h'.awaited p _ hp)).2, (ticks_frameStart (h'.drawn q _ hq)).2]
  rcases hgrid with hle | hmod
  · rw [div_eq_div_iff_of_le options.grid.ticks_pos hle,
      div_eq_div_iff_of_le options.grid.ticks_pos hle]
  · exact div_eq_div_iff_of_mod_eq options.grid.ticks_pos hmod

variable [Shown α] {E F : Engine α σ} {b b' : Bench α σ} {s s' : ScopeRef} {src src' : SourceRef}
  {scope scope' : Scope α σ} {source source' : Source α} {k k' : Clock (Action α σ)}

/-- A cold source and the expectation of it may be put down at one time or at another: as far as the
frames of both diagrams are parted alike, the outcome is the same up to the texts of two events that
do not agree. Frames are parted alike from any two instants if they are as wide as the cells of the
grid, and from instants that lie at the same place in their cells. -/
theorem decides_postponed {text : String} {legend : Legend α SequenceError (Effect σ)}
    (hdrawn : Diagram.ofText text legend = .ok drawn) (h : b.Ready s scope k src source)
    (h' : b'.Ready s' scope' k' src' source') (hoptions : scope'.options = scope.options)
    (hevents : source.events = drawn.notifications scope.options.unit)
    (hevents' : source'.events = drawn.notifications scope.options.unit)
    (hroom : Unsaturated drawn d scope.options k.now)
    (hroom' : Unsaturated drawn d scope.options k'.now) (compare : Compare α) :
    (∃ outcome outcome',
      E.Decides s ⟨.source src, []⟩ d compare b scope k source.events.length outcome ∧
      F.Decides s' ⟨.source src', []⟩ d compare b' scope' k' source'.events.length outcome' ∧
      (Timeline.PartedAlike scope.options.grid k.now k'.now (d.notifications scope.options.unit)
          (drawn.notifications scope.options.unit) →
        outcome.mapError Error.bare = outcome'.mapError Error.bare)) ∧
    (scope.options.grid.ticks ≤ scope.options.unit.ticks ∨
        k.now.ticks % scope.options.grid.ticks = k'.now.ticks % scope.options.grid.ticks →
      Timeline.PartedAlike scope.options.grid k.now k'.now (d.notifications scope.options.unit)
        (drawn.notifications scope.options.unit)) := by
  have horder := Diagram.pairwise_notifications hdrawn scope.options.unit
  refine ⟨⟨_, _, decides_cold h (hevents ▸ horder) [] (by simp) d compare,
    decides_cold h' (hevents' ▸ horder) [] (by simp) d compare, fun halike => ?_⟩,
    partedAlike hroom hroom'⟩
  rw [hoptions, hevents, hevents', Timeline.observed_nil hroom.le_releaseAt_iff,
    Timeline.observed_nil hroom'.le_releaseAt_iff]
  refine checkEvents_shift (halike.of_prefix ?_)
  exact (Timeline.prefix_filter (horder.sublist (Timeline.prefix_untilTerminal _).sublist) _).trans
    (Timeline.prefix_untilTerminal _)

/-- A value that comes at once. -/
def prompt : Diagram Int64 SequenceError (Effect (Callback Int64)) :=
  ⟨"a", ⟨[(⟨'a'⟩, .value 7)], none⟩, [(0, .notify (.next 7))]⟩

/-- A value that comes one frame later. -/
def belated : Diagram Int64 SequenceError (Effect (Callback Int64)) :=
  ⟨"-a", ⟨[(⟨'a'⟩, .value 7)], none⟩, [(1, .notify (.next 7))]⟩

/-- A scope with its clock at an instant. -/
def parked (t : VirtualTime) : Bench Int64 (Callback Int64) :=
  (({} : Bench Int64 (Callback Int64)).beginScope default).2.park ⟨0⟩ t

theorem ready_parked (t : VirtualTime) (events : List (Timed (Signal Int64))) :
    ((parked t).addSource .cold ⟨0⟩ events).2.Ready ⟨0⟩ (Scope.begun ⟨0⟩ default)
      (({} : Clock _).park t) ⟨0⟩ { temperature := .cold, clock := ⟨0⟩, events } := by
  have hscope : (parked t).scopes.get? ⟨0⟩ = some (Scope.begun ⟨0⟩ default) := rfl
  have hclock : (parked t).clocks.get? ⟨0⟩ = some (({} : Clock _).park t) := rfl
  exact Bench.ready_addSource hscope rfl hclock (Clock.ordered_fresh.park rfl) events

theorem unsaturated_parked {t : VirtualTime} (h : t.ticks ≤ 25) :
    Unsaturated prompt belated default t where
  drawn p n hp := by
    obtain ⟨rfl, -⟩ : p = 0 ∧ _ := by simpa [prompt] using hp
    have : maxTicks = 0xffffffffffffffff := rfl
    omega
  awaited p n hp := by
    obtain ⟨rfl, -⟩ : p = 1 ∧ _ := by simpa [belated] using hp
    have : maxTicks = 0xffffffffffffffff := rfl
    change t.ticks + 1 * 10 ≤ maxTicks
    omega
  release := by
    have : maxTicks = 0xffffffffffffffff := rfl
    change min (t.ticks + 10) maxTicks + 1000 ≤ maxTicks
    omega

/-- Registered at the beginning or at 25, the expectation comes to the same. -/
theorem decides_postponed_parked :
    ∃ outcome outcome',
      (Callback.engine 5).Decides ⟨0⟩ ⟨.source ⟨0⟩, []⟩ belated .structural
        ((parked .zero).addSource .cold ⟨0⟩ (prompt.notifications default)).2
        (Scope.begun ⟨0⟩ default) (({} : Clock _).park .zero) 1 outcome ∧
      (Callback.engine 5).Decides ⟨0⟩ ⟨.source ⟨0⟩, []⟩ belated .structural
        ((parked (.clamp 25)).addSource .cold ⟨0⟩ (prompt.notifications default)).2
        (Scope.begun ⟨0⟩ default) (({} : Clock _).park (.clamp 25)) 1 outcome' ∧
      outcome.mapError Error.bare = outcome'.mapError Error.bare := by
  obtain ⟨⟨outcome, outcome', hfirst, hsecond, hsame⟩, halike⟩ :=
    decides_postponed (E := Callback.engine 5) (F := Callback.engine 5)
      (show Diagram.ofText "a" prompt.legend = .ok prompt from rfl) (ready_parked .zero _)
      (ready_parked (.clamp 25) _) rfl rfl rfl (unsaturated_parked (by decide))
      (unsaturated_parked (by decide)) .structural
  exact ⟨outcome, outcome', hfirst, hsecond, hsame (halike (Or.inl (by decide)))⟩

end Engine

namespace Scenario

/-- A frame half as wide as a cell of the grid: whether two neighbouring frames lie in one cell
depends on when they are registered. -/
theorem run_postponed :
    lastFailure? [.beginScope "s" ⟨⟨5, by decide, by decide⟩, default, .zero⟩,
        .source "x" .cold (.drawing (.scope "s") default ⟨"a", [('a', .value 7)]⟩),
        .expect (some "s") ⟨.source "x", []⟩ ⟨"-a", [('a', .value 7)]⟩ .structural,
        .endScope "s"] = some none ∧
    lastFailure? [.beginScope "s" ⟨⟨5, by decide, by decide⟩, default, .zero⟩,
        .advanceTo "s" (.clamp 5),
        .source "x" .cold (.drawing (.scope "s") default ⟨"a", [('a', .value 7)]⟩),
        .expect (some "s") ⟨.source "x", []⟩ ⟨"-a", [('a', .value 7)]⟩ .structural,
        .endScope "s"] = some (some (.eventMismatch 0 "Next(7)@10" "Next(7)@5")) := by
  decide +kernel

end Scenario

end Marble
