import Marble.Proofs.Differences
import Marble.Proofs.Time
import Mathlib.Data.List.Forall2

/-! Timelines that pass for one another: they have as many events, and each event agrees with its
counterpart. Passing is an equivalence exactly if values and causes are compared by one, and a grid
passes whatever another does exactly if its cells are made of whole cells of the other. -/
namespace Marble

variable {α ε φ : Type} {compare : Compare α} {grid coarser : TimeGrid} {index : Nat}

section

variable [BEq ε]

/-- Two notifications count as equal: a comparer says so of their values, or their causes are
equal. -/
inductive Notification.Alike (compare : Compare α) : Notification α ε → Notification α ε → Prop
  | next {e a : α} (h : compare e a = .ok true) : Alike compare (.next e) (.next a)
  | error {e a : ε} (h : (e == a) = true) : Alike compare (.error e) (.error a)
  | completed : Alike compare .completed .completed

variable {e a : Event α ε} {expected actual : List (Event α ε)}

/-- Events agree if they lie in one cell of the grid and their notifications count as equal. -/
theorem agrees_eq_ok_true : e.agrees compare grid a = .ok true ↔
    e.time.truncate grid = a.time.truncate grid ∧ e.value.Alike compare a.value := by
  obtain ⟨s, n⟩ := e
  obtain ⟨t, m⟩ := a
  by_cases htime : s.truncate grid = t.truncate grid
  · rw [Timed.agrees, if_neg (not_not.mpr htime), and_iff_right htime]
    constructor
    · intro h
      -- notifications of different kinds have been answered with `false`
      cases n <;> cases m <;> simp only [Except.ok.injEq, reduceCtorEq] at h
      · exact .next h
      · exact .error h
      · exact .completed
    · intro h
      cases h with
      | next h => exact h
      | error h => exact congrArg Except.ok h
      | completed => rfl
  · simp [Timed.agrees, htime]

variable [Shown α] [Shown ε]

theorem checkPairs_eq_ok_iff : checkPairs compare grid index expected actual = .ok () ↔
    ∀ p ∈ expected.zip actual, p.1.agrees compare grid p.2 = .ok true := by
  induction expected generalizing actual index with
  | nil => simp [checkPairs]
  | cons e expected ih =>
    cases actual with
    | nil => simp [checkPairs]
    | cons a actual =>
      rw [List.zip_cons_cons, List.forall_mem_cons, checkPairs]
      cases hsame : e.agrees compare grid a with
      | error cause => simp
      | ok same => cases same <;> simp [ih]

/-- Timelines pass if they have as many events and each pair agrees. -/
theorem checkEvents_eq_ok_iff : checkEvents compare grid actual expected = .ok () ↔
    List.Forall₂ (fun e a => e.agrees compare grid a = .ok true) expected actual := by
  rw [checkEvents_eq_ok, checkPairs_eq_ok_iff, List.forall₂_iff_zip]
  simp only [Prod.forall, eq_comm]

end

theorem checkInstants_eq_ok_iff {expected instants : List VirtualTime} :
    checkInstants grid index expected instants = .ok () ↔
      ∀ p ∈ expected.zip instants, p.1.truncate grid = p.2.truncate grid := by
  induction expected generalizing instants index with
  | nil => simp [checkInstants]
  | cons e expected ih =>
    cases instants with
    | nil => simp [checkInstants]
    | cons t instants =>
      rw [List.zip_cons_cons, List.forall_mem_cons, checkInstants]
      split
      next hne => simp [hne]
      next heq => rw [ih, and_iff_right (not_not.mp heq)]

/-- Invocations pass if there are as many as effects, each in the cell of its effect. -/
theorem checkEffects_eq_ok_iff {invocations : List VirtualTime} {expected : List (Timed φ)} :
    checkEffects grid invocations expected = .ok () ↔
      List.Forall₂ (fun e t => e.time.truncate grid = t.truncate grid) expected invocations := by
  have htimes := List.forall₂_map_left_iff (f := Timed.time) (l := expected) (u := invocations)
    (R := fun s t => s.truncate grid = t.truncate grid)
  rw [← htimes, List.forall₂_iff_zip, List.length_map, checkEffects]
  split
  next hne => simp [Ne.symm hne]
  next heq => simp [checkInstants_eq_ok_iff, not_not.mp heq]

/-! ### Passing as an equivalence -/

/-- What relates lists item by item is an equivalence if it is one of items. -/
theorem equivalence_forall₂ {β : Type} {R : β → β → Prop} (h : Equivalence R) :
    Equivalence (List.Forall₂ R) where
  refl l := List.forall₂_same.mpr fun x _ => h.refl x
  symm hxy := List.Forall₂.flip (hxy.imp fun _ _ => h.symm)
  trans {xs ys zs} hxy hyz := by
    induction hxy generalizing zs with
    | nil => exact hyz
    | cons hx _ ih =>
      cases hyz with
      | cons hy hrest => exact .cons (h.trans hx hy) (ih hrest)

theorem equivalence_flip {β : Type} {R : β → β → Prop} (h : Equivalence R) :
    Equivalence fun x y => R y x :=
  ⟨h.refl, h.symm, fun hxy hyz => h.trans hyz hxy⟩

section

variable [BEq ε]

open Notification (Alike)

theorem equivalence_alike (hvalues : Equivalence fun v w => compare v w = .ok true)
    (hcauses : Equivalence fun x y : ε => (x == y) = true) :
    Equivalence (Alike (ε := ε) compare) where
  refl n := by
    cases n with
    | next v => exact .next (hvalues.refl v)
    | error x => exact .error (hcauses.refl x)
    | completed => exact .completed
  symm h := by
    cases h with
    | next h => exact .next (hvalues.symm h)
    | error h => exact .error (hcauses.symm h)
    | completed => exact .completed
  trans h h' := by
    cases h with
    | next h =>
      cases h' with
      | next h' => exact .next (hvalues.trans h h')
    | error h =>
      cases h' with
      | error h' => exact .error (hcauses.trans h h')
    | completed => exact h'

theorem equivalence_agrees (hvalues : Equivalence fun v w => compare v w = .ok true)
    (hcauses : Equivalence fun x y : ε => (x == y) = true) :
    Equivalence fun e a : Event α ε => e.agrees compare grid a = .ok true := by
  have halike := equivalence_alike hvalues hcauses
  simp only [agrees_eq_ok_true]
  refine ⟨fun e => ⟨rfl, halike.refl _⟩, fun h => ⟨h.1.symm, halike.symm h.2⟩, fun h h' => ?_⟩
  exact ⟨h.1.trans h'.1, halike.trans h.2 h'.2⟩

variable [Shown α] [Shown ε]

theorem checkEvents_next {t : VirtualTime} {v w : α} :
    checkEvents (ε := ε) compare grid [⟨t, .next v⟩] [⟨t, .next w⟩] = .ok () ↔
      compare w v = .ok true := by
  rw [checkEvents_eq_ok_iff, List.forall₂_cons, agrees_eq_ok_true]
  exact ⟨fun | ⟨⟨_, .next h⟩, _⟩ => h, fun h => ⟨⟨rfl, .next h⟩, .nil⟩⟩

theorem checkEvents_error {t : VirtualTime} {x y : ε} :
    checkEvents compare grid [⟨t, .error x⟩] [⟨t, .error y⟩] = .ok () ↔ (y == x) = true := by
  rw [checkEvents_eq_ok_iff, List.forall₂_cons, agrees_eq_ok_true]
  exact ⟨fun | ⟨⟨_, .error h⟩, _⟩ => h, fun h => ⟨⟨rfl, .error h⟩, .nil⟩⟩

/-- On any grid, timelines pass for one another by an equivalence if, and only if, that is how the
comparer takes values for equal and how causes are compared. About other values the comparer need
not decide. -/
theorem equivalence_checkEvents (compare : Compare α) (grid : TimeGrid) :
    Equivalence (fun actual expected : List (Event α ε) =>
        checkEvents compare grid actual expected = .ok ()) ↔
      Equivalence (fun v w => compare v w = .ok true) ∧
        Equivalence fun x y : ε => (x == y) = true := by
  constructor
  · intro h
    have hvalues := equivalence_flip (h.comap fun v => [⟨.zero, .next v⟩])
    have hcauses := equivalence_flip (h.comap fun x => [⟨.zero, .error x⟩])
    simp only [Function.onFun, checkEvents_next] at hvalues
    simp only [Function.onFun, checkEvents_error] at hcauses
    exact ⟨hvalues, hcauses⟩
  · rintro ⟨hvalues, hcauses⟩
    simp only [checkEvents_eq_ok_iff]
    exact equivalence_flip (equivalence_forall₂ (equivalence_agrees hvalues hcauses))

end

/-! ### Coarser grids -/

/-- Whatever passes on one grid passes on another. -/
structure TimeGrid.Accepts (coarser grid : TimeGrid) : Prop where
  events {α ε : Type} [BEq ε] [Shown α] [Shown ε] {compare : Compare α}
    {actual expected : List (Event α ε)} (h : checkEvents compare grid actual expected = .ok ()) :
    checkEvents compare coarser actual expected = .ok ()
  effects {φ : Type} {invocations : List VirtualTime} {expected : List (Timed φ)}
    (h : checkEffects grid invocations expected = .ok ()) :
    checkEffects coarser invocations expected = .ok ()

theorem accepts_of_dvd (h : grid.ticks ∣ coarser.ticks) : coarser.Accepts grid := by
  have hcell : ∀ {s t : VirtualTime}, s.truncate grid = t.truncate grid →
      s.truncate coarser = t.truncate coarser := fun {s t} hst => by
    rw [← VirtualTime.truncate_truncate h s, hst, VirtualTime.truncate_truncate h]
  constructor
  case events =>
    intro α ε _ _ _ compare actual expected hpass
    rw [checkEvents_eq_ok_iff] at hpass ⊢
    refine hpass.imp fun e a hagree => ?_
    rw [agrees_eq_ok_true] at hagree ⊢
    exact ⟨hcell hagree.1, hagree.2⟩
  case effects =>
    intro φ invocations expected hpass
    rw [checkEffects_eq_ok_iff] at hpass ⊢
    exact hpass.imp fun e t => hcell

/-- An instant begins a cell exactly if the grid parts it from the instant before. -/
theorem truncate_pred_eq_iff {n : Nat} (hpos : 0 < n) (hle : n ≤ maxTicks) :
    (VirtualTime.clamp (n - 1)).truncate grid = (VirtualTime.clamp n).truncate grid ↔
      ¬ grid.ticks ∣ n := by
  obtain ⟨m, rfl⟩ := Nat.exists_eq_add_one_of_ne_zero (Nat.ne_of_gt hpos)
  rw [VirtualTime.truncate_eq_iff, VirtualTime.clamp_ticks, VirtualTime.clamp_ticks,
    Nat.add_sub_cancel, Nat.min_eq_left hle, Nat.min_eq_left (by omega), Nat.succ_div]
  split
  next h => simp [h]
  next h => simp [h]

/-- A grid passes whatever another one does if, and only if, its cells are made of whole cells of
the other; so every grid passes what the exact one does. -/
theorem accepts_iff_dvd :
    (∀ grid coarser : TimeGrid, coarser.Accepts grid ↔ grid.ticks ∣ coarser.ticks) ∧
      ∀ grid : TimeGrid, grid.Accepts .exact := by
  refine ⟨fun grid coarser => ⟨fun h => ?_, accepts_of_dvd⟩,
    fun grid => accepts_of_dvd (Nat.one_dvd _)⟩
  have hparts (g : TimeGrid) :
      (VirtualTime.clamp (coarser.ticks - 1)).truncate g =
        (VirtualTime.clamp coarser.ticks).truncate g ↔
        ¬ g.ticks ∣ coarser.ticks := truncate_pred_eq_iff coarser.ticks_pos coarser.ticks_le
  by_contra hdvd
  -- what the grid does not part where the second cell of the coarser one begins, the coarser one
  -- does
  have hpass :
      checkEffects grid [.clamp coarser.ticks] [⟨.clamp (coarser.ticks - 1), ()⟩] = .ok () :=
    checkEffects_eq_ok_iff.mpr (.cons ((hparts grid).mpr hdvd) .nil)
  have hcoarser := List.forall₂_cons.mp (checkEffects_eq_ok_iff.mp (h.effects hpass))
  exact (hparts coarser).mp hcoarser.1 (Nat.dvd_refl _)

end Marble
