import Marble.Notification
import Mathlib.Data.List.Sort
import Mathlib.Order.Defs.LinearOrder

/-! Instants are linearly ordered, and delays move them forward; timelines in the order of time. -/
namespace Marble

variable {β : Type}

namespace VirtualTime

instance : Min VirtualTime := ⟨fun s t => if s ≤ t then s else t⟩

instance : LinearOrder VirtualTime where
  le_refl t := Nat.le_refl t.ticks
  le_trans _ _ _ := Nat.le_trans
  lt_iff_le_not_ge _ _ := Nat.lt_iff_le_and_not_ge
  le_antisymm _ _ hst hts := VirtualTime.ext (Nat.le_antisymm hst hts)
  le_total s t := Nat.le_total s.ticks t.ticks
  toDecidableLE := inferInstance
  toDecidableEq := inferInstance
  toDecidableLT := inferInstance
  max_def _ _ := rfl
  min_def _ _ := rfl
  compare_eq_compareOfLessAndEq s t := by
    change compare s.ticks t.ticks = _
    rw [LinearOrder.compare_eq_compareOfLessAndEq]
    simp only [compareOfLessAndEq, lt_iff, VirtualTime.ext_iff]

theorem le_add (s d : VirtualTime) : s ≤ s + d := by
  have := s.ticks_le
  simp only [le_iff, add_ticks]
  omega

theorem add_mono {s t d e : VirtualTime} (h : s ≤ t) (h' : d ≤ e) : s + d ≤ t + e := by
  simp only [le_iff, add_ticks] at *
  omega

theorem le_never (t : VirtualTime) : t ≤ never := t.ticks_le

theorem isNever_iff {t : VirtualTime} : t.isNever = true ↔ t = never := by
  simp [isNever, VirtualTime.ext_iff]

theorem isNever_or_le (s t : VirtualTime) : (t.isNever || decide (s ≤ t)) = decide (s ≤ t) := by
  cases hnever : t.isNever with
  | false => rfl
  | true => simp [isNever_iff.mp hnever, le_never]

theorem le_foldl_max (ts : List VirtualTime) (a : VirtualTime) :
    a ≤ ts.foldl max a ∧ ∀ t ∈ ts, t ≤ ts.foldl max a := by
  induction ts generalizing a with
  | nil => simp
  | cons t ts ih =>
    obtain ⟨hstart, hall⟩ := ih (max a t)
    refine ⟨(le_max_left a t).trans hstart, fun t' ht' => ?_⟩
    rcases List.mem_cons.mp ht' with rfl | ht'
    · exact (le_max_right a t').trans hstart
    · exact hall t' ht'

theorem truncate_eq_iff {s t : VirtualTime} {grid : TimeGrid} :
    s.truncate grid = t.truncate grid ↔ s.ticks / grid.ticks = t.ticks / grid.ticks := by
  rw [VirtualTime.ext_iff, truncate_ticks, truncate_ticks, ← Nat.div_mul_self_eq_mod_sub_self,
    ← Nat.div_mul_self_eq_mod_sub_self]
  exact Nat.mul_left_inj (Nat.ne_of_gt grid.ticks_pos)

/-- Cells that are made of whole smaller ones are found by way of these. -/
theorem truncate_truncate {grid coarser : TimeGrid} (h : grid.ticks ∣ coarser.ticks)
    (t : VirtualTime) : (t.truncate grid).truncate coarser = t.truncate coarser := by
  obtain ⟨k, hk⟩ := h
  rw [truncate_eq_iff, hk, ← Nat.div_div_eq_div_mul, ← Nat.div_div_eq_div_mul, truncate_ticks,
    ← Nat.div_mul_self_eq_mod_sub_self, Nat.mul_div_cancel _ grid.ticks_pos]

/-- What is in order and begins after an instant lies after it as a whole. -/
theorem lt_of_pairwise {f : β → VirtualTime} {x : β} {xs : List β} {t : VirtualTime}
    (h : (x :: xs).Pairwise fun y z => f y ≤ f z) (hx : t < f x) : ∀ y ∈ x :: xs, t < f y := by
  intro y hy
  rcases List.mem_cons.mp hy with rfl | hy
  · exact hx
  · exact lt_of_lt_of_le hx ((List.pairwise_cons.mp h).1 y hy)

end VirtualTime

theorem UnitOfTime.frameStart_mono (unit : UnitOfTime) {p q : Nat} (h : p ≤ q) :
    unit.frameStart p ≤ unit.frameStart q := by
  have := Nat.mul_le_mul_right unit.ticks h
  simp only [frameStart, VirtualTime.le_iff, VirtualTime.clamp_ticks]
  omega

end Marble
