import Marble.Proofs.Mirror
import Mathlib.Data.Nat.Find

/-! Lists compared element by element: the first pair that the inner comparer does not take for
equal decides, and where there is none, the lengths do. Over equality, at any depth, this is
equality of the lists. -/
namespace Marble

variable {α : Type} {inner : Compare α} {outer outer' : Compare (List α)} {x y : α}
  {xs ys : List α} {i : Nat} {answer : Except ComparerError Bool}

/-! ### The first place that settles a comparison -/

/-- The inner comparer says yes of every pair before a place. Of the pair there it says no, or it
cannot decide. -/
structure SettledAt (inner : Compare α) (xs ys : List α) (i : Nat)
    (answer : Except ComparerError Bool) : Prop where
  left : i < xs.length
  right : i < ys.length
  before (j : Nat) (hj : j < i) : inner xs[j] ys[j] = .ok true
  here : inner xs[i] ys[i] = answer
  decided : answer ≠ .ok true

/-- The inner comparer says yes of every pair, as far as both lists go. -/
def SameThroughout (inner : Compare α) (xs ys : List α) : Prop :=
  ∀ i (_ : i < xs.length) (_ : i < ys.length), inner xs[i] ys[i] = .ok true

/-- What a comparison of lists answers if it goes through them in step: what is said at the first
place that settles it, and otherwise whether one list is as long as the other. -/
structure InStep (inner : Compare α) (outer : Compare (List α)) : Prop where
  settled {xs ys : List α} {i : Nat} {answer : Except ComparerError Bool}
    (h : SettledAt inner xs ys i answer) : outer xs ys = answer
  same {xs ys : List α} (h : SameThroughout inner xs ys) :
    outer xs ys = .ok (decide (xs.length = ys.length))

theorem exists_settledAt_or_same (inner : Compare α) (xs ys : List α) :
    (∃ i answer, SettledAt inner xs ys i answer) ∨ SameThroughout inner xs ys := by
  classical
  by_cases hsame : SameThroughout inner xs ys
  · exact .inr hsame
  · have hex : ∃ i, ∃ (_ : i < xs.length) (_ : i < ys.length), inner xs[i] ys[i] ≠ .ok true := by
      simpa only [SameThroughout, not_forall] using hsame
    obtain ⟨hleft, hright, hhere⟩ := Nat.find_spec hex
    refine .inl ⟨Nat.find hex, _, hleft, hright, ?_, rfl, hhere⟩
    intro j hj
    by_contra hne
    exact Nat.find_min hex hj ⟨by omega, by omega, hne⟩

/-- Two comparisons that go through lists in step with one inner comparer are one. -/
theorem InStep.unique (h : InStep inner outer) (h' : InStep inner outer') : outer = outer' := by
  funext xs ys
  rcases exists_settledAt_or_same inner xs ys with ⟨i, answer, hsettled⟩ | hsame
  · rw [h.settled hsettled, h'.settled hsettled]
  · rw [h.same hsame, h'.same hsame]

/-! ### Element by element -/

theorem elementWise_cons_same (h : inner x y = .ok true) :
    inner.elementWise (x :: xs) (y :: ys) = inner.elementWise xs ys := by
  rw [Compare.elementWise, h]
  rfl

theorem elementWise_cons_settled (h : inner x y ≠ .ok true) :
    inner.elementWise (x :: xs) (y :: ys) = inner x y := by
  rw [Compare.elementWise]
  cases hanswer : inner x y with
  | error cause => rfl
  | ok same =>
    cases same with
    | true => exact absurd hanswer h
    | false => rfl

theorem SettledAt.tail (h : SettledAt inner (x :: xs) (y :: ys) (i + 1) answer) :
    SettledAt inner xs ys i answer where
  left := Nat.lt_of_succ_lt_succ h.left
  right := Nat.lt_of_succ_lt_succ h.right
  before j hj := h.before (j + 1) (Nat.succ_lt_succ hj)
  here := h.here
  decided := h.decided

/-- The places before pass the comparison on, one by one. -/
theorem SettledAt.elementWise_eq (h : SettledAt inner xs ys i answer) :
    inner.elementWise xs ys = answer := by
  induction i generalizing xs ys with
  | zero =>
    obtain ⟨x, xs, rfl⟩ := List.exists_cons_of_length_pos h.left
    obtain ⟨y, ys, rfl⟩ := List.exists_cons_of_length_pos h.right
    have hhere : inner x y = answer := h.here
    rw [elementWise_cons_settled (hhere ▸ h.decided), hhere]
  | succ i ih =>
    obtain ⟨x, xs, rfl⟩ := List.exists_cons_of_length_pos (Nat.zero_lt_of_lt h.left)
    obtain ⟨y, ys, rfl⟩ := List.exists_cons_of_length_pos (Nat.zero_lt_of_lt h.right)
    have hfirst : inner x y = .ok true := h.before 0 (Nat.succ_pos i)
    rw [elementWise_cons_same hfirst]
    exact ih h.tail

theorem SameThroughout.elementWise_eq (h : SameThroughout inner xs ys) :
    inner.elementWise xs ys = .ok (decide (xs.length = ys.length)) := by
  induction xs generalizing ys with
  | nil => cases ys <;> simp [Compare.elementWise]
  | cons x xs ih =>
    cases ys with
    | nil => simp [Compare.elementWise]
    | cons y ys =>
      have hfirst : inner x y = .ok true := h 0 (Nat.succ_pos _) (Nat.succ_pos _)
      have hrest : SameThroughout inner xs ys := by
        intro i hx hy
        exact h (i + 1) (Nat.succ_lt_succ hx) (Nat.succ_lt_succ hy)
      rw [elementWise_cons_same hfirst, ih hrest]
      simp

theorem inStep_elementWise (inner : Compare α) : InStep inner inner.elementWise where
  settled h := h.elementWise_eq
  same h := h.elementWise_eq

/-- Nothing behind the place that settles a comparison is looked at: whatever the lists go on with
there, if at all, and whatever the inner comparer says of other pairs, the answer stays. -/
def StopsShort (compare : Compare α → Compare (List α)) : Prop :=
  ∀ (inner inner' : Compare α) (xs ys rest rest' : List α) (i : Nat)
    (answer : Except ComparerError Bool), SettledAt inner xs ys i answer →
    (∀ j ≤ i, ∀ x ∈ xs[j]?, ∀ y ∈ ys[j]?, inner' x y = inner x y) →
    compare inner' (xs.take (i + 1) ++ rest) (ys.take (i + 1) ++ rest') = answer

theorem lt_length_take_append (hi : i < xs.length) (rest : List α) :
    i < (xs.take (i + 1) ++ rest).length := by
  rw [List.length_append, List.length_take]
  omega

theorem getElem_take_append {j : Nat} (hj : j ≤ i) (hi : i < xs.length) (rest : List α)
    (h : j < (xs.take (i + 1) ++ rest).length) : (xs.take (i + 1) ++ rest)[j] = xs[j] := by
  have hshort : j < (xs.take (i + 1)).length := by
    rw [List.length_take]
    omega
  rw [List.getElem_append_left hshort, List.getElem_take]

/-- Lists with other ends behind a place are settled there as they were, by any inner comparer that
agrees on the pairs so far. -/
theorem SettledAt.ended {inner' : Compare α} (h : SettledAt inner xs ys i answer)
    (hsame : ∀ j ≤ i, ∀ x ∈ xs[j]?, ∀ y ∈ ys[j]?, inner' x y = inner x y) (rest rest' : List α) :
    SettledAt inner' (xs.take (i + 1) ++ rest) (ys.take (i + 1) ++ rest') i answer := by
  have hx := h.left
  have hy := h.right
  have hleft := lt_length_take_append hx rest
  have hright := lt_length_take_append hy rest'
  have hpair : ∀ j (_ : j ≤ i),
      inner' (xs.take (i + 1) ++ rest)[j] (ys.take (i + 1) ++ rest')[j] = inner xs[j] ys[j] := by
    intro j hj
    rw [getElem_take_append hj hx, getElem_take_append hj hy]
    exact hsame j hj _ (List.getElem?_eq_getElem _) _ (List.getElem?_eq_getElem _)
  refine ⟨hleft, hright, ?_, ?_, h.decided⟩
  · intro j hj
    rw [hpair j (Nat.le_of_lt hj)]
    exact h.before j hj
  · rw [hpair i (Nat.le_refl i)]
    exact h.here

theorem stopsShort_elementWise :
    StopsShort (Compare.elementWise : Compare α → Compare (List α)) := by
  intro inner inner' xs ys rest rest' i answer h hsame
  exact (h.ended hsame rest rest').elementWise_eq

/-! ### Equality -/

section

variable [BEq α]

/-- Lists are equal if they are as long as each other and their elements are equal throughout. -/
theorem list_beq_iff :
    (xs == ys) = true ↔ xs.length = ys.length ∧ SameThroughout .structural xs ys := by
  rw [List.beq_eq_decide]
  split
  next hlength =>
    simp only [decide_eq_true_eq, hlength, true_and, SameThroughout, Compare.structural,
      Except.ok.injEq]
    exact ⟨fun h i hx _ => h i hx, fun h i hx => h i hx (hlength ▸ hx)⟩
  next hlength => simp [hlength]

theorem inStep_structural : InStep (.structural : Compare α) .structural where
  settled {xs ys i answer} h := by
    have hx := h.left
    have hy := h.right
    have hhere : Except.ok (xs[i] == ys[i]) = answer := h.here
    have hne : (xs[i] == ys[i]) = false := by
      refine Bool.eq_false_iff.mpr fun heq => h.decided ?_
      rw [← hhere, heq]
    have hlists : (xs == ys) = false := by
      refine Bool.eq_false_iff.mpr fun heq => h.decided ?_
      rw [← h.here]
      exact (list_beq_iff.mp heq).2 i hx hy
    rw [← hhere, hne, Compare.structural, hlists]
  same {xs ys} h := by
    have hlists : (xs == ys) = decide (xs.length = ys.length) := by
      rw [Bool.eq_iff_iff, list_beq_iff, decide_eq_true_eq]
      exact and_iff_left h
    rw [Compare.structural, hlists]

/-- Nested lists are equal if their elements are, down to the values. -/
instance Nested.beq : (depth : Nat) → BEq (Nested α depth)
  | 0 => inferInstanceAs (BEq α)
  | depth + 1 =>
    let _ : BEq (Nested α depth) := beq depth
    inferInstanceAs (BEq (List (Nested α depth)))

/-- At each depth, elements that are compared for equality make lists that are. -/
theorem nested_structural (depth : Nat) : (.structural : Compare α).nested depth = .structural := by
  induction depth with
  | zero => rfl
  | succ depth ih =>
    -- both go through the lists in step, asking whether the elements are equal
    rw [Compare.nested, ih]
    exact (inStep_elementWise _).unique inStep_structural

end

/-- Lists are compared element by element in step: the first pair of which the inner comparer does
not say yes decides, by a no or by an error, and nothing behind it counts; where there is none, the
lengths do. Over equality, lists nested to any depth are compared as they are for equality. -/
theorem elementWise_settles :
    (∀ inner : Compare α, InStep inner inner.elementWise) ∧
      StopsShort (Compare.elementWise : Compare α → Compare (List α)) ∧
      ∀ [BEq α] (depth : Nat), (.structural : Compare α).nested depth = .structural :=
  ⟨inStep_elementWise, stopsShort_elementWise, nested_structural⟩

/-- A pair that cannot be decided comes before the lengths. -/
example : Comparer.refusingThirteen.compare.elementWise [1, 13] [1, 5, 8] =
    .error (.undecided "cannot compare 13 with 5") := by
  rfl

end Marble
